import ServiceHealth.Text.Order

/-!
# Tables keyed by text

A table holds one value per name, in the byte order of the names; the order is part of the type.
Inserting under a name that is already there replaces its value.

* `get?_insert`: what a look-up finds after an insertion.
* `keys_ascending`: the names ascend strictly, so none occurs twice.
* `ext_get?`: a table is what look-ups find in it.
* `get?_ofList`, `ofList_perm`, `keys_ofList`: the table of a list without a name that occurs twice.
-/

namespace ServiceHealth

open Text

universe u v

/-- Values under names, in the byte order of the names. -/
structure Keyed (α : Type u) where
  entries : List (String × α)
  ascending : (entries.map (·.1)).Pairwise Before
  deriving DecidableEq

namespace Keyed

variable {α : Type u} {β : Type v}

/-! ## 1. Insertion into a list in order -/

/-- Puts a value under its name, in the place the order gives it. -/
def place (name : String) (value : α) : List (String × α) → List (String × α)
  | [] => [(name, value)]
  | (k, v) :: rest =>
    if Before name k then (name, value) :: (k, v) :: rest
    else if name = k then (name, value) :: rest
    else (k, v) :: place name value rest

theorem mem_names_place (name : String) (value : α) (xs : List (String × α)) (k : String) :
    k ∈ (place name value xs).map (·.1) ↔ k = name ∨ k ∈ xs.map (·.1) := by
  induction xs with
  | nil => simp [place]
  | cons x rest ih =>
    obtain ⟨k', v'⟩ := x
    unfold place
    split
    · simp
    · split
      · rename_i h; subst h; simp
      · simp only [List.map_cons, List.mem_cons, ih]
        constructor
        · rintro (h | h | h)
          · exact .inr (.inl h)
          · exact .inl h
          · exact .inr (.inr h)
        · rintro (h | h | h)
          · exact .inr (.inl h)
          · exact .inl h
          · exact .inr (.inr h)

theorem place_ascending (name : String) (value : α) (xs : List (String × α))
    (h : (xs.map (·.1)).Pairwise Before) :
    ((place name value xs).map (·.1)).Pairwise Before := by
  induction xs with
  | nil => simp [place]
  | cons x rest ih =>
    obtain ⟨k', v'⟩ := x
    rw [List.map_cons, List.pairwise_cons] at h
    unfold place
    split
    · rename_i lt
      rw [List.map_cons, List.pairwise_cons]
      refine ⟨fun k hk => ?_, by simpa [List.pairwise_cons] using h⟩
      rcases List.mem_cons.mp hk with rfl | hk
      · exact lt
      · exact lt.trans (h.1 k hk)
    · rename_i nlt
      split
      · rename_i e
        subst e
        simpa [List.pairwise_cons] using h
      · rename_i ne
        rw [List.map_cons, List.pairwise_cons]
        refine ⟨fun k hk => ?_, ih h.2⟩
        rcases (mem_names_place name value rest k).mp hk with rfl | hk
        · rcases before_or_eq_or_before k k' with l | e | l
          · exact absurd l nlt
          · exact absurd e ne
          · exact l
        · exact h.1 k hk

private theorem lookup_cons_ite (k : String) (x : String × α) (rest : List (String × α)) :
    (x :: rest).lookup k = if k = x.1 then some x.2 else rest.lookup k := by
  obtain ⟨k', v'⟩ := x
  by_cases h : k = k'
  · simp [h]
  · have h' : (k == k') = false := by simpa using h
    rw [List.lookup_cons, h', if_neg h]

theorem lookup_place (name : String) (value : α) (xs : List (String × α)) (k : String) :
    (place name value xs).lookup k = if k = name then some value else xs.lookup k := by
  induction xs with
  | nil => simp [place, lookup_cons_ite]
  | cons x rest ih =>
    obtain ⟨k', v'⟩ := x
    unfold place
    split
    · rw [lookup_cons_ite]
    · split
      · rename_i e
        subst e
        rw [lookup_cons_ite, lookup_cons_ite]
        by_cases h : k = name <;> simp [h]
      · rename_i ne
        rw [lookup_cons_ite, lookup_cons_ite, ih]
        by_cases h : k = k'
        · subst h
          simp [Ne.symm ne]
        · simp [h]

/-! ## 2. Tables -/

/-- The table without names. -/
def empty : Keyed α := ⟨[], by simp⟩

instance : EmptyCollection (Keyed α) := ⟨empty⟩

instance : Inhabited (Keyed α) := ⟨empty⟩

/-- Puts a value under a name, in place of the one that was there. -/
def insert (t : Keyed α) (name : String) (value : α) : Keyed α :=
  ⟨place name value t.entries, place_ascending name value t.entries t.ascending⟩

/-- The value under a name. -/
def get? (t : Keyed α) (name : String) : Option α := t.entries.lookup name

/-- The names, in order. -/
def keys (t : Keyed α) : List String := t.entries.map (·.1)

/-- The values, in the order of their names. -/
def values (t : Keyed α) : List α := t.entries.map (·.2)

/-- The table of a list of pairs; of two pairs with one name the later counts. -/
def ofList (xs : List (String × α)) : Keyed α :=
  xs.foldl (fun t x => t.insert x.1 x.2) empty

@[simp] theorem get?_empty (name : String) : (empty : Keyed α).get? name = none := rfl

/-- **What a look-up finds after an insertion.** -/
theorem get?_insert (t : Keyed α) (name : String) (value : α) (k : String) :
    (t.insert name value).get? k = if k = name then some value else t.get? k :=
  lookup_place name value t.entries k

/-- **The names ascend strictly.** -/
theorem keys_ascending (t : Keyed α) : t.keys.Pairwise Before := t.ascending

theorem keys_nodup (t : Keyed α) : t.keys.Nodup :=
  t.ascending.imp fun h => h.ne

private theorem lookup_eq_some (xs : List (String × α)) (h : (xs.map (·.1)).Nodup) (name : String)
    (value : α) : xs.lookup name = some value ↔ (name, value) ∈ xs := by
  induction xs with
  | nil => simp
  | cons x rest ih =>
    obtain ⟨k, v⟩ := x
    rw [List.map_cons, List.nodup_cons] at h
    rw [lookup_cons_ite, List.mem_cons, Prod.mk.injEq]
    by_cases e : name = k
    · subst e
      have absent : (name, value) ∉ rest := fun mem => h.1 (List.mem_map.mpr ⟨_, mem, rfl⟩)
      simp [absent, eq_comm]
    · simp [e, ih h.2]

/-- **A look-up finds what is in the table.** -/
theorem get?_eq_some {t : Keyed α} {name : String} {value : α} :
    t.get? name = some value ↔ (name, value) ∈ t.entries :=
  lookup_eq_some t.entries t.keys_nodup name value

theorem mem_keys {t : Keyed α} {name : String} :
    name ∈ t.keys ↔ ∃ value, t.get? name = some value := by
  simp only [keys, List.mem_map, get?_eq_some, Prod.exists, exists_and_right, exists_eq_right]

/-- **A table is what look-ups find in it.** -/
theorem ext_get? {t t' : Keyed α} (h : ∀ name, t.get? name = t'.get? name) : t = t' := by
  obtain ⟨xs, hx⟩ := t
  obtain ⟨ys, hy⟩ := t'
  have below : ∀ {zs : List (String × α)}, (zs.map (·.1)).Pairwise Before →
      zs.Pairwise fun a b => Before a.1 b.1 := fun h => List.pairwise_map.mp h
  have nodup : ∀ {zs : List (String × α)}, (zs.map (·.1)).Pairwise Before → zs.Nodup :=
    fun h => (below h).imp fun lt e => lt.ne (congrArg (·.1) e)
  have members : ∀ x, x ∈ xs ↔ x ∈ ys := by
    rintro ⟨name, value⟩
    have found := h name
    exact (get?_eq_some (t := ⟨xs, hx⟩)).symm.trans (by rw [found]; exact get?_eq_some)
  have perm := (List.perm_ext_iff_of_nodup (nodup hx) (nodup hy)).mpr members
  have same : xs = ys :=
    perm.eq_of_pairwise (fun _ _ _ _ lt gt => absurd gt lt.asymm) (below hx) (below hy)
  subst same
  rfl

theorem ofList_concat (xs : List (String × α)) (x : String × α) :
    ofList (xs ++ [x]) = (ofList xs).insert x.1 x.2 := by
  simp [ofList, List.foldl_append]

/-- **What a look-up finds in the table of a list without a name that occurs twice.** -/
theorem get?_ofList {xs : List (String × α)} (nodup : (xs.map (·.1)).Nodup) {name : String}
    {value : α} : (ofList xs).get? name = some value ↔ (name, value) ∈ xs := by
  have general : ∀ (xs : List (String × α)) (t : Keyed α), (xs.map (·.1)).Nodup →
      ((xs.foldl (fun t x => t.insert x.1 x.2) t).get? name = some value ↔
        (name, value) ∈ xs ∨ (name ∉ xs.map (·.1) ∧ t.get? name = some value)) := by
    intro xs
    induction xs with
    | nil => simp
    | cons x xs ih =>
      intro t nodup
      rw [List.map_cons, List.nodup_cons] at nodup
      rw [List.foldl_cons, ih _ nodup.2, get?_insert, List.map_cons, List.mem_cons, List.mem_cons,
        not_or]
      obtain ⟨k, v⟩ := x
      dsimp only at nodup ⊢
      rw [Prod.mk.injEq]
      by_cases e : name = k
      · subst e
        have absent : (name, value) ∉ xs := fun mem => nodup.1 (List.mem_map.mpr ⟨_, mem, rfl⟩)
        simp [absent, nodup.1, eq_comm]
      · simp [e]
  refine (general xs empty nodup).trans ?_
  simp

/-- **The order of a list without a name that occurs twice does not show in its table.** -/
theorem ofList_perm {xs ys : List (String × α)} (perm : xs.Perm ys)
    (nodup : (xs.map (·.1)).Nodup) : ofList xs = ofList ys := by
  have nodup' : (ys.map (·.1)).Nodup := (perm.map _).nodup_iff.mp nodup
  refine ext_get? fun name => Option.ext fun value => ?_
  rw [get?_ofList nodup, get?_ofList nodup']
  exact perm.mem_iff

/-- **The table of a list has the names of the list**, in ascending order. -/
theorem keys_ofList {xs : List (String × α)} {names : List String}
    (perm : (xs.map (·.1)).Perm names) (ascending : names.Pairwise Before) :
    (ofList xs).keys = names := by
  have nodup : (xs.map (·.1)).Nodup := perm.nodup_iff.mpr (ascending.imp fun lt => lt.ne)
  have members : ∀ name, name ∈ (ofList xs).keys ↔ name ∈ names := fun name => by
    rw [mem_keys, ← perm.mem_iff, List.mem_map]
    simp only [get?_ofList nodup, Prod.exists, exists_and_right, exists_eq_right]
  have same := (List.perm_ext_iff_of_nodup (keys_nodup _)
    (ascending.imp fun lt => lt.ne)).mpr members
  exact same.eq_of_pairwise (fun _ _ _ _ lt gt => absurd gt lt.asymm) (keys_ascending _) ascending

end Keyed

end ServiceHealth
