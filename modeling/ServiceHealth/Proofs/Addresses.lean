import ServiceHealth.Proofs.Numerals

/-!
# Socket addresses and how they are spelled

The grammar of socket addresses says which texts spell which address. In a version 6 address a run
of zeros may be left out, the last two groups may stand as a version 4 address, digits may be in
either case and have zeros in front, and so there are many spellings of one address. The reader
accepts them all and nothing else, and the writer chooses one of them.

* `Endpoint.Spelled`: the grammar.
* `endpoint?_eq_some_iff`: **the reader gives the address that a text spells**, if there is one.
* `longestZeros_run`: what the writer leaves out are zeros.
* `Endpoint.spelled_chars`: **the writer spells the address**, so it can be read back.
-/

namespace ServiceHealth.Net

open Text

/-! ## 1. The grammar -/

/-- A version 4 address is four octets with points between them. -/
inductive V4.Spelled : List Char → V4 → Prop where
  | octets {a b c d : List Char} {v : V4} (first : octetShape.Spells a v.a.toNat)
      (second : octetShape.Spells b v.b.toNat) (third : octetShape.Spells c v.c.toNat)
      (last : octetShape.Spells d v.d.toNat) :
      Spelled (a ++ '.' :: (b ++ '.' :: (c ++ '.' :: d))) v

/-- At least one group, with colons between them. The last two may be a version 4 address; the truth
value says whether they are. -/
inductive GroupsSpelled : Bool → List Char → List UInt16 → Prop where
  | last {digits : List Char} {g : UInt16} (spells : groupShape.Spells digits g.toNat) :
      GroupsSpelled false digits [g]
  | embedded {text : List Char} {v : V4} (spelled : v.Spelled text) :
      GroupsSpelled true text [v.high, v.low]
  | before {e : Bool} {digits text : List Char} {g : UInt16} {gs : List UInt16}
      (spells : groupShape.Spells digits g.toNat) (rest : GroupsSpelled e text gs) :
      GroupsSpelled e (digits ++ ':' :: text) (g :: gs)

/-- The groups on one side of a gap; there may be none. -/
inductive SideSpelled : Bool → List Char → List UInt16 → Prop where
  | none : SideSpelled false [] []
  | some {e : Bool} {text : List Char} {gs : List UInt16} (spelled : GroupsSpelled e text gs) :
      SideSpelled e text gs

/-- A version 6 address is eight groups, or fewer with a gap among them that stands for zeros.
Before the gap there is no version 4 address. -/
inductive V6.Spelled : List Char → V6 → Prop where
  | whole {e : Bool} {text : List Char} {v : V6} (spelled : GroupsSpelled e text v.groups) :
      Spelled text v
  | gap {e : Bool} {head tail : List Char} {gs hs : List UInt16} {v : V6} {zeros : Nat}
      (before : SideSpelled false head gs) (after : SideSpelled e tail hs) (some_zero : 0 < zeros)
      (groups : v.groups = gs ++ List.replicate zeros 0 ++ hs) :
      Spelled (head ++ ':' :: ':' :: tail) v

/-- A scope stands after a percent sign; no scope is scope zero. -/
inductive ScopeSpelled : List Char → UInt32 → Prop where
  | none : ScopeSpelled [] 0
  | some {digits : List Char} {scope : UInt32} (spells : scopeShape.Spells digits scope.toNat) :
      ScopeSpelled ('%' :: digits) scope

/-- **How a socket address is spelled**: with the port after a colon, and a version 6 address with
its scope in brackets before that. -/
inductive Endpoint.Spelled : List Char → Endpoint → Prop where
  | v4 {text digits : List Char} {address : V4} {port : UInt16} (spelled : address.Spelled text)
      (spells : portShape.Spells digits port.toNat) :
      Spelled (text ++ ':' :: digits) (.v4 address port)
  | v6 {text zone digits : List Char} {address : V6} {scope : UInt32} {port : UInt16}
      (spelled : address.Spelled text) (zoned : ScopeSpelled zone scope)
      (spells : portShape.Spells digits port.toNat) :
      Spelled ('[' :: (text ++ (zone ++ ']' :: ':' :: digits))) (.v6 address scope port)

/-! ## 2. Reading numbers and version 4 addresses -/

theorem after?_eq_some_iff {c : Char} {cs rest : List Char} :
    after? c cs = some rest ↔ cs = c :: rest := by
  cases cs with
  | nil => exact ⟨nofun, nofun⟩
  | cons x cs =>
    unfold after?
    by_cases h : x = c
    · simp [h]
    · simp [h]

@[simp] theorem after?_cons (c : Char) (rest : List Char) : after? c (c :: rest) = some rest :=
  after?_eq_some_iff.mpr rfl

theorem isDigit_sixteen {c : Char} (h : isDigit 16 c = false) : isDigit 10 c = false := by
  unfold isDigit at h ⊢
  cases hd : digitValue? 10 c with
  | none => rfl
  | some d =>
    rw [((digitValue?_base (by decide) c d).mp hd).2] at h
    cases h

theorem Shape.Spells.isDigit {s : Shape} (le : s.base ≤ 16) {digits : List Char} {n : Nat}
    (h : s.Spells digits n) : ∀ c ∈ digits, Net.isDigit s.base c = true :=
  ((denotes_iff le).mp h.denotes).1

/-- Where there is no digit there is no number. -/
theorem number?_none {s : Shape} (le : s.base ≤ 16) {cs : List Char}
    (none_digit : ∀ c ∈ cs.head?, isDigit s.base c = false) : number? s cs = none := by
  refine Option.eq_none_iff_forall_ne_some.mpr fun ⟨n, rest⟩ h => ?_
  obtain ⟨digits, rfl, spells, -⟩ := (number?_eq_some_iff le).mp h
  obtain ⟨c, ds, rfl⟩ := List.exists_cons_of_ne_nil spells.nonempty
  have digit := spells.isDigit le c List.mem_cons_self
  rw [none_digit c rfl] at digit
  cases digit

/-- **A version 4 address is read as it is spelled**, with all digits of its last octet. -/
theorem v4?_eq_some_iff {cs rest : List Char} {v : V4} :
    v4? cs = some (v, rest) ↔ ∃ text, cs = text ++ rest ∧ v.Spelled text ∧
      ∀ c ∈ rest.head?, isDigit 10 c = false := by
  have octet : ∀ {cs rest : List Char} {n : Nat}, number? octetShape cs = some (n, rest) ↔
      ∃ digits, cs = digits ++ rest ∧ octetShape.Spells digits n ∧
        ∀ c ∈ rest.head?, isDigit 10 c = false := number?_eq_some_iff (by decide)
  constructor
  · intro h
    unfold v4? at h
    simp only [Option.bind_eq_bind, Option.bind_eq_some_iff, Prod.exists, after?_eq_some_iff] at h
    obtain ⟨a, _, ha, _, rfl, b, _, hb, _, rfl, c, _, hc, _, rfl, d, cs', hd, e⟩ := h
    cases e
    obtain ⟨as, rfl, first, -⟩ := octet.mp ha
    obtain ⟨bs, rfl, second, -⟩ := octet.mp hb
    obtain ⟨cs, rfl, third, -⟩ := octet.mp hc
    obtain ⟨ds, rfl, last, stop⟩ := octet.mp hd
    have exact : ∀ {n : Nat} {digits : List Char}, octetShape.Spells digits n →
        octetShape.Spells digits (UInt8.ofNat n).toNat := fun {n _} spells => by
      rwa [UInt8.toNat_ofNat_of_lt' (show n < UInt8.size from spells.small)]
    refine ⟨as ++ '.' :: (bs ++ '.' :: (cs ++ '.' :: ds)), ?_,
      .octets (exact first) (exact second) (exact third) (exact last), stop⟩
    simp only [List.append_assoc, List.cons_append]
  · rintro ⟨_, rfl, ⟨first, second, third, last⟩, stop⟩
    have point : ∀ {rest : List Char}, ∀ c ∈ ('.' :: rest).head?, isDigit 10 c = false := by
      rintro _ c h
      cases h
      decide
    simp only [List.append_assoc, List.cons_append]
    simp only [v4?, Option.bind_eq_bind, octet.mpr ⟨_, rfl, first, point⟩,
      octet.mpr ⟨_, rfl, second, point⟩, octet.mpr ⟨_, rfl, third, point⟩,
      octet.mpr ⟨_, rfl, last, stop⟩, Option.bind_some, after?_cons, UInt8.ofNat_toNat, pure]

/-- The digits of a group that are followed by no point do not begin a version 4 address. -/
theorem v4?_group {digits rest : List Char} {n : Nat} (spells : groupShape.Spells digits n)
    (stop : ∀ c ∈ rest.head?, isDigit 16 c = false ∧ c ≠ '.') : v4? (digits ++ rest) = none := by
  refine Option.eq_none_iff_forall_ne_some.mpr fun ⟨v, rest'⟩ h => ?_
  obtain ⟨text, split, ⟨first, -, -, -⟩, -⟩ := v4?_eq_some_iff.mp h
  have hex := spells.isDigit (by decide)
  have dec := first.isDigit (by decide)
  rw [List.append_assoc, List.cons_append] at split
  -- the point would be a digit of the group, or stand right after it, or come after more digits
  rcases List.append_eq_append_iff.mp split with ⟨as, e, e'⟩ | ⟨bs, rfl, e'⟩
  · cases as with
    | nil =>
      rw [List.nil_append] at e'
      exact (stop '.' (by rw [e']; rfl)).2 rfl
    | cons x as =>
      have digit : isDigit 10 x = true := dec x (by rw [e]; simp)
      have other := (stop x (by rw [e']; rfl)).1
      rw [isDigit_sixteen other] at digit
      cases digit
  · cases bs with
    | nil =>
      rw [List.nil_append] at e'
      exact (stop '.' (by rw [← e']; rfl)).2 rfl
    | cons x bs =>
      have point := (List.cons.inj e').1
      have digit : isDigit 16 x = true := hex x (by simp)
      rw [← point] at digit
      cases digit

/-- Where there is no digit there is no version 4 address. -/
theorem v4?_none {cs : List Char} (none_digit : ∀ c ∈ cs.head?, isDigit 16 c = false) :
    v4? cs = none := by
  have nothing : number? octetShape cs = none :=
    number?_none (by decide) fun c h => isDigit_sixteen (none_digit c h)
  simp [v4?, nothing]

/-! ## 3. Reading groups -/

/-- A text with the colon before it that the first group does not have. -/
def colon (first : Bool) (cs : List Char) : List Char := if first then cs else ':' :: cs

theorem separated?_eq_some_iff {first : Bool} {cs rest : List Char} :
    separated? first cs = some rest ↔ cs = colon first rest := by
  cases first with
  | true => simp [separated?, colon]
  | false => exact after?_eq_some_iff

@[simp] theorem separated?_colon (first : Bool) (cs : List Char) :
    separated? first (colon first cs) = some cs := separated?_eq_some_iff.mpr rfl

theorem colon_append (first : Bool) (cs rest : List Char) :
    colon first (cs ++ rest) = colon first cs ++ rest := by cases first <;> rfl

/-- What may follow groups: nothing that would belong to them. -/
def Stops (rest : List Char) : Prop :=
  (∀ c ∈ rest.head?, isDigit 16 c = false ∧ c ≠ '.') ∧
    ∀ cs, rest = ':' :: cs → ∀ c ∈ cs.head?, isDigit 16 c = false

theorem Stops.of_head {c : Char} {rest : List Char} (hex : isDigit 16 c = false) (point : c ≠ '.')
    (colon : c ≠ ':') : Stops (c :: rest) :=
  ⟨fun _ h => by cases h; exact ⟨hex, point⟩, fun _ h => absurd (List.cons.inj h).1 colon⟩

theorem stops_gap (rest : List Char) : Stops (':' :: ':' :: rest) := by
  refine ⟨fun c h => ?_, fun cs h c k => ?_⟩
  · cases h
    decide
  · cases h
    cases k
    decide

/-- **What the reader takes for groups are groups.** -/
theorem groups_sound (room : Nat) (first : Bool) (cs : List Char) :
    (groups room first cs).groups.length ≤ room ∧
      ((groups room first cs = ⟨[], false, cs⟩) ∨
        ∃ text, cs = colon first text ++ (groups room first cs).rest ∧
          GroupsSpelled (groups room first cs).embedded text (groups room first cs).groups) := by
  induction room generalizing first cs with
  | zero => exact ⟨Nat.le_refl 0, .inl rfl⟩
  | succ room ih =>
    unfold groups
    split
    · rename_i v rest hv
      split at hv
      · rename_i two
        obtain ⟨cs', sep, hv⟩ := Option.bind_eq_some_iff.mp hv
        obtain ⟨text, rfl, spelled, -⟩ := v4?_eq_some_iff.mp hv
        refine ⟨Nat.succ_le_succ two, .inr ⟨text, ?_, .embedded spelled⟩⟩
        rw [separated?_eq_some_iff.mp sep, colon_append]
      · cases hv
    · split
      · rename_i g rest hg
        obtain ⟨cs', sep, hg⟩ := Option.bind_eq_some_iff.mp hg
        obtain ⟨digits, rfl, spells, -⟩ := (number?_eq_some_iff (by decide)).mp hg
        obtain ⟨length, more⟩ := ih false rest
        have exact : groupShape.Spells digits (UInt16.ofNat g).toNat := by
          rwa [UInt16.toNat_ofNat_of_lt' (show g < UInt16.size from spells.small)]
        refine ⟨Nat.succ_le_succ length, .inr ?_⟩
        rw [separated?_eq_some_iff.mp sep]
        rcases more with none_left | ⟨text, split, spelled⟩
        · rw [none_left]
          exact ⟨digits, colon_append first digits rest, .last exact⟩
        · refine ⟨digits ++ ':' :: text, ?_, .before exact spelled⟩
          dsimp only
          rw [← colon_append, List.append_assoc, List.cons_append]
          exact congrArg (fun r => colon first (digits ++ r)) split
      · exact ⟨Nat.zero_le _, .inl rfl⟩

theorem groups_none {room : Nat} {first : Bool} {cs : List Char}
    (none_group : ∀ rest, cs = colon first rest → ∀ c ∈ rest.head?, isDigit 16 c = false) :
    groups room first cs = ⟨[], false, cs⟩ := by
  have nothing : (separated? first cs).bind v4? = none ∧
      (separated? first cs).bind (number? groupShape) = none := by
    cases hs : separated? first cs with
    | none => exact ⟨rfl, rfl⟩
    | some rest =>
      have head := none_group rest (separated?_eq_some_iff.mp hs)
      exact ⟨v4?_none head, number?_none (by decide) head⟩
  cases room with
  | zero => rfl
  | succ room =>
    unfold groups
    simp [nothing.1, nothing.2]

/-- **Groups are read as they are spelled**, if there is room for them. -/
theorem groups_complete {e : Bool} {text : List Char} {gs : List UInt16}
    (h : GroupsSpelled e text gs) {room : Nat} (fits : gs.length ≤ room) (first : Bool)
    {rest : List Char} (stop : Stops rest) :
    groups room first (colon first text ++ rest) = ⟨gs, e, rest⟩ := by
  obtain ⟨room, rfl⟩ : ∃ r, room = r + 1 := by
    cases h <;>
      exact Nat.exists_eq_add_of_le' (Nat.le_trans (Nat.succ_le_succ (Nat.zero_le _)) fits)
  rw [← colon_append]
  induction h generalizing room first with
  | @last digits g spells =>
    unfold groups
    have none_embedded := v4?_group spells stop.1
    have read : number? groupShape (digits ++ rest) = some (g.toNat, rest) :=
      (number?_eq_some_iff (by decide)).mpr ⟨digits, rfl, spells, fun c h => (stop.1 c h).1⟩
    have no_more : groups room false rest = ⟨[], false, rest⟩ :=
      groups_none fun cs e => stop.2 cs e
    simp [none_embedded, read, no_more]
  | @embedded text v spelled =>
    unfold groups
    have two : 0 < room := Nat.lt_of_succ_le (Nat.le_of_succ_le_succ fits)
    have read : v4? (text ++ rest) = some (v, rest) :=
      v4?_eq_some_iff.mpr ⟨text, rfl, spelled, fun c h => isDigit_sixteen (stop.1 c h).1⟩
    simp [two, read]
  | @before e digits text g gs spells spelled ih =>
    unfold groups
    have colon_stops : ∀ c ∈ (':' :: (text ++ rest)).head?, isDigit 16 c = false ∧ c ≠ '.' := by
      intro c h
      cases h
      decide
    have none_embedded := v4?_group spells colon_stops
    have read : number? groupShape (digits ++ ':' :: (text ++ rest)) =
        some (g.toNat, ':' :: (text ++ rest)) := (number?_eq_some_iff (by decide)).mpr
      ⟨digits, rfl, spells, fun c h => (colon_stops c h).1⟩
    have fits' : gs.length ≤ room := Nat.le_of_succ_le_succ fits
    obtain ⟨room, rfl⟩ : ∃ r, room = r + 1 := by
      cases spelled <;>
        exact Nat.exists_eq_add_of_le' (Nat.le_trans (Nat.succ_le_succ (Nat.zero_le _)) fits')
    have more := ih false room fits'
    change groups (room + 1) false (':' :: (text ++ rest)) = _ at more
    simp [none_embedded, read, more]

/-! ## 4. Reading version 6 addresses -/

/-- What follows a version 6 address: its scope, or the closing bracket. -/
def Closes (rest : List Char) : Prop := ∃ cs, rest = ']' :: cs ∨ rest = '%' :: cs

theorem Closes.stops {rest : List Char} (h : Closes rest) : Stops rest := by
  obtain ⟨cs, rfl | rfl⟩ := h <;> exact .of_head (by decide) (by decide) (by decide)

/-- A side of a gap is read as it is spelled. -/
theorem side_complete {e : Bool} {text : List Char} {gs : List UInt16} (h : SideSpelled e text gs)
    {room : Nat} (fits : gs.length ≤ room) {rest : List Char} (stop : Stops rest) :
    groups room true (text ++ rest) = ⟨gs, e, rest⟩ := by
  cases h with
  | none =>
    refine groups_none fun cs same c head => ?_
    change rest = cs at same
    rw [← same] at head
    exact (stop.1 c head).1
  | some spelled => exact groups_complete spelled fits true stop

theorem side_sound {room : Nat} {cs : List Char} : ∃ text,
    cs = text ++ (groups room true cs).rest ∧
      SideSpelled (groups room true cs).embedded text (groups room true cs).groups := by
  rcases (groups_sound room true cs).2 with none_read | ⟨text, split, spelled⟩
  · rw [none_read]
    exact ⟨[], rfl, .none⟩
  · exact ⟨text, split, .some spelled⟩

/-- **What the reader takes for a version 6 address is one.** -/
theorem v6?_sound {cs rest : List Char} {v : V6} (h : v6? cs = some (v, rest)) :
    ∃ text, cs = text ++ rest ∧ v.Spelled text := by
  unfold v6? at h
  dsimp only at h
  split at h
  · rename_i eight
    obtain ⟨w, hw, e⟩ := Option.map_eq_some_iff.mp h
    cases e
    rcases (groups_sound 8 true cs).2 with none_read | ⟨text, split, spelled⟩
    · rw [none_read] at eight
      cases eight
    · rw [← V6.ofGroups?_eq_some.mp hw] at spelled
      exact ⟨text, split, .whole spelled⟩
  · rename_i fewer
    split at h
    · cases h
    · rename_i plain
      simp only [Option.bind_eq_bind, Option.bind_eq_some_iff, after?_eq_some_iff] at h
      obtain ⟨_, first, tail, rfl, w, hw, e⟩ := h
      cases e
      have groups := V6.ofGroups?_eq_some.mp hw
      have room := (groups_sound 8 true cs).1
      have room' := (groups_sound (7 - (Net.groups 8 true cs).groups.length) true tail).1
      obtain ⟨head, split, before⟩ := @side_sound 8 cs
      obtain ⟨text, split', after⟩ :=
        @side_sound (7 - (Net.groups 8 true cs).groups.length) tail
      rw [Bool.not_eq_true] at plain
      rw [plain] at before
      refine ⟨head ++ ':' :: ':' :: text, ?_, .gap before after ?_ groups⟩
      · rw [first] at split
        rw [List.append_assoc, List.cons_append, List.cons_append, ← split']
        exact split
      · omega

/-- **A version 6 address is read as it is spelled.** -/
theorem v6?_complete {text rest : List Char} {v : V6} (h : v.Spelled text) (closes : Closes rest) :
    v6? (text ++ rest) = some (v, rest) := by
  have made : V6.ofGroups? v.groups = some v := V6.ofGroups?_eq_some.mpr rfl
  unfold v6?
  dsimp only
  cases h with
  | whole spelled =>
    have read := groups_complete spelled (Nat.le_of_eq v.eight) true closes.stops
    change groups 8 true (text ++ rest) = _ at read
    rw [read]
    dsimp only
    rw [if_pos v.eight, made]
    rfl
  | @gap e head tail gs hs v zeros before after some_zero groups =>
    have eight := v.eight
    rw [groups, List.length_append, List.length_append, List.length_replicate] at eight
    have read := side_complete before (show gs.length ≤ 8 by omega) (stops_gap (tail ++ rest))
    have read' := side_complete after (show hs.length ≤ 7 - gs.length by omega) closes.stops
    rw [List.append_assoc, List.cons_append, List.cons_append, read]
    dsimp only
    rw [if_neg (by omega), if_neg (by decide)]
    have left : 8 - gs.length - hs.length = zeros := by omega
    rw [groups, List.append_assoc] at made
    simp [read', left, made]

/-! ## 5. Reading socket addresses -/

theorem port?_eq_some_iff {cs rest : List Char} {port : UInt16} :
    port? cs = some (port, rest) ↔ ∃ digits, cs = ':' :: (digits ++ rest) ∧
      portShape.Spells digits port.toNat ∧ ∀ c ∈ rest.head?, isDigit 10 c = false := by
  have number : ∀ {cs rest : List Char} {n : Nat}, number? portShape cs = some (n, rest) ↔
      ∃ digits, cs = digits ++ rest ∧ portShape.Spells digits n ∧
        ∀ c ∈ rest.head?, isDigit 10 c = false := number?_eq_some_iff (by decide)
  unfold port?
  simp only [Option.bind_eq_bind, Option.bind_eq_some_iff, Prod.exists, after?_eq_some_iff]
  constructor
  · rintro ⟨_, rfl, n, _, hn, e⟩
    cases e
    obtain ⟨digits, rfl, spells, stop⟩ := number.mp hn
    refine ⟨digits, rfl, ?_, stop⟩
    rwa [UInt16.toNat_ofNat_of_lt' (show n < UInt16.size from spells.small)]
  · rintro ⟨digits, rfl, spells, stop⟩
    exact ⟨_, rfl, _, _, number.mpr ⟨digits, rfl, spells, stop⟩, by simp [pure]⟩

/-- The scope is what is spelled after the percent sign, and zero without one. -/
theorem scope_sound (cs : List Char) :
    ∃ zone, cs = zone ++ (scope cs).2 ∧ ScopeSpelled zone (scope cs).1 := by
  unfold scope
  split
  · rename_i n rest h
    obtain ⟨cs', percent, hn⟩ := Option.bind_eq_some_iff.mp h
    obtain ⟨digits, rfl, spells, -⟩ := (number?_eq_some_iff (by decide)).mp hn
    refine ⟨'%' :: digits, after?_eq_some_iff.mp percent, .some ?_⟩
    rwa [UInt32.toNat_ofNat_of_lt' (show n < UInt32.size from spells.small)]
  · exact ⟨[], rfl, .none⟩

theorem scope_complete {zone : List Char} {z : UInt32} (h : ScopeSpelled zone z)
    (rest : List Char) : scope (zone ++ ']' :: rest) = (z, ']' :: rest) := by
  cases h with
  | none => rfl
  | @some digits z spells =>
    have read : number? scopeShape (digits ++ ']' :: rest) = some (z.toNat, ']' :: rest) := by
      refine (number?_eq_some_iff (by decide)).mpr ⟨digits, rfl, spells, fun c h => ?_⟩
      cases h
      decide
    simp [scope, read]

theorem ScopeSpelled.closes {zone : List Char} {z : UInt32} (h : ScopeSpelled zone z)
    (rest : List Char) : Closes (zone ++ ']' :: rest) := by
  cases h with
  | none => exact ⟨rest, .inl rfl⟩
  | some spells => exact ⟨_, .inr rfl⟩

theorem endpoint4?_sound {cs : List Char} {e : Endpoint} (h : endpoint4? cs = some (e, [])) :
    e.Spelled cs := by
  unfold endpoint4? at h
  simp only [Option.bind_eq_bind, Option.bind_eq_some_iff, Prod.exists] at h
  obtain ⟨address, _, ha, port, _, hp, same⟩ := h
  cases same
  obtain ⟨text, rfl, spelled, -⟩ := v4?_eq_some_iff.mp ha
  obtain ⟨digits, rfl, spells, -⟩ := port?_eq_some_iff.mp hp
  rw [List.append_nil]
  exact .v4 spelled spells

theorem endpoint6?_sound {cs : List Char} {e : Endpoint} (h : endpoint6? cs = some (e, [])) :
    e.Spelled cs := by
  unfold endpoint6? at h
  simp only [Option.bind_eq_bind, Option.bind_eq_some_iff, Prod.exists, after?_eq_some_iff] at h
  obtain ⟨_, rfl, address, cs', ha, _, closing, port, _, hp, same⟩ := h
  cases same
  obtain ⟨text, rfl, spelled⟩ := v6?_sound ha
  obtain ⟨digits, rfl, spells, -⟩ := port?_eq_some_iff.mp hp
  obtain ⟨zone, split, zoned⟩ := scope_sound cs'
  rw [closing, List.append_nil] at split
  generalize (scope cs').1 = z at zoned ⊢
  rw [split]
  exact .v6 spelled zoned spells

/-- **The reader gives the address that a text spells**, and nothing if it spells none. -/
theorem endpoint?_eq_some_iff {cs : List Char} {e : Endpoint} :
    endpoint? cs = some e ↔ e.Spelled cs := by
  have digits_end : ∀ {digits : List Char} {port : UInt16}, portShape.Spells digits port.toNat →
      port? (':' :: digits) = some (port, []) := fun {digits _} spells =>
    port?_eq_some_iff.mpr ⟨digits, by rw [List.append_nil], spells, nofun⟩
  constructor
  · intro h
    rcases Option.or_eq_some_iff.mp (endpoint?_rest h) with four | ⟨-, six⟩
    · exact endpoint4?_sound four
    · exact endpoint6?_sound six
  · intro h
    cases h with
    | @v4 text digits address port spelled spells =>
      have read : v4? (text ++ ':' :: digits) = some (address, ':' :: digits) := by
        refine v4?_eq_some_iff.mpr ⟨text, rfl, spelled, fun c h => ?_⟩
        cases h
        decide
      simp [endpoint?, endpoint4?, read, digits_end spells]
    | @v6 text zone digits address z port spelled zoned spells =>
      have bracket : endpoint4? ('[' :: (text ++ (zone ++ ']' :: ':' :: digits))) = none := by
        have none_here := @v4?_none ('[' :: (text ++ (zone ++ ']' :: ':' :: digits)))
          fun c h => by cases h; decide
        simp [endpoint4?, none_here]
      have read := v6?_complete spelled (zoned.closes (':' :: digits))
      have read' := scope_complete zoned (':' :: digits)
      simp [endpoint?, bracket, endpoint6?, read, read', digits_end spells]

/-! ## 6. Writing -/

/-- A run among groups has nothing but zeros. -/
def Run.Zeros (gs : List UInt16) (r : Run) : Prop :=
  ∃ before after, gs = before ++ List.replicate r.length 0 ++ after ∧ before.length = r.start

/-- **What is left out are zeros**: of the groups that were seen, the run that ends there and the
longest run have nothing else. -/
theorem longestZeros_run (rest seen : List UInt16) (current longest : Run)
    (ending : 0 < current.length →
      ∃ before, seen = before ++ List.replicate current.length 0 ∧ before.length = current.start)
    (zeros : longest.Zeros seen) :
    (longestZeros rest seen.length current longest).Zeros (seen ++ rest) := by
  induction rest generalizing seen current longest with
  | nil => rwa [List.append_nil]
  | cons g rest ih =>
    have step : seen ++ g :: rest = (seen ++ [g]) ++ rest := by simp
    have length : seen.length + 1 = (seen ++ [g]).length := by simp
    have still : longest.Zeros (seen ++ [g]) := by
      obtain ⟨before, after, e, start⟩ := zeros
      exact ⟨before, after ++ [g], by rw [e]; simp, start⟩
    unfold longestZeros
    rw [step, length]
    split
    · rename_i zero
      subst zero
      dsimp only
      generalize next : (if current.length = 0 then (⟨seen.length, 1⟩ : Run)
        else ⟨current.start, current.length + 1⟩) = run
      -- the run that ends here is one longer, or begins here
      have longer : ∃ before, seen ++ [0] = before ++ List.replicate run.length 0 ∧
          before.length = run.start := by
        split at next
        · subst next
          exact ⟨seen, rfl, rfl⟩
        · rename_i goes_on
          subst next
          obtain ⟨before, e, start⟩ := ending (Nat.pos_of_ne_zero goes_on)
          refine ⟨before, ?_, start⟩
          rw [e, List.replicate_succ', List.append_assoc]
      refine ih _ _ _ (fun _ => longer) ?_
      split
      · obtain ⟨before, e, start⟩ := longer
        exact ⟨before, [], by rw [e, List.append_nil], start⟩
      · exact still
    · exact ih _ _ _ (fun pos => absurd pos (Nat.lt_irrefl 0)) still

theorem V6.zeros_run (v : V6) : v.zeros.Zeros v.groups :=
  longestZeros_run v.groups [] ⟨0, 0⟩ ⟨0, 0⟩ (fun pos => absurd pos (Nat.lt_irrefl 0))
    ⟨[], [], rfl, rfl⟩

theorem groupsChars_spelled {gs : List UInt16} (nonempty : gs ≠ []) :
    GroupsSpelled false (groupsChars gs) gs := by
  induction gs with
  | nil => exact absurd rfl nonempty
  | cons g gs ih =>
    cases gs with
    | nil => exact .last (group_spelled g)
    | cons h rest => exact .before (group_spelled g) (ih (List.cons_ne_nil _ _))

theorem groupsChars_side (gs : List UInt16) : SideSpelled false (groupsChars gs) gs := by
  cases gs with
  | nil => exact .none
  | cons g gs => exact .some (groupsChars_spelled (List.cons_ne_nil _ _))

theorem V4.spelled_chars (v : V4) : v.Spelled v.chars := by
  unfold V4.chars
  simp only [List.append_assoc, List.cons_append]
  exact .octets (octet_spelled v.a) (octet_spelled v.b) (octet_spelled v.c) (octet_spelled v.d)

/-- Two groups are the halves of the version 4 address that they make up. -/
theorem V4.halves (high low : UInt16) :
    (V4.ofGroups high low).high = high ∧ (V4.ofGroups high low).low = low := by
  have whole : ∀ g : UInt16, UInt16.ofNat (256 * (UInt8.ofNat (g.toNat / 256)).toNat +
      (UInt8.ofNat (g.toNat % 256)).toNat) = g := by
    intro g
    have lt := g.toNat_lt
    rw [UInt8.toNat_ofNat_of_lt' (show g.toNat / 256 < UInt8.size from by
        change _ < 256; omega),
      UInt8.toNat_ofNat_of_lt' (show g.toNat % 256 < UInt8.size from Nat.mod_lt _ (by decide)),
      Nat.div_add_mod, UInt16.ofNat_toNat]
  exact ⟨whole high, whole low⟩

/-- A mapped address has ten zeros and two ones before the version 4 address. -/
theorem V6.mapped?_eq_some {v : V6} {inner : V4} (h : v.mapped? = some inner) :
    v.groups = [] ++ List.replicate 5 0 ++ [0xFFFF, inner.high, inner.low] := by
  unfold V6.mapped? at h
  split at h
  · rename_i high low groups
    cases h
    rw [groups, (V4.halves high low).1, (V4.halves high low).2]
    rfl
  · cases h

/-- **A version 6 address is written as one of its spellings.** -/
theorem V6.spelled_chars (v : V6) : v.Spelled v.chars := by
  unfold V6.chars
  split
  · rename_i inner mapped
    have ones : groupShape.Spells ['f', 'f', 'f', 'f'] (0xFFFF : UInt16).toNat :=
      group_spelled 0xFFFF
    exact .gap (e := true) .none (.some (.before ones (.embedded inner.spelled_chars))) (by decide)
      (mapped?_eq_some mapped)
  · split
    · rename_i several
      obtain ⟨before, after, groups, start⟩ := v.zeros_run
      have parts : v.groups.take v.zeros.start = before ∧
          v.groups.drop (v.zeros.start + v.zeros.length) = after := by
        rw [groups, ← start]
        constructor
        · simp
        · rw [List.drop_append_of_le_length (by simp)]
          simp
      rw [parts.1, parts.2]
      exact .gap (groupsChars_side before) (groupsChars_side after) (Nat.zero_lt_of_lt several)
        groups
    · refine .whole (groupsChars_spelled fun none_left => ?_)
      have eight := v.eight
      rw [none_left] at eight
      cases eight

/-- **A socket address is written as one of its spellings.** -/
theorem Endpoint.spelled_chars (e : Endpoint) : e.Spelled e.chars := by
  cases e with
  | v4 address port => exact .v4 address.spelled_chars (port_spelled port)
  | v6 address scope port =>
    have zoned : ScopeSpelled (if scope = 0 then [] else '%' :: decimal scope.toNat) scope := by
      split
      · rename_i zero
        rw [zero]
        exact .none
      · exact .some (scope_spelled scope)
    unfold Endpoint.chars
    dsimp only
    rw [List.append_assoc]
    exact .v6 address.spelled_chars zoned (port_spelled port)

end ServiceHealth.Net
