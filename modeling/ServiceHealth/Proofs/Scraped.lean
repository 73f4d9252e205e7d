import ServiceHealth.Metrics.Reader
import ServiceHealth.Proofs.Exposed
import ServiceHealth.Proofs.Fields
import ServiceHealth.Proofs.Numerals
import ServiceHealth.Proofs.Rounded

/-!
# An exposition can be read back

The labels of an exposition are arbitrary texts in a format of lines, braces and quotes. Escapes
keep a label from ending its quotes or its line, so a reader that goes line by line gets every
family and every sample back with its label as it was, and from these the numbers.

* `lines?_lines`: lines without a line break are read back.
* `scanLabel_labelChars`, `sample?_line`: a label, and the sample that it belongs to.
* `parse?_render`: **families are read back**, if their names are words.
* `count_render`: how many lines an exposition has.
* `Account`, `account?_families`: the numbers that families tell.
* `exposition_read_back`: **an exposition tells the metrics**, whatever the labels are.
-/

namespace ServiceHealth

open Decimal.Binary64 (exactLimit)

namespace Exposition

/-! ## 1. Lines -/

/-- A line ends at its line break. -/
theorem lines?_line {l : List Char} (unbroken : '\n' ∉ l) (rest : List Char) :
    lines? (l ++ '\n' :: rest) = (lines? rest).map (l :: ·) := by
  induction l with
  | nil =>
    rw [List.nil_append, lines?]
    rcases lines? rest with _ | _ | ⟨l, ls⟩ <;> rfl
  | cons c l ih =>
    obtain ⟨here, later⟩ := not_or.mp (mt List.mem_cons.mpr unbroken)
    rw [List.cons_append, lines?, ih later]
    cases lines? rest with
    | none => rfl
    | some ls => exact if_neg (Ne.symm here)

/-- **Lines without a line break are read back.** -/
theorem lines?_lines {ls : List (List Char)} (unbroken : ∀ l ∈ ls, '\n' ∉ l) :
    lines? (ls.flatMap (· ++ ['\n'])) = some ls := by
  induction ls with
  | nil => rfl
  | cons l ls ih =>
    rw [List.flatMap_cons, List.append_assoc, List.singleton_append,
      lines?_line (unbroken l List.mem_cons_self),
      ih fun l' mem => unbroken l' (List.mem_cons_of_mem _ mem)]
    rfl

/-! ## 2. Samples -/

/-- **A label is read up to its closing quote**, whatever is in it. -/
theorem scanLabel_labelChars (s : String) (rest : List Char) :
    scanLabel (labelChars s ++ '"' :: rest) = some (s.toList, rest) :=
  scanLabel_undoes.text (fun _ _ => .inl ⟨rfl, trivial⟩) s.toList rest

/-- No label has a line break in its text. -/
theorem unbroken_label (s : String) : '\n' ∉ labelChars s := fun mem => by
  obtain ⟨c, -, h⟩ := List.mem_flatMap.mp mem
  exact mem_escaped_ne h rfl

/-- What follows a text that is there. -/
theorem dropStart?_append (start rest : List Char) :
    dropStart? start (start ++ rest) = some rest := by
  unfold dropStart?
  rw [if_pos (List.isPrefixOf_iff_prefix.mpr (List.prefix_append start rest)), List.drop_left]

/-- A sample of which the key is a word before an equals sign and the value stays in its line. The
label is arbitrary. -/
structure Sample.Plain (x : Sample) : Prop where
  key : ∀ key label, x.label = some (key, label) → ∀ c ∈ key.toList, c ≠ '=' ∧ c ≠ '\n'
  value : '\n' ∉ x.value.toList

/-- **A label in braces is read back with its key.** -/
theorem label?_bracedLabel {x : Sample} (plain : x.Plain) (rest : List Char) :
    label? (bracedLabel x.label ++ ' ' :: rest) = some (x.label, ' ' :: rest) := by
  cases h : x.label with
  | none => rfl
  | some p =>
    obtain ⟨key, label⟩ := p
    have word : ∀ c ∈ key.toList, (c != '=') = true := fun c mem =>
      bne_iff_ne.mpr (plain.key key label h c mem).1
    have read := scanLabel_labelChars label ('\x7d' :: ' ' :: rest)
    unfold bracedLabel label?
    simp only [List.cons_append, List.append_assoc, List.nil_append]
    rw [List.dropWhile_append_of_pos word, List.takeWhile_append_of_pos word]
    simp [read]

/-- **A sample is read back from its line.** -/
theorem sample?_line {x : Sample} (plain : x.Plain) (name : String) :
    sample? name.toList (x.line name) = some x := by
  unfold sample? Sample.line
  rw [List.append_assoc, dropStart?_append, Option.bind_some, label?_bracedLabel plain]
  simp

theorem Sample.Plain.unbroken {x : Sample} (plain : x.Plain) {name : String}
    (word : '\n' ∉ name.toList) : '\n' ∉ x.line name := by
  have label : '\n' ∉ bracedLabel x.label := by
    cases h : x.label with
    | none => exact List.not_mem_nil
    | some p =>
      have key : '\n' ∉ p.1.toList := fun mem => (plain.key p.1 p.2 h '\n' mem).2 rfl
      simp [bracedLabel, key, unbroken_label]
  unfold Sample.line
  simp [word, label, plain.value]

/-! ## 3. Families -/

/-- A name that is a word and begins no comment, with a text of help that stays in its line. -/
structure Header (name help : String) : Prop where
  word : ∀ c ∈ name.toList, c ≠ ' ' ∧ c ≠ '\n'
  begins : ∃ c, name.toList.head? = some c ∧ c ≠ '#'
  help : '\n' ∉ help.toList

/-- A family in which nothing but the labels is arbitrary. -/
structure Family.Plain (f : Family) : Prop where
  header : Header f.name f.help
  samples : ∀ x ∈ f.samples, x.Plain

/-- The word at the start is read up to the space after it. -/
theorem word?_append {cs : List Char} (word : ∀ c ∈ cs, c ≠ ' ') (rest : List Char) :
    word? (cs ++ ' ' :: rest) = some (cs, rest) := by
  have inside : ∀ c ∈ cs, (c != ' ') = true := fun c mem => bne_iff_ne.mpr (word c mem)
  unfold word?
  rw [List.dropWhile_append_of_pos inside, List.takeWhile_append_of_pos inside]
  simp

theorem ofName?_kind (k : Kind) : Kind.ofName? k.name.toList = some k := by
  cases k <;> decide

section Family

variable {f : Family}

theorem Family.Plain.unbroken (plain : f.Plain) : ∀ l ∈ f.lines, '\n' ∉ l := by
  have name : '\n' ∉ f.name.toList := fun mem => (plain.header.word _ mem).2 rfl
  have kind : '\n' ∉ f.kind.name.toList := by cases f.kind <;> decide
  intro l mem
  unfold Family.lines at mem
  rcases List.mem_cons.mp mem with rfl | mem
  · simp [name, plain.header.help]
  · rcases List.mem_cons.mp mem with rfl | mem
    · simp [name, kind]
    · obtain ⟨x, hx, rfl⟩ := List.mem_map.mp mem
      exact (plain.samples x hx).unbroken name

/-- No sample is taken for a comment. -/
theorem Family.Plain.isComment_line (plain : f.Plain) (x : Sample) :
    isComment (x.line f.name) = false := by
  obtain ⟨c, head, other⟩ := plain.header.begins
  obtain ⟨rest, split⟩ := List.head?_eq_some_iff.mp head
  unfold isComment Sample.line
  rw [split]
  simpa using other

/-- The samples of a family end where the next family begins. -/
theorem Family.Plain.split_samples (plain : f.Plain) (fs : List Family) :
    (f.samples.map (·.line f.name) ++ fs.flatMap Family.lines).takeWhile (!isComment ·) =
        f.samples.map (·.line f.name) ∧
      (f.samples.map (·.line f.name) ++ fs.flatMap Family.lines).dropWhile (!isComment ·) =
        fs.flatMap Family.lines := by
  have own : ∀ l ∈ f.samples.map (·.line f.name), (!isComment l) = true := by
    intro l mem
    obtain ⟨x, -, rfl⟩ := List.mem_map.mp mem
    rw [plain.isComment_line x]
    rfl
  rw [List.takeWhile_append_of_pos own, List.dropWhile_append_of_pos own]
  cases fs with
  | nil => simp
  | cons g fs =>
    have comment : isComment ("# HELP ".toList ++ g.name.toList ++ ' ' :: g.help.toList) = true :=
      rfl
    rw [List.flatMap_cons, Family.lines, List.cons_append, List.takeWhile_cons,
      List.dropWhile_cons, comment]
    simp

theorem Family.Plain.mapM_samples (plain : f.Plain) :
    (f.samples.map (·.line f.name)).mapM (sample? f.name.toList) = some f.samples := by
  have all := plain.samples
  generalize f.samples = xs at all
  induction xs with
  | nil => rfl
  | cons x xs ih =>
    rw [List.map_cons, List.mapM_cons, sample?_line (all x List.mem_cons_self),
      ih fun y mem => all y (List.mem_cons_of_mem _ mem)]
    rfl

/-- **One family is read**, up to the next one. -/
theorem Family.Plain.families?_cons (plain : f.Plain) (fs : List Family) (fuel : Nat) :
    families? (fuel + 1) (f.lines ++ fs.flatMap Family.lines) =
      (families? fuel (fs.flatMap Family.lines)).map (f :: ·) := by
  have word : ∀ c ∈ f.name.toList, c ≠ ' ' := fun c mem => (plain.header.word c mem).1
  obtain ⟨own, others⟩ := plain.split_samples fs
  generalize fs.flatMap Family.lines = more at own others ⊢
  unfold Family.lines
  rw [List.cons_append, List.cons_append, families?, List.append_assoc, List.append_assoc,
    dropStart?_append, dropStart?_append, Option.bind_some, Option.bind_some, word?_append word,
    word?_append word]
  simp only [Option.bind_eq_bind, Option.bind_some, ofName?_kind, if_true, own, others,
    plain.mapM_samples]
  cases families? fuel more with
  | none => rfl
  | some gs => simp

end Family

/-- **The families of the lines are read back**, with fuel for each line. -/
theorem families?_lines {fs : List Family} (plain : ∀ f ∈ fs, f.Plain) {fuel : Nat}
    (enough : (fs.flatMap Family.lines).length ≤ fuel) :
    families? fuel (fs.flatMap Family.lines) = some fs := by
  induction fs generalizing fuel with
  | nil => cases fuel <;> rfl
  | cons f fs ih =>
    have two : f.lines.length = f.samples.length + 2 := by simp [Family.lines]
    rw [List.flatMap_cons, List.length_append] at enough
    obtain ⟨fuel, rfl⟩ : ∃ k, fuel = k + 1 := Nat.exists_eq_add_one.mpr (by omega)
    rw [List.flatMap_cons, (plain f List.mem_cons_self).families?_cons,
      ih (fun g mem => plain g (List.mem_cons_of_mem _ mem)) (by omega)]
    rfl

/-- **Families are read back**, whatever their labels are. -/
theorem parse?_render {fs : List Family} (plain : ∀ f ∈ fs, f.Plain) :
    parse? (render fs) = some fs := by
  have unbroken : ∀ l ∈ fs.flatMap Family.lines, '\n' ∉ l := fun l mem => by
    obtain ⟨f, hf, hl⟩ := List.mem_flatMap.mp mem
    exact (plain f hf).unbroken l hl
  unfold parse? render
  rw [String.toList_ofList, lines?_lines unbroken]
  exact families?_lines plain (Nat.le_refl _)

/-- **How many lines an exposition has**: two for each family and one for each sample. -/
theorem count_render {fs : List Family} (plain : ∀ f ∈ fs, f.Plain) :
    (render fs).toList.count '\n' = (fs.map fun f => f.samples.length + 2).sum := by
  have lines : ∀ ls : List (List Char), (∀ l ∈ ls, '\n' ∉ l) →
      (ls.flatMap (· ++ ['\n'])).count '\n' = ls.length := by
    intro ls unbroken
    induction ls with
    | nil => rfl
    | cons l ls ih =>
      have here := List.count_eq_zero.mpr (unbroken l List.mem_cons_self)
      have rest := ih fun l' mem => unbroken l' (List.mem_cons_of_mem _ mem)
      simp [here, rest]
  unfold render
  rw [String.toList_ofList, lines _ fun l mem => ?_, List.length_flatMap]
  · exact congrArg List.sum (List.map_congr_left fun f _ => by simp [Family.lines])
  · obtain ⟨f, hf, hl⟩ := List.mem_flatMap.mp mem
    exact (plain f hf).unbroken l hl

/-! ## 4. The numbers that families tell -/

/-- What families tell of the metrics of a service: the text of the expiry of the certificate, the
numbers of the last state of health and of both flags, failed checks by name, and stopped components
by outcome. -/
structure Account where
  certificateExpiry : String
  healthy : Nat
  ready : Nat
  shuttingDown : Nat
  failures : List (String × Nat)
  outcomes : List (String × Nat)
  deriving DecidableEq, Repr

/-- The number of a text; beyond the limit it might have been rounded. -/
def number? (s : String) : Option Nat := Text.Numeral.read? exactLimit s

/-- The samples under a name. -/
def samplesOf (fs : List Family) (name : String) : List Sample :=
  (fs.filter (·.name = name)).flatMap (·.samples)

/-- The value of the only sample under a name. -/
def value? (fs : List Family) (name : String) : Option String :=
  match samplesOf fs name with
  | [⟨none, value⟩] => some value
  | _ => none

/-- The label of a sample with the number that it counts. -/
def count? (key : String) (x : Sample) : Option (String × Nat) :=
  match x.label with
  | some (k, label) => if k = key then (number? x.value).map (label, ·) else none
  | none => none

/-- The labels under a name with the numbers that they count. -/
def counts? (fs : List Family) (name key : String) : Option (List (String × Nat)) :=
  (samplesOf fs name).mapM (count? key)

/-- What families tell of the metrics of a service. -/
def account? (fs : List Family) : Option Account := do
  let certificateExpiry ← value? fs "tunnel_certificate_expiry_timestamp"
  let healthy ← (value? fs "tunnel_health_status").bind number?
  let ready ← (value? fs "tunnel_ready").bind number?
  let shuttingDown ← (value? fs "tunnel_shutting_down").bind number?
  let failures ← counts? fs "tunnel_health_check_failures_total" "checker"
  let outcomes ← counts? fs "tunnel_shutdown_outcomes_total" "outcome"
  pure ⟨certificateExpiry, healthy, ready, shuttingDown, failures, outcomes⟩

/-- **A number below the limit is read back.** -/
theorem number?_toString {n : Nat} (exact : n < exactLimit) : number? (toString n) = some n := by
  unfold number? Text.Numeral.read?
  rw [Text.Numeral.read_eq_ok_iff.mpr ⟨Text.Numeral.spells_toString n, exact⟩]
  rfl

theorem number?_digit (on : Bool) : number? (digit on) = some on.toNat := by
  cases on
  · exact number?_toString (n := 0) (by decide)
  · exact number?_toString (n := 1) (by decide)

theorem samplesOf_cons (f : Family) (fs : List Family) (name : String) :
    samplesOf (f :: fs) name = (if f.name = name then f.samples else []) ++ samplesOf fs name := by
  unfold samplesOf
  rw [List.filter_cons]
  by_cases h : f.name = name <;> simp [h]

theorem samplesOf_append (fs gs : List Family) (name : String) :
    samplesOf (fs ++ gs) name = samplesOf fs name ++ samplesOf gs name := by
  unfold samplesOf
  rw [List.filter_append, List.flatMap_append]

/-- The samples of counters, one for each name that was counted. -/
def samplesBy (label : String) (t : Keyed Nat) : List Sample :=
  t.entries.map fun e => ⟨some (label, e.1), toString e.2⟩

theorem samplesOf_counters (own help label : String) {t : Keyed Nat}
    (exact : ∀ name n, t.get? name = some n → n < exactLimit) (name : String) :
    samplesOf (counters own help label t) name =
      if own = name then samplesBy label t else [] := by
  unfold counters samplesBy
  split
  · rename_i empty
    rw [List.isEmpty_iff.mp empty]
    split <;> rfl
  · rw [samplesOf_cons, List.map_congr_left fun e mem => by
      rw [countText, Decimal.Binary64.text_ofNat (exact e.1 e.2 (Keyed.get?_eq_some.mpr mem))]]
    exact List.append_nil _

/-- **Counters are read back.** -/
theorem mapM_count? (key : String) {t : Keyed Nat}
    (exact : ∀ name n, t.get? name = some n → n < exactLimit) :
    (samplesBy key t).mapM (count? key) = some t.entries := by
  have all : ∀ e ∈ t.entries, e.2 < exactLimit := fun e mem =>
    exact e.1 e.2 (Keyed.get?_eq_some.mpr mem)
  unfold samplesBy
  generalize t.entries = es at all
  induction es with
  | nil => rfl
  | cons e es ih =>
    have here : count? key ⟨some (key, e.1), toString e.2⟩ = some e := by
      unfold count?
      dsimp only
      rw [if_pos rfl, number?_toString (all e List.mem_cons_self)]
      rfl
    rw [List.map_cons, List.mapM_cons, here, ih fun e' mem => all e' (List.mem_cons_of_mem _ mem)]
    rfl

end Exposition

namespace Metrics

open Exposition

/-- What metrics have to tell. -/
def account (m : Metrics) : Account :=
  ⟨m.certificateExpiry.text, m.healthy.toNat, m.flags.ready.toNat, m.flags.shuttingDown.toNat,
    m.failures.entries, m.outcomes.entries⟩

/-- All counts are below the limit. -/
def Exact (m : Metrics) : Prop :=
  ∀ name n, m.failures.get? name = some n ∨ m.outcomes.get? name = some n → n < exactLimit

/-- The samples under a name. -/
theorem samplesOf_families {m : Metrics} (exact : m.Exact) (name : String) :
    samplesOf m.families name =
    (if "tunnel_certificate_expiry_timestamp" = name
      then [⟨none, m.certificateExpiry.text⟩] else []) ++
    ((if "tunnel_health_check_failures_total" = name
      then samplesBy "checker" m.failures else []) ++
    ((if "tunnel_health_status" = name then [⟨none, digit m.healthy⟩] else []) ++
    ((if "tunnel_ready" = name then [⟨none, digit m.flags.ready⟩] else []) ++
    ((if "tunnel_shutdown_outcomes_total" = name then samplesBy "outcome" m.outcomes else []) ++
    (if "tunnel_shutting_down" = name then [⟨none, digit m.flags.shuttingDown⟩] else []))))) := by
  unfold families switch
  rw [samplesOf_cons, samplesOf_append, samplesOf_cons, samplesOf_cons, samplesOf_append,
    samplesOf_cons, samplesOf_counters _ _ _ fun name n h => exact name n (.inl h),
    samplesOf_counters _ _ _ fun name n h => exact name n (.inr h)]
  unfold Exposition.gauge digit
  rw [show samplesOf [] name = [] from rfl, List.append_nil]

/-- **The families tell the metrics.** -/
theorem account?_families {m : Metrics} (exact : m.Exact) :
    account? m.families = some m.account := by
  have failures := mapM_count? "checker" fun name n h => exact name n (.inl h)
  have outcomes := mapM_count? "outcome" fun name n h => exact name n (.inr h)
  unfold account? value? counts?
  simp [samplesOf_families exact, number?_digit, failures, outcomes, account]

/-! ## 5. The families of a service -/

theorem unbroken_number (x : Decimal.Binary64) : '\n' ∉ x.text.toList := fun mem => by
  unfold Decimal.Binary64.text at mem
  rw [String.toList_ofList] at mem
  exact absurd (Log.isBare_reading x.reading _ mem) (by decide)

theorem unbroken_digit (on : Bool) : '\n' ∉ (digit on).toList := by
  cases on <;> decide

/-- A header, by a look at its characters. -/
theorem header_of {name help : String} (begins : ∃ c, name.toList.head? = some c ∧ c ≠ '#')
    (word : (name.toList.all fun c => c ≠ ' ' ∧ c ≠ '\n') = true) (line : '\n' ∉ help.toList) :
    Header name help :=
  ⟨fun c mem => of_decide_eq_true (List.all_eq_true.mp word c mem), begins, line⟩

theorem plain_gauge {name help value : String} (header : Header name help)
    (unbroken : '\n' ∉ value.toList) : (gauge name help value).Plain where
  header := header
  samples x mem := by
    rw [List.mem_singleton.mp mem]
    exact ⟨nofun, unbroken⟩

theorem plain_counters (name help label : String) (header : Header name help)
    (word : (label.toList.all fun c => c ≠ '=' ∧ c ≠ '\n') = true) (t : Keyed Nat) :
    ∀ f ∈ counters name help label t, f.Plain := by
  intro f mem
  unfold counters at mem
  split at mem
  · cases mem
  · rw [List.mem_singleton.mp mem]
    refine ⟨header, fun x sample => ?_⟩
    obtain ⟨e, -, rfl⟩ := List.mem_map.mp sample
    refine ⟨fun key value same c mem => ?_, unbroken_number _⟩
    cases same
    exact of_decide_eq_true (List.all_eq_true.mp word c mem)

/-- **In the families of a service nothing but the labels is arbitrary.** -/
theorem families_plain (m : Metrics) : ∀ f ∈ m.families, f.Plain := by
  have failures := plain_counters "tunnel_health_check_failures_total"
    "Total failed health checks by checker" "checker"
    (header_of ⟨'t', rfl, by decide⟩ (by decide) (by decide)) (by decide) m.failures
  have outcomes := plain_counters "tunnel_shutdown_outcomes_total"
    "Component shutdown outcomes by result" "outcome"
    (header_of ⟨'t', rfl, by decide⟩ (by decide) (by decide)) (by decide) m.outcomes
  unfold families
  simp only [List.forall_mem_cons, List.forall_mem_append, List.not_mem_nil, false_implies,
    implies_true, and_true]
  refine ⟨plain_gauge (header_of ⟨'t', rfl, ?_⟩ ?_ ?_) (unbroken_number _), failures,
    plain_gauge (header_of ⟨'t', rfl, ?_⟩ ?_ ?_) (unbroken_digit _),
    plain_gauge (header_of ⟨'t', rfl, ?_⟩ ?_ ?_) (unbroken_digit _), outcomes,
    plain_gauge (header_of ⟨'t', rfl, ?_⟩ ?_ ?_) (unbroken_digit _)⟩ <;> decide

/-- **The names of the families**: counters that have counted nothing are left out. -/
theorem families_names (m : Metrics) : m.families.map (·.name) =
    "tunnel_certificate_expiry_timestamp"
      :: ((if m.failures.entries = [] then [] else ["tunnel_health_check_failures_total"])
        ++ "tunnel_health_status" :: "tunnel_ready"
        :: ((if m.outcomes.entries = [] then [] else ["tunnel_shutdown_outcomes_total"])
          ++ ["tunnel_shutting_down"])) := by
  have name : ∀ (own help label : String) (t : Keyed Nat),
      (counters own help label t).map (·.name) = if t.entries = [] then [] else [own] := by
    intro own help label t
    unfold counters
    by_cases empty : t.entries = [] <;> simp [empty]
  unfold families switch
  simp only [List.map_cons, List.map_append, name]
  rfl

/-- How many lines counters take. -/
def linesOf (t : Keyed Nat) : Nat := if t.entries = [] then 0 else t.entries.length + 2

/-- **How many lines the families take**: three for each gauge, and those of the counters. -/
theorem families_lines (m : Metrics) : (m.families.map fun f => f.samples.length + 2).sum =
    12 + linesOf m.failures + linesOf m.outcomes := by
  have lines : ∀ (own help label : String) (t : Keyed Nat),
      ((counters own help label t).map fun f => f.samples.length + 2).sum = linesOf t := by
    intro own help label t
    unfold counters linesOf
    by_cases empty : t.entries = [] <;> simp [empty]
  unfold families switch Exposition.gauge
  simp only [List.map_cons, List.map_append, List.sum_cons, List.sum_append, lines]
  simp
  omega

/-- **An exposition tells the metrics**, whatever the labels of their counters are. Read line by
line it has the families in the order of their names, counters among them exactly if they have
counted something, with one sample for each label and the labels in order; what these tell is every
number of the metrics and every label as it was. There is no line besides: two for each family and
one for each sample. -/
theorem exposition_read_back (m : Metrics) (exact : m.Exact) :
    ∃ fs, parse? m.exposition = some fs ∧ account? fs = some m.account ∧
      (fs.map (·.name)).Pairwise Text.Before ∧
      ("tunnel_health_check_failures_total" ∈ fs.map (·.name) ↔ m.failures.entries ≠ []) ∧
      ("tunnel_shutdown_outcomes_total" ∈ fs.map (·.name) ↔ m.outcomes.entries ≠ []) ∧
      samplesOf fs "tunnel_health_check_failures_total" = samplesBy "checker" m.failures ∧
      samplesOf fs "tunnel_shutdown_outcomes_total" = samplesBy "outcome" m.outcomes ∧
      (m.failures.keys.Pairwise Text.Before ∧ m.outcomes.keys.Pairwise Text.Before) ∧
      m.exposition.toList.count '\n' = (fs.map fun f => f.samples.length + 2).sum ∧
      (fs.map fun f => f.samples.length + 2).sum =
        12 + linesOf m.failures + linesOf m.outcomes ∧
      ∀ (s : Service) r, s.metrics = m → r.target = .route .metrics true →
        (s.respond r).1 = .ok (Probe.exposed m.exposition) := by
  refine ⟨m.families, parse?_render m.families_plain, account?_families exact, ?_, ?_, ?_, ?_, ?_,
    ⟨m.failures.keys_ascending, m.outcomes.keys_ascending⟩, count_render m.families_plain,
    m.families_lines, fun s r same target => ?_⟩
  · rw [families_names]
    by_cases failures : m.failures.entries = [] <;> by_cases outcomes : m.outcomes.entries = [] <;>
      simp only [failures, outcomes, if_true, if_false] <;> decide
  · rw [families_names]
    by_cases failures : m.failures.entries = [] <;> simp [failures]
  · rw [families_names]
    by_cases outcomes : m.outcomes.entries = [] <;> simp [outcomes]
  · simp [samplesOf_families exact]
  · simp [samplesOf_families exact]
  · rw [Service.respond_metrics s target, same]
    rfl

/-- Metrics with a check without a name that has failed once, and one that has failed twice and of
which the name looks like the end of a sample and a sample of its own. -/
def forged : Metrics :=
  ⟨false, ⟨true, false⟩, .zero,
    ((Keyed.empty.increment "a\"\x7d 1\ntunnel_ready 0\\").increment "").increment
      "a\"\x7d 1\ntunnel_ready 0\\",
    Keyed.empty.increment "ok"⟩

/-- The sample that the name looks like is not there, and the name is read back. -/
theorem forged_label_read_back :
    ∃ fs, parse? forged.exposition = some fs ∧ account? fs = some ⟨"0", 0, 1, 0,
        [("", 1), ("a\"\x7d 1\ntunnel_ready 0\\", 2)], [("ok", 1)]⟩ ∧
      (fs.map (·.name)).Pairwise Text.Before := by
  have failures : ∀ e ∈ forged.failures.entries, e.2 < exactLimit := by decide
  have outcomes : ∀ e ∈ forged.outcomes.entries, e.2 < exactLimit := by decide
  obtain ⟨fs, parsed, told, ascending, -⟩ := exposition_read_back forged fun name n h =>
    h.elim (fun found => failures _ (Keyed.get?_eq_some.mp found))
      fun found => outcomes _ (Keyed.get?_eq_some.mp found)
  exact ⟨fs, parsed, told.trans rfl, ascending⟩

end Metrics

end ServiceHealth
