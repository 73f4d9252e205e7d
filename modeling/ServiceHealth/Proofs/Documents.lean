import Mathlib.Data.List.Induction
import ServiceHealth.Health.Report

/-!
# Reports can be read back

The names of the checks and what was wrong with them are arbitrary texts, and they stand in the text
of a report both as keys and as values. A reader of JSON gets all of them back as they were.

* `scan_body`: a string is read back up to its closing quote, whatever is in it.
* `value?_chars`, `parse?_render`: **a document without a number is read back as it was written**.
* `get?_ofResults`: which result of a name a report has.
* `document_injective`: a result is what its name and its document say.
* `report_read_back`: **a report can be read back from its text**.
-/

namespace ServiceHealth

namespace Json

namespace Text

/-! ## 1. Strings -/

/-- The value of a digit of a code unit. -/
theorem hexValue_hexDigit (n : Nat) : hexValue? (hexDigit n) = some (n % 16) := by
  have all : ∀ d < 16, hexValue? (Nat.digitChar d) = some d := by decide
  exact all (n % 16) (Nat.mod_lt n (by decide))

/-- **Four digits give back the code unit.** -/
theorem unitValue_hex4 {n : Nat} (h : n < 0x10000) :
    unitValue? (hexDigit (n / 4096)) (hexDigit (n / 256)) (hexDigit (n / 16)) (hexDigit n) =
      some n := by
  unfold unitValue?
  simp only [hexValue_hexDigit, Option.some.injEq]
  omega

/-- What starts like a code unit but has other digits is no string. -/
theorem scan_noUnit {a b c d : Char} (h : unitValue? a b c d = none) (rest : List Char) :
    scan ('\\' :: 'u' :: a :: b :: c :: d :: rest) = none := by
  rw [scan.eq_def]
  split
  · rename_i e
    cases e
  · rename_i e
    cases e
  · rename_i e
    cases e
    rw [h]
  · rename_i e
    cases e
    rw [h]
    rfl
  · rename_i none e
    cases e
    exact (none _ _ _ _ _ rfl rfl).elim
  · rename_i e
    cases e
    simp

/-- **The reader undoes an escape by a code unit**, whatever follows it: the unit of a control
character is not the first of a pair. -/
theorem scan_unit {c : Char} (h : c.toNat < 0x20) (rest : List Char) :
    scan ('\\' :: 'u' :: (hex4 c.toNat ++ rest)) = (scan rest).map fun p => (c :: p.1, p.2) := by
  have value := unitValue_hex4 (n := c.toNat) (by omega)
  have single : ofUnit? c.toNat = some c := by
    unfold ofUnit?
    rw [if_pos (.inl (by omega)), Char.ofNat_toNat]
  have unpaired : ∀ n, ofPair? c.toNat n = none := fun n => if_neg (by omega)
  unfold hex4
  simp only [List.cons_append, List.nil_append]
  rw [scan.eq_def]
  split
  · rename_i e
    cases e
  · rename_i e
    cases e
  · rename_i e
    cases e
    rw [value]
    cases other : unitValue? _ _ _ _ with
    | some n => simp only [unpaired, single]
    | none => rw [scan_noUnit other]; rfl
  · rename_i e
    cases e
    rw [value, Option.bind_some, single]
  · rename_i none e
    cases e
    exact (none _ _ _ _ _ rfl rfl).elim
  · rename_i none _ e
    cases e
    simp_all

/-- **A string is read back up to its closing quote.** -/
theorem scan_body (cs rest : List Char) :
    scan (cs.flatMap shown ++ '"' :: rest) = some (cs, rest) := by
  refine scan_undoes.text (fun c _ => ?_) cs rest
  unfold unabridged
  split
  · rename_i control
    exact .inr (scan_unit control)
  · rename_i other
    exact .inl ⟨rfl, Nat.le_of_not_lt other⟩

end Text

/-! ## 2. Documents -/

mutual

/-- Whether there is no number in a document. -/
def isNumberless : Json → Bool
  | .number _ => false
  | .array elements => areNumberless elements
  | .object members => haveNumberless members
  | _ => true

/-- Whether there is no number in some documents. -/
def areNumberless : List Json → Bool
  | [] => true
  | x :: rest => x.isNumberless && areNumberless rest

/-- Whether there is no number in the members of an object. -/
def haveNumberless : List (String × Json) → Bool
  | [] => true
  | (_, x) :: rest => x.isNumberless && haveNumberless rest

end

/-- What does not begin with a blank is left as it is. -/
theorem skipGap_cons {c : Char} (h : isGap c = false) (rest : List Char) :
    skipGap (c :: rest) = c :: rest := by
  unfold skipGap
  rw [List.dropWhile_cons, h]
  rfl

/-- A document begins with a character of its own. -/
theorem chars_head {j : Json} (h : j.isNumberless = true) :
    ∃ c rest, j.chars = c :: rest ∧ isGap c = false ∧ c ≠ ']' := by
  cases j with
  | null => exact ⟨_, _, by rw [chars], by decide, by decide⟩
  | bool b => cases b <;> exact ⟨_, _, by rw [chars], by decide, by decide⟩
  | number d => simp [isNumberless] at h
  | text s => exact ⟨_, _, by rw [chars, Text.encode], by decide, by decide⟩
  | array xs => exact ⟨_, _, by rw [chars], by decide, by decide⟩
  | object ms => exact ⟨_, _, by rw [chars], by decide, by decide⟩

/-- What an array that is not empty has after its bracket. -/
theorem elementChars_head {x : Json} (h : x.isNumberless = true) (xs : List Json)
    (rest : List Char) :
    ∃ c cs, elementChars (x :: xs) ++ rest = c :: cs ∧ isGap c = false ∧ c ≠ ']' := by
  obtain ⟨c, cs, head, notGap, notEnd⟩ := chars_head h
  cases xs with
  | nil => exact ⟨c, _, by rw [elementChars, head]; rfl, notGap, notEnd⟩
  | cons y ys => exact ⟨c, _, by rw [elementChars, head]; rfl, notGap, notEnd⟩

/-- What an object that is not empty has after its brace. -/
theorem memberChars_head (k : String) (x : Json) (ms : List (String × Json)) (rest : List Char) :
    ∃ cs, memberChars ((k, x) :: ms) ++ rest = '"' :: cs := by
  cases ms with
  | nil => exact ⟨_, by rw [memberChars, Text.encode]; rfl⟩
  | cons m ms => exact ⟨_, by rw [memberChars, Text.encode]; rfl⟩

/-- **An opening bracket begins an array.** -/
theorem value?_array (fuel : Nat) {c : Char} (notGap : isGap c = false) (notEnd : c ≠ ']')
    (cs : List Char) : value? (fuel + 1) ('[' :: c :: cs) =
      (elements? fuel (c :: cs)).map fun p => (.array p.1, p.2) := by
  simp only [value?, skipGap_cons (show isGap '[' = false by decide), skipGap_cons notGap]
  split
  · rename_i e
    exact absurd (List.cons.inj e).1 notEnd
  · rfl

/-- **An opening brace begins an object.** -/
theorem value?_object (fuel : Nat) (cs : List Char) : value? (fuel + 1) ('\x7b' :: '"' :: cs) =
    (members? fuel ('"' :: cs)).map fun p => (.object p.1, p.2) := by
  simp [value?, skipGap_cons, isGap]

mutual

/-- A document is read back up to whatever follows it. -/
theorem value?_chars : ∀ (j : Json) (fuel : Nat) (rest : List Char), j.isNumberless = true →
    j.chars.length < fuel → value? fuel (j.chars ++ rest) = some (j, rest)
  | .null, fuel + 1, rest, _, _ => by
    simp [chars, value?, skipGap_cons, isGap]
  | .bool true, fuel + 1, rest, _, _ => by
    simp [chars, value?, skipGap_cons, isGap]
  | .bool false, fuel + 1, rest, _, _ => by
    simp [chars, value?, skipGap_cons, isGap]
  | .text s, fuel + 1, rest, _, _ => by
    simp [chars, value?, skipGap_cons, isGap, Text.encode, Text.scan_body]
  | .array [], fuel + 1, rest, _, _ => by
    simp [chars, elementChars, value?, skipGap_cons, isGap]
  | .array (x :: xs), fuel + 1, rest, h, enough => by
    obtain ⟨c, cs, head, notGap, notEnd⟩ :=
      elementChars_head (x := x) (by simp_all [isNumberless, areNumberless]) xs (']' :: rest)
    have read := elements?_chars x xs fuel rest (by simpa [isNumberless] using h)
      (by simpa [chars] using enough)
    rw [chars]
    simp only [List.cons_append, List.append_assoc, List.nil_append]
    rw [head] at read ⊢
    rw [value?_array fuel notGap notEnd, read]
    rfl
  | .object [], fuel + 1, rest, _, _ => by
    simp [chars, memberChars, value?, skipGap_cons, isGap]
  | .object ((k, x) :: ms), fuel + 1, rest, h, enough => by
    have read := members?_chars k x ms fuel rest (by simpa [isNumberless] using h)
      (by simpa [chars] using enough)
    obtain ⟨cs, head⟩ := memberChars_head k x ms ('\x7d' :: rest)
    rw [chars]
    simp only [List.cons_append, List.append_assoc, List.nil_append]
    rw [head] at read ⊢
    rw [value?_object, read]
    rfl
  | _, 0, _, _, enough => absurd enough (Nat.not_lt_zero _)

/-- Elements are read back up to the closing bracket. -/
theorem elements?_chars : ∀ (x : Json) (xs : List Json) (fuel : Nat) (rest : List Char),
    areNumberless (x :: xs) = true → (elementChars (x :: xs)).length + 1 < fuel →
    elements? fuel (elementChars (x :: xs) ++ ']' :: rest) = some (x :: xs, rest)
  | x, [], fuel + 1, rest, h, enough => by
    rw [elementChars] at enough ⊢
    have read := value?_chars x fuel (']' :: rest) (by simpa [areNumberless] using h) (by omega)
    simp [elements?, read, skipGap_cons, isGap]
  | x, y :: ys, fuel + 1, rest, h, enough => by
    rw [elementChars] at enough ⊢
    simp only [areNumberless, Bool.and_eq_true, List.length_append, List.length_cons] at h enough
    have read := value?_chars x fuel (',' :: (elementChars (y :: ys) ++ ']' :: rest)) h.1 (by omega)
    have more := elements?_chars y ys fuel rest (by simp [areNumberless, h.2]) (by omega)
    simp [elements?, read, more, skipGap_cons, isGap]
  | _, _, 0, _, _, enough => absurd enough (Nat.not_lt_zero _)

/-- Members are read back up to the closing brace. -/
theorem members?_chars : ∀ (k : String) (x : Json) (ms : List (String × Json)) (fuel : Nat)
    (rest : List Char), haveNumberless ((k, x) :: ms) = true →
    (memberChars ((k, x) :: ms)).length + 1 < fuel →
    members? fuel (memberChars ((k, x) :: ms) ++ '\x7d' :: rest) = some ((k, x) :: ms, rest)
  | k, x, [], fuel + 1, rest, h, enough => by
    rw [memberChars] at enough ⊢
    simp only [List.length_append, List.length_cons] at enough
    have read := value?_chars x fuel ('\x7d' :: rest) (by simpa [haveNumberless] using h) (by omega)
    simp [members?, Text.encode, Text.scan_body, read, skipGap_cons, isGap]
  | k, x, (l, y) :: ms, fuel + 1, rest, h, enough => by
    rw [memberChars] at enough ⊢
    simp only [haveNumberless, Bool.and_eq_true, List.length_append, List.length_cons] at h enough
    have read := value?_chars x fuel (',' :: (memberChars ((l, y) :: ms) ++ '\x7d' :: rest)) h.1
      (by omega)
    have more := members?_chars l y ms fuel rest (by simp [haveNumberless, h.2]) (by omega)
    simp [members?, Text.encode, Text.scan_body, read, more, skipGap_cons, isGap]
  | _, _, _, 0, _, _, enough => absurd enough (Nat.not_lt_zero _)

end

/-- **A document without a number is read back as it was written.** -/
theorem parse?_render {j : Json} (h : j.isNumberless = true) : parse? j.render = some j := by
  have read := value?_chars j (j.chars.length + 1) [] h (Nat.lt_succ_self _)
  rw [List.append_nil] at read
  unfold parse? render
  rw [String.toList_ofList, String.length_ofList, read]
  rfl

end Json

/-! ## 3. Results -/

/-- **Of several pairs with one name the last is in the table.** -/
theorem Keyed.get?_ofList_last {α : Type} (xs : List (String × α)) (name : String) :
    (ofList xs).get? name = ((xs.filter (·.1 = name)).getLast?).map (·.2) := by
  induction xs using List.reverseRecOn with
  | nil => rfl
  | append_singleton xs x ih =>
    rw [ofList_concat, get?_insert, ih, List.filter_append]
    by_cases h : name = x.1
    · simp [h]
    · simp [h, Ne.symm h]

namespace Health

/-- **Which result of a name a report has**: the last one. -/
theorem get?_ofResults (time : Time.Stamp) (flags : Flags) (results : List CheckResult)
    (name : String) : (Report.ofResults time flags results).checks.get? name =
      (results.filter (·.name = name)).getLast? := by
  refine (Keyed.get?_ofList_last _ name).trans ?_
  rw [List.filter_map, List.getLast?_map, Option.map_map]
  exact Option.map_id'

theorem statusWord_injective {b c : Bool} (h : statusWord b = statusWord c) : b = c := by
  cases b <;> cases c <;> first | rfl | exact absurd h (by decide)

/-- The document of a result has its status, and what was wrong if anything was. -/
theorem document_cases (x : CheckResult) : x.document =
    match x.error with
    | none => .object [("status", .text (statusWord x.healthy))]
    | some e => .object [("status", .text (statusWord x.healthy)), ("error", .text e)] := by
  unfold CheckResult.document
  cases x.error <;> rfl

/-- **A result is what its name and its document say.** -/
theorem document_injective {x y : CheckResult} (name : x.name = y.name)
    (h : x.document = y.document) : x = y := by
  obtain ⟨n, b, e⟩ := x
  obtain ⟨m, c, f⟩ := y
  obtain rfl : n = m := name
  rw [document_cases, document_cases] at h
  cases e with
  | none =>
    cases f with
    | none =>
      simp only [Json.object.injEq, List.cons.injEq, Prod.mk.injEq, Json.text.injEq] at h
      rw [statusWord_injective h.1.2]
    | some f => simp at h
  | some e =>
    cases f with
    | none => simp at h
    | some f =>
      simp only [Json.object.injEq, List.cons.injEq, Prod.mk.injEq, Json.text.injEq] at h
      rw [statusWord_injective h.1.2, h.2.1.2]

/-! ## 4. Reports -/

namespace Report

/-- The documents of the results, by name. -/
def checkDocuments (r : Report) : List (String × Json) :=
  r.checks.entries.map fun e => (e.1, e.2.document)

theorem checkDocuments_names (r : Report) : r.checkDocuments.map (·.1) = r.checks.keys := by
  unfold checkDocuments Keyed.keys
  rw [List.map_map]
  rfl

theorem mem_checkDocuments {r : Report} {name : String} {j : Json} :
    (name, j) ∈ r.checkDocuments ↔ ∃ x, r.checks.get? name = some x ∧ j = x.document := by
  unfold checkDocuments
  rw [List.mem_map]
  constructor
  · rintro ⟨⟨k, x⟩, mem, e⟩
    cases e
    exact ⟨x, Keyed.get?_eq_some.mpr mem, rfl⟩
  · rintro ⟨x, found, rfl⟩
    exact ⟨(name, x), Keyed.get?_eq_some.mp found, rfl⟩

/-- There is no number in a report. -/
theorem document_numberless (r : Report) : r.document.isNumberless = true := by
  have all : ∀ es : List (String × CheckResult),
      Json.haveNumberless (es.map fun e => (e.1, e.2.document)) = true := by
    intro es
    induction es with
    | nil => rfl
    | cons e es ih =>
      rw [List.map_cons, Json.haveNumberless, ih, document_cases]
      cases e.2.error <;> rfl
  simp [document, Json.isNumberless, Json.haveNumberless, all]

/-- **The text of a report is read as its document.** -/
theorem parse?_text (r : Report) : Json.parse? r.text = some r.document :=
  Json.parse?_render r.document_numberless

/-- The results under each name are their own, in a report of a list of results. -/
def IsNamed (r : Report) : Prop := ∀ name x, r.checks.get? name = some x → x.name = name

theorem isNamed_ofResults (time : Time.Stamp) (flags : Flags) (results : List CheckResult) :
    (ofResults time flags results).IsNamed := by
  intro name x found
  rw [get?_ofResults] at found
  exact of_decide_eq_true (List.mem_filter.mp (List.mem_of_getLast? found)).2

/-- **A report is healthy if each of its results is.** -/
theorem isHealthy_iff_get? (r : Report) :
    r.isHealthy = true ↔ ∀ name x, r.checks.get? name = some x → x.healthy = true := by
  unfold isHealthy Keyed.values
  rw [List.all_map, List.all_eq_true]
  constructor
  · intro all name x found
    exact all (name, x) (Keyed.get?_eq_some.mp found)
  · rintro all ⟨name, x⟩ mem
    exact all name x (Keyed.get?_eq_some.mpr mem)

/-- **Documents tell the results.** -/
theorem checks_eq_of_documents {r r' : Report} (named : r.IsNamed) (named' : r'.IsNamed)
    (same : r.checkDocuments = r'.checkDocuments) : r.checks = r'.checks := by
  have kept : ∀ {r r' : Report}, r.IsNamed → r'.IsNamed → r.checkDocuments = r'.checkDocuments →
      ∀ name x, r.checks.get? name = some x → r'.checks.get? name = some x := by
    intro r r' named named' same name x found
    have mem : (name, x.document) ∈ r'.checkDocuments :=
      same ▸ mem_checkDocuments.mpr ⟨x, found, rfl⟩
    obtain ⟨y, found', document⟩ := mem_checkDocuments.mp mem
    rw [document_injective ((named name x found).trans (named' name y found').symm) document]
    exact found'
  refine Keyed.ext_get? fun name => Option.ext fun x => ?_
  exact ⟨kept named named' same name x, kept named' named same.symm name x⟩

/-- **Reports with one text have the same flags and the same results.** -/
theorem text_injective {r r' : Report} (named : r.IsNamed) (named' : r'.IsNamed)
    (h : r.text = r'.text) :
    r.time.text = r'.time.text ∧ r.flags = r'.flags ∧ r.checks = r'.checks := by
  have read := parse?_text r
  rw [h, parse?_text, Option.some.injEq] at read
  simp only [document, Json.object.injEq, List.cons.injEq, Prod.mk.injEq, Json.text.injEq,
    Json.bool.injEq] at read
  obtain ⟨-, ⟨-, stamp⟩, ⟨-, ready⟩, ⟨-, down⟩, ⟨-, checks⟩, -⟩ := read
  refine ⟨stamp.symm, ?_, checks_eq_of_documents named named' checks.symm⟩
  calc r.flags = ⟨r.flags.ready, r.flags.shuttingDown⟩ := rfl
    _ = ⟨r'.flags.ready, r'.flags.shuttingDown⟩ := by rw [ready, down]
    _ = r'.flags := rfl

/-- **A report can be read back from its text**, whatever the names of the checks and the texts of
their errors are. The text is that of an object with five members in this order; in the last of them
every name stands once, in byte order, with the status of the last result of that name and with the
text of its error, if it has one. So reports that differ in a flag, a name, a status or an error
have different texts. -/
theorem report_read_back (time : Time.Stamp) (flags : Flags) (results : List CheckResult) :
    let r := ofResults time flags results
    (∃ checks : List (String × Json),
      Json.parse? r.text = some (.object [("status", .text (statusWord r.isHealthy)),
        ("timestamp", .text time.text), ("ready", .bool flags.ready),
        ("shutting_down", .bool flags.shuttingDown), ("checks", .object checks)]) ∧
      (checks.map (·.1)).Pairwise Text.Before ∧
      (∀ name, name ∈ checks.map (·.1) ↔ ∃ x ∈ results, x.name = name) ∧
      ∀ name j, (name, j) ∈ checks ↔ ∃ x, (results.filter (·.name = name)).getLast? = some x ∧
        j = match x.error with
          | none => .object [("status", .text (statusWord x.healthy))]
          | some e => .object [("status", .text (statusWord x.healthy)), ("error", .text e)]) ∧
    (r.isHealthy = true ↔
      ∀ name x, (results.filter (·.name = name)).getLast? = some x → x.healthy = true) ∧
    ∀ time' flags' results', (ofResults time' flags' results').text = r.text →
      time'.text = time.text ∧ flags' = flags ∧
      (ofResults time' flags' results').checks = r.checks := by
  intro r
  have found : ∀ name x, r.checks.get? name = some x ↔
      (results.filter (·.name = name)).getLast? = some x := fun name x => by
    rw [get?_ofResults]
  refine ⟨⟨r.checkDocuments, parse?_text r, ?_, fun name => ?_, fun name j => ?_⟩, ?_,
    fun time' flags' results' same => ?_⟩
  · rw [checkDocuments_names]
    exact r.checks.keys_ascending
  · rw [checkDocuments_names, Keyed.mem_keys]
    simp only [found]
    constructor
    · rintro ⟨x, last⟩
      have mem := List.mem_filter.mp (List.mem_of_getLast? last)
      exact ⟨x, mem.1, of_decide_eq_true mem.2⟩
    · rintro ⟨x, mem, named⟩
      refine ⟨_, List.getLast?_eq_some_getLast (List.ne_nil_of_mem (a := x) ?_)⟩
      exact List.mem_filter.mpr ⟨mem, decide_eq_true named⟩
  · rw [mem_checkDocuments]
    simp only [found, document_cases]
  · rw [isHealthy_iff_get?]
    simp only [found]
  · obtain ⟨stamp, flagged, kept⟩ := text_injective (isNamed_ofResults time' flags' results')
      (isNamed_ofResults time flags results) same
    exact ⟨stamp, flagged, kept⟩

end Report

end Health

end ServiceHealth
