import Mathlib.Data.List.DropRight
import ServiceHealth.Proofs.Addresses
import ServiceHealth.Settings.Environment

/-!
# Environments and the settings that they spell

A variable with a grammar may be absent, which gives its default, or spell a value with blanks
around it. One value has many spellings. The settings are those that all variables spell; if one of
the variables spells nothing, the first that does not is complained about.

* `Text.Surrounds`, `Text.trimChars_eq_iff`: what is left when the blanks around a text are dropped.
* `Settings.Tells`: what settings an environment tells; `ofLookup_eq_ok_iff`: **the settings that
  are read are those that the environment tells**.
* `printed_tells`, `printed_is_read_back`: the way back spells the settings, so **what was read is
  read again**, one variable at a time or all together.
* `Usable`, `complaint?`: which variables can be used, and what is wrong with one that cannot be.
* `ofLookup_eq_error_iff`, `first_unusable_blamed`: **the fault is that of the first variable that
  cannot be used**, whatever the later ones have.
* `fault_quotes_text_unless_zero`: what a fault quotes.
-/

namespace ServiceHealth

namespace Text

/-! ## 1. Blanks around a text -/

/-- A text is a core with blanks around it, and the core neither begins nor ends with a blank. -/
structure Surrounds (core text : List Char) : Prop where
  around : ∃ before after, text = before ++ core ++ after ∧ (∀ c ∈ before, isBlank c = true) ∧
    ∀ c ∈ after, isBlank c = true
  first : ∀ c ∈ core.head?, isBlank c = false
  last : ∀ c ∈ core.getLast?, isBlank c = false

theorem Surrounds.refl {core : List Char} (first : ∀ c ∈ core.head?, isBlank c = false)
    (last : ∀ c ∈ core.getLast?, isBlank c = false) : Surrounds core core :=
  ⟨⟨[], [], by simp, nofun, nofun⟩, first, last⟩

/-- Where a row of blanks ends there is none. -/
theorem head?_dropWhile_isBlank (cs : List Char) :
    ∀ c ∈ (cs.dropWhile isBlank).head?, isBlank c = false := by
  intro c mem
  have := List.head?_dropWhile_not isBlank cs
  rw [Option.mem_def.mp mem] at this
  simpa using this

theorem surrounds_trimChars (cs : List Char) : Surrounds (trimChars cs) cs where
  around := by
    refine ⟨cs.takeWhile isBlank, ((cs.dropWhile isBlank).reverse.takeWhile isBlank).reverse, ?_,
      fun c mem => List.mem_takeWhile_imp mem,
      fun c mem => List.mem_takeWhile_imp (List.mem_reverse.mp mem)⟩
    unfold trimChars
    rw [List.append_assoc, ← List.reverse_append, List.takeWhile_append_dropWhile,
      List.reverse_reverse, List.takeWhile_append_dropWhile]
  first := by
    intro c mem
    obtain ⟨rest, split⟩ : trimChars cs <+: cs.dropWhile isBlank :=
      List.rdropWhile_prefix isBlank (cs.dropWhile isBlank)
    refine head?_dropWhile_isBlank cs c ?_
    rw [← split, List.head?_append, Option.mem_def.mp mem]
    rfl
  last := by
    intro c mem
    unfold trimChars at mem
    rw [List.getLast?_reverse] at mem
    exact head?_dropWhile_isBlank _ c mem

/-- **Trimming drops exactly the blanks around a core.** -/
theorem trimChars_eq_iff {core text : List Char} : trimChars text = core ↔ Surrounds core text := by
  constructor
  · rintro rfl
    exact surrounds_trimChars text
  · rintro ⟨⟨before, after, rfl, blanks, blanks'⟩, first, last⟩
    unfold trimChars
    rw [List.append_assoc, List.dropWhile_append_of_pos blanks]
    cases core with
    | nil =>
      rw [List.nil_append, List.dropWhile_eq_nil_iff.mpr blanks']
      rfl
    | cons c core =>
      rw [List.cons_append, List.dropWhile_cons_of_neg (by simp [first c rfl]),
        ← List.cons_append, List.reverse_append, List.dropWhile_append_of_pos
          (fun x mem => blanks' x (List.mem_reverse.mp mem))]
      have ends := trimChars_of_ends first last
      unfold trimChars at ends
      rwa [List.dropWhile_cons_of_neg (by simp [first c rfl])] at ends

end Text

namespace Settings

open Text

/-! ## 2. What the grammars accept -/

/-- How a number of at most 64 bits is spelled. -/
def SpellsNumber (cs : List Char) (n : Nat) : Prop := Numeral.Spells cs n ∧ n < 2 ^ 64

/-- How a timeout is spelled: it is a number other than zero. -/
def SpellsTimeout (cs : List Char) (n : Nat) : Prop := SpellsNumber cs n ∧ n ≠ 0

/-- How a log format is spelled: by its name and nothing else. -/
def SpellsFormat (cs : List Char) (f : Log.Format) : Prop := cs = f.name.toList

theorem endpointGrammar_eq_ok_iff (cs : List Char) (e : Net.Endpoint) :
    endpointGrammar cs = .ok e ↔ e.Spelled cs := by
  unfold endpointGrammar
  rw [← Net.endpoint?_eq_some_iff]
  cases Net.endpoint? cs <;> simp

theorem numberGrammar_eq_ok_iff (cs : List Char) (n : Nat) :
    numberGrammar cs = .ok n ↔ SpellsNumber cs n := by
  unfold numberGrammar SpellsNumber
  have reads : Numeral.read Numeral.limit64 cs = .ok n ↔ Numeral.Spells cs n ∧ n < 2 ^ 64 :=
    Numeral.read_eq_ok_iff
  rw [← reads]
  cases Numeral.read Numeral.limit64 cs <;> simp

theorem formatGrammar_eq_ok_iff (cs : List Char) (f : Log.Format) :
    formatGrammar cs = .ok f ↔ SpellsFormat cs f := by
  have named : ∀ s : String, Log.Format.ofName? s = some f ↔ s = f.name := by
    intro s
    constructor
    · intro h
      unfold Log.Format.ofName? at h
      split at h
      · cases h
        assumption
      · split at h <;> cases h
        assumption
    · rintro rfl
      exact Log.Format.ofName?_name f
  have spelled : SpellsFormat cs f ↔ String.ofList cs = f.name := by
    unfold SpellsFormat
    rw [← String.toList_inj, String.toList_ofList]
  unfold formatGrammar
  rw [spelled, ← named]
  cases Log.Format.ofName? (String.ofList cs) <;> simp

/-! ## 3. One variable -/

/-- **What an environment says of a variable with a grammar**: the default if the variable is
absent, and otherwise what its text spells without the blanks around it. -/
def Says {α : Type} (lookup : Lookup) (v : Variable) (default : α)
    (spells : List Char → α → Prop) (a : α) : Prop :=
  (lookup v.name = none ∧ a = default) ∨
    ∃ text core, lookup v.name = some text ∧ Surrounds core text.toList ∧ spells core a

section Reading

variable {α : Type} {lookup : Lookup} {v : Variable}

/-- A variable is read as what the environment says of it. -/
theorem readVariable_eq_ok_iff {default : α} {grammar : List Char → Except Reason α}
    {spells : List Char → α → Prop} (reads : ∀ cs a, grammar cs = .ok a ↔ spells cs a) {a : α} :
    readVariable lookup v default grammar = .ok a ↔ Says lookup v default spells a := by
  unfold Says
  cases h : lookup v.name with
  | none =>
    rw [readVariable_none h]
    simp [eq_comm]
  | some text =>
    rw [readVariable_some h]
    have spelled : (∃ core, Surrounds core text.toList ∧ spells core a) ↔
        grammar (trimChars text.toList) = .ok a := by
      constructor
      · rintro ⟨core, surrounds, spells⟩
        rw [trimChars_eq_iff.mpr surrounds]
        exact (reads core a).mpr spells
      · exact fun read => ⟨_, surrounds_trimChars _, (reads _ a).mp read⟩
    simp only [Option.some.injEq, reduceCtorEq, false_and, false_or, exists_and_left,
      exists_eq_left', spelled]
    cases grammar (trimChars text.toList) <;> simp

/-- What is quoted of a variable that cannot be read is its text. -/
theorem readVariable_eq_error {default : α} {grammar : List Char → Except Reason α} {f : Fault}
    (h : readVariable lookup v default grammar = .error f) :
    f.source = v ∧ lookup v.name = some f.value ∧
      grammar (trimChars f.value.toList) = .error f.reason := by
  cases found : lookup v.name with
  | none =>
    rw [readVariable_none found] at h
    cases h
  | some text =>
    rw [readVariable_some found] at h
    split at h
    · cases h
    · rename_i bad
      cases h
      exact ⟨rfl, rfl, bad⟩

theorem readTimeout_eq_ok_iff {default : Nat} (positive : default ≠ 0) {n : Nat} :
    readTimeout lookup v default = .ok n ↔ Says lookup v default SpellsTimeout n := by
  have number := @readVariable_eq_ok_iff Nat lookup v default _ _ numberGrammar_eq_ok_iff n
  have timeout : Says lookup v default SpellsTimeout n ↔
      Says lookup v default SpellsNumber n ∧ n ≠ 0 := by
    constructor
    · rintro (⟨absent, rfl⟩ | ⟨text, core, found, surrounds, spelled, nonzero⟩)
      · exact ⟨.inl ⟨absent, rfl⟩, positive⟩
      · exact ⟨.inr ⟨text, core, found, surrounds, spelled⟩, nonzero⟩
    · rintro ⟨⟨absent, rfl⟩ | ⟨text, core, found, surrounds, spelled⟩, nonzero⟩
      · exact .inl ⟨absent, rfl⟩
      · exact .inr ⟨text, core, found, surrounds, spelled, nonzero⟩
  rw [timeout, ← number]
  unfold readTimeout
  rcases readVariable lookup v default numberGrammar with f | (_ | seconds)
  · simp
  · simp only [reduceCtorEq, Except.ok.injEq, false_iff, not_and, not_not]
    exact Eq.symm
  · simp only [Except.ok.injEq, iff_self_and]
    rintro rfl
    exact Nat.succ_ne_zero seconds

/-- A timeout is faulty if it is no number, or if it is zero. -/
theorem readTimeout_eq_error {default : Nat} {f : Fault}
    (h : readTimeout lookup v default = .error f) :
    readVariable lookup v default numberGrammar = .error f ∨
      f = ⟨v, "0", .zeroTimeout⟩ ∧ readVariable lookup v default numberGrammar = .ok 0 := by
  unfold readTimeout at h
  split at h
  · rename_i bad
    cases h
    exact .inl bad
  · rename_i zero
    cases h
    exact .inr ⟨rfl, zero⟩
  · cases h

end Reading

/-! ## 4. All variables -/

/-- **What settings an environment tells.** Each variable with a grammar says one of them; the other
texts are taken as they stand, and an empty certificate path counts as none. -/
structure Tells (lookup : Lookup) (s : Settings) : Prop where
  endpoint : Says lookup .endpoint default.endpoint (fun cs e => e.Spelled cs) s.endpoint
  shutdownTimeout :
    Says lookup .shutdownTimeout default.shutdownTimeout SpellsTimeout s.shutdownTimeout
  checkTimeout : Says lookup .checkTimeout default.checkTimeout SpellsTimeout s.checkTimeout
  format : Says lookup .logFormat default.format SpellsFormat s.format
  minConnections :
    Says lookup .minConnections default.minConnections SpellsNumber s.minConnections
  level : s.level = (lookup Variable.logLevel.name).getD default.level
  service : s.service = (lookup Variable.service.name).getD default.service
  environment : s.environment = (lookup Variable.environment.name).getD default.environment
  certificate : ∀ path,
    s.certificate = some path ↔ lookup Variable.certificate.name = some path ∧ path ≠ ""

theorem bind_eq_ok_iff {ε α β : Type} {x : Except ε α} {f : α → Except ε β} {b : β} :
    x >>= f = .ok b ↔ ∃ a, x = .ok a ∧ f a = .ok b := by
  cases x <;> simp [bind, Except.bind]

/-- **The settings that are read are those that the environment tells.** -/
theorem ofLookup_eq_ok_iff {lookup : Lookup} {s : Settings} :
    ofLookup lookup = .ok s ↔ Tells lookup s := by
  unfold ofLookup
  simp only [bind_eq_ok_iff, readVariable_eq_ok_iff endpointGrammar_eq_ok_iff,
    readVariable_eq_ok_iff numberGrammar_eq_ok_iff, readVariable_eq_ok_iff formatGrammar_eq_ok_iff,
    readTimeout_eq_ok_iff (show default.shutdownTimeout ≠ 0 by decide),
    readTimeout_eq_ok_iff (show default.checkTimeout ≠ 0 by decide)]
  constructor
  · rintro ⟨e, he, n, hn, m, hm, f, hf, k, hk, same⟩
    cases same
    refine ⟨he, hn, hm, hf, hk, rfl, rfl, rfl, fun path => ?_⟩
    simp [Option.filter_eq_some_iff]
  · intro tells
    refine ⟨_, tells.endpoint, _, tells.shutdownTimeout, _, tells.checkTimeout, _, tells.format, _,
      tells.minConnections, ?_⟩
    have certificate : s.certificate =
        (lookup Variable.certificate.name).filter (· ≠ "") := by
      refine Option.ext fun path => ?_
      rw [tells.certificate path]
      simp [Option.filter_eq_some_iff]
    rw [← tells.level, ← tells.service, ← tells.environment, ← certificate]
    rfl

/-! ## 5. The way back -/

theorem isBlank_digit {base : Nat} (le : base ≤ 16) {c : Char} (digit : Net.isDigit base c = true) :
    isBlank c = false := by
  obtain ⟨d, lt, stands⟩ := (Net.isDigit_iff le).mp digit
  have plain : ∀ d < 16, isBlank (Nat.digitChar d) = false ∧
      isBlank (Nat.digitChar d).toUpper = false := by decide
  rcases stands with rfl | rfl
  · exact (plain d (Nat.lt_of_lt_of_le lt le)).1
  · exact (plain d (Nat.lt_of_lt_of_le lt le)).2

/-- A socket address neither begins nor ends with a blank. -/
theorem endpoint_ends {cs : List Char} {e : Net.Endpoint} (h : e.Spelled cs) :
    (∀ c ∈ cs.head?, isBlank c = false) ∧ ∀ c ∈ cs.getLast?, isBlank c = false := by
  have port : ∀ {digits : List Char} {n : Nat} (front : List Char),
      Net.portShape.Spells digits n →
        ∀ c ∈ (front ++ ':' :: digits).getLast?, isBlank c = false := by
    intro digits n front spells c mem
    have digit := spells.isDigit (by decide)
    rw [List.getLast?_append_of_ne_nil _ (List.cons_ne_nil _ _), List.getLast?_cons,
      List.getLast?_eq_some_getLast spells.nonempty] at mem
    cases mem
    exact isBlank_digit (by decide) (digit _ (List.getLast_mem spells.nonempty))
  cases h with
  | @v4 text digits address port' spelled spells =>
    refine ⟨fun c mem => ?_, port _ spells⟩
    obtain ⟨first, -, -, -⟩ := spelled
    have digit := first.isDigit (by decide)
    obtain ⟨x, row, rfl⟩ := List.exists_cons_of_ne_nil first.nonempty
    cases mem
    exact isBlank_digit (by decide) (digit _ List.mem_cons_self)
  | @v6 text zone digits address scope port' spelled zoned spells =>
    refine ⟨fun c mem => ?_, ?_⟩
    · cases mem
      decide
    · have last := port ('[' :: (text ++ (zone ++ [']']))) spells
      simpa using last

/-- A written number has no blank. -/
theorem number_plain (n : Nat) : ∀ c ∈ (toString n).toList, isBlank c = false := by
  intro c mem
  rw [Nat.toString_eq_repr, Nat.toList_repr] at mem
  exact isBlank_digit (by decide)
    (((Net.denotes_iff (by decide)).mp (toDigits_denotes (by decide) n)).1 c mem)

section Way

variable {α : Type} {lookup other : Lookup} {v : Variable} {default : α}
  {spells : List Char → α → Prop} {a : α}

theorem Says.congr (same : other v.name = lookup v.name) (h : Says lookup v default spells a) :
    Says other v default spells a := by
  unfold Says at h ⊢
  rwa [same]

/-- What is said of a variable is its default or is spelled somehow. -/
theorem Says.spelled (h : Says lookup v default spells a) : a = default ∨ ∃ cs, spells cs a := by
  rcases h with ⟨-, rfl⟩ | ⟨_, core, -, -, spelled⟩
  · exact .inl rfl
  · exact .inr ⟨core, spelled⟩

/-- A text that spells a value, without blanks at its ends, says it. -/
theorem Says.of_text {text : String} (found : lookup v.name = some text)
    (spelled : spells text.toList a) (first : ∀ c ∈ text.toList.head?, isBlank c = false)
    (last : ∀ c ∈ text.toList.getLast?, isBlank c = false) : Says lookup v default spells a :=
  .inr ⟨text, text.toList, found, .refl first last, spelled⟩

theorem Says.of_number {default n : Nat} {spells : List Char → Nat → Prop}
    (found : lookup v.name = some (toString n)) (spelled : spells (toString n).toList n) :
    Says lookup v default spells n :=
  .of_text found spelled (fun c mem => number_plain n c (List.mem_of_mem_head? mem))
    (fun c mem => number_plain n c (List.mem_of_getLast? mem))

end Way

/-- **Each variable may be spelled as it was or as it is printed**, independently of the others. -/
theorem Tells.respelled {lookup other : Lookup} {s : Settings} (tells : Tells lookup s)
    (each : ∀ v : Variable, other v.name = lookup v.name ∨ other v.name = s.printed v.name) :
    Tells other s := by
  simp only [printed_name] at each
  have timeout : ∀ {v : Variable} {default n : Nat}, default < 2 ^ 64 → default ≠ 0 →
      Says lookup v default SpellsTimeout n → SpellsTimeout (toString n).toList n := by
    intro v default n small positive said
    rcases said.spelled with rfl | ⟨_, ⟨-, small⟩, positive⟩
    · exact ⟨⟨Numeral.spells_toString _, small⟩, positive⟩
    · exact ⟨⟨Numeral.spells_toString _, small⟩, positive⟩
  have text : ∀ {v : Variable} {value default : String},
      value = (lookup v.name).getD default →
        (other v.name = lookup v.name ∨ other v.name = some value) →
          value = (other v.name).getD default := by
    rintro v value default told (same | printed)
    · rwa [same]
    · rw [printed]
      rfl
  constructor
  case endpoint =>
    refine (each .endpoint).elim (fun same => tells.endpoint.congr same) fun printed => ?_
    have spelled : s.endpoint.Spelled s.endpoint.text.toList := by
      rw [Net.Endpoint.text, String.toList_ofList]
      exact s.endpoint.spelled_chars
    exact .of_text printed spelled (endpoint_ends spelled).1 (endpoint_ends spelled).2
  case shutdownTimeout =>
    refine (each .shutdownTimeout).elim (fun same => tells.shutdownTimeout.congr same)
      fun printed => ?_
    exact .of_number printed (timeout (by decide) (by decide) tells.shutdownTimeout)
  case checkTimeout =>
    refine (each .checkTimeout).elim (fun same => tells.checkTimeout.congr same) fun printed => ?_
    exact .of_number printed (timeout (by decide) (by decide) tells.checkTimeout)
  case format =>
    refine (each .logFormat).elim (fun same => tells.format.congr same) fun printed => ?_
    refine .of_text printed rfl ?_ ?_ <;> cases s.format <;> rintro c ⟨⟩ <;> rfl
  case minConnections =>
    refine (each .minConnections).elim (fun same => tells.minConnections.congr same)
      fun printed => ?_
    refine .of_number printed ⟨Numeral.spells_toString _, ?_⟩
    rcases tells.minConnections.spelled with e | ⟨_, -, small⟩
    · rw [e]
      decide
    · exact small
  case level => exact text tells.level (each .logLevel)
  case service => exact text tells.service (each .service)
  case environment => exact text tells.environment (each .environment)
  case certificate =>
    rcases each .certificate with same | printed
    · rw [same]
      exact tells.certificate
    · rw [printed]
      intro path
      exact ⟨fun h => ⟨h, ((tells.certificate path).mp h).2⟩, fun h => h.1⟩

/-- **Settings that were read are printed so that they are read again**, whatever spelling they were
read from. Any of their variables may stand as it was and the others as printed, and every other
environment that tells the same settings is read alike. -/
theorem printed_is_read_back {lookup : Lookup} {s : Settings} (h : ofLookup lookup = .ok s) :
    ofLookup s.printed = .ok s ∧
      (∀ other : Lookup, (∀ v : Variable, other v.name = lookup v.name ∨
        other v.name = s.printed v.name) → ofLookup other = .ok s) ∧
      ∀ other : Lookup, Tells other s → ofLookup other = .ok s := by
  have tells := ofLookup_eq_ok_iff.mp h
  refine ⟨ofLookup_eq_ok_iff.mpr (tells.respelled fun v => .inr rfl), fun other each => ?_,
    fun other told => ofLookup_eq_ok_iff.mpr told⟩
  exact ofLookup_eq_ok_iff.mpr (tells.respelled each)

/-- A mapped address in capitals with zeros in front, blanks, a sign, and an empty path. -/
def oddly : Lookup := fun name =>
  if name = "TUNNEL_METRICS_ADDR" then some " [0:0::FFFF:1.2.3.4%005]:0080\n"
  else if name = "TUNNEL_SHUTDOWN_TIMEOUT_SECS" then some "\t+0030 "
  else if name = "TUNNEL_LOG_FORMAT" then some "json "
  else if name = "TUNNEL_SERVICE_NAME" then some " edge "
  else if name = "TUNNEL_CERT_FILE" then some ""
  else none

/-- What was spelled oddly is printed plainly and read back. -/
theorem odd_spellings_are_read_back : ∃ s, ofLookup oddly = .ok s ∧
    s.printed "TUNNEL_METRICS_ADDR" = some "[::ffff:1.2.3.4%5]:80" ∧
    s.printed "TUNNEL_SHUTDOWN_TIMEOUT_SECS" = some "30" ∧
    s.printed "TUNNEL_SERVICE_NAME" = some " edge " ∧ s.printed "TUNNEL_CERT_FILE" = none ∧
    ofLookup s.printed = .ok s := by
  have read : ofLookup oddly = .ok { default with
      endpoint := .v6 ⟨[0, 0, 0, 0, 0, 0xFFFF, 0x102, 0x304], rfl⟩ 5 80, format := .json,
      service := " edge " } := by decide +kernel
  exact ⟨_, read, by decide +kernel, by decide +kernel, rfl, rfl, (printed_is_read_back read).1⟩

/-! ## 6. Faults -/

/-- The variables with a grammar, in the order in which they are read. -/
def checked : List Variable :=
  [.endpoint, .shutdownTimeout, .checkTimeout, .logFormat, .minConnections]

/-- Which texts without blanks around them a variable accepts. -/
def Accepts : Variable → List Char → Prop
  | .endpoint, cs => ∃ e : Net.Endpoint, e.Spelled cs
  | .shutdownTimeout, cs => ∃ n, SpellsTimeout cs n
  | .checkTimeout, cs => ∃ n, SpellsTimeout cs n
  | .logFormat, cs => ∃ f, SpellsFormat cs f
  | .minConnections, cs => ∃ n, SpellsNumber cs n
  | _, _ => True

/-- **Which variables can be used**: those that are absent, and those that have a text which is
accepted without the blanks around it. -/
def Usable (lookup : Lookup) (v : Variable) : Prop :=
  ∀ text, lookup v.name = some text → ∃ core, Surrounds core text.toList ∧ Accepts v core

/-- The fault of what was read. -/
def faultOf {α : Type} : Except Fault α → Option Fault
  | .ok _ => none
  | .error f => some f

/-- What is wrong with one variable, whatever the others have. -/
def complaint? (lookup : Lookup) : Variable → Option Fault
  | .endpoint => faultOf (readVariable lookup .endpoint default.endpoint endpointGrammar)
  | .shutdownTimeout => faultOf (readTimeout lookup .shutdownTimeout default.shutdownTimeout)
  | .checkTimeout => faultOf (readTimeout lookup .checkTimeout default.checkTimeout)
  | .logFormat => faultOf (readVariable lookup .logFormat default.format formatGrammar)
  | .minConnections =>
    faultOf (readVariable lookup .minConnections default.minConnections numberGrammar)
  | _ => none

/-- **The first complaint ends the reading.** -/
theorem ofLookup_eq_error_iff {lookup : Lookup} {f : Fault} :
    ofLookup lookup = .error f ↔ checked.findSome? (complaint? lookup) = some f := by
  unfold ofLookup checked
  simp only [List.findSome?_cons, List.findSome?_nil, complaint?]
  cases readVariable lookup .endpoint default.endpoint endpointGrammar with
  | error g => simp [faultOf, bind, Except.bind]
  | ok e =>
    cases readTimeout lookup .shutdownTimeout default.shutdownTimeout with
    | error g => simp [faultOf, bind, Except.bind]
    | ok n =>
      cases readTimeout lookup .checkTimeout default.checkTimeout with
      | error g => simp [faultOf, bind, Except.bind]
      | ok m =>
        cases readVariable lookup .logFormat default.format formatGrammar with
        | error g => simp [faultOf, bind, Except.bind]
        | ok f =>
          cases readVariable lookup .minConnections default.minConnections numberGrammar with
          | error g => simp [faultOf, bind, Except.bind]
          | ok k => simp [faultOf, bind, Except.bind, pure, Except.pure]

section Complaints

variable {lookup other : Lookup} {v : Variable} {f : Fault}

theorem faultOf_eq_some {α : Type} {r : Except Fault α} : faultOf r = some f ↔ r = .error f := by
  cases r <;> simp [faultOf]

theorem faultOf_eq_none {α : Type} {r : Except Fault α} :
    faultOf r = none ↔ ∃ a, r = .ok a := by
  cases r <;> simp [faultOf]

/-- Something is said of a variable exactly if it can be used. -/
theorem exists_says_iff {α : Type} {default : α} {spells : List Char → α → Prop} :
    (∃ a, Says lookup v default spells a) ↔
      ∀ text, lookup v.name = some text →
        ∃ core, Surrounds core text.toList ∧ ∃ a, spells core a := by
  constructor
  · rintro ⟨a, ⟨absent, -⟩ | ⟨text, core, found, surrounds, spelled⟩⟩ text' found'
    · rw [absent] at found'
      cases found'
    · rw [found] at found'
      cases found'
      exact ⟨core, surrounds, a, spelled⟩
  · intro h
    cases found : lookup v.name with
    | none => exact ⟨default, .inl ⟨found, rfl⟩⟩
    | some text =>
      obtain ⟨core, surrounds, a, spelled⟩ := h text found
      exact ⟨a, .inr ⟨text, core, found, surrounds, spelled⟩⟩

/-- **There is no complaint about a variable exactly if it can be used.** -/
theorem complaint?_eq_none_iff : complaint? lookup v = none ↔ Usable lookup v := by
  have unchecked : Accepts v = (fun _ => True) → Usable lookup v := fun all text _ =>
    ⟨_, surrounds_trimChars text.toList, by rw [all]; trivial⟩
  cases v with
  | endpoint =>
    show faultOf _ = none ↔ _
    simp only [faultOf_eq_none, readVariable_eq_ok_iff endpointGrammar_eq_ok_iff]
    exact exists_says_iff
  | shutdownTimeout =>
    show faultOf _ = none ↔ _
    simp only [faultOf_eq_none, readTimeout_eq_ok_iff (show default.shutdownTimeout ≠ 0 by decide)]
    exact exists_says_iff
  | checkTimeout =>
    show faultOf _ = none ↔ _
    simp only [faultOf_eq_none, readTimeout_eq_ok_iff (show default.checkTimeout ≠ 0 by decide)]
    exact exists_says_iff
  | logFormat =>
    show faultOf _ = none ↔ _
    simp only [faultOf_eq_none, readVariable_eq_ok_iff formatGrammar_eq_ok_iff]
    exact exists_says_iff
  | minConnections =>
    show faultOf _ = none ↔ _
    simp only [faultOf_eq_none, readVariable_eq_ok_iff numberGrammar_eq_ok_iff]
    exact exists_says_iff
  | logLevel => exact ⟨fun _ => unchecked rfl, fun _ => rfl⟩
  | environment => exact ⟨fun _ => unchecked rfl, fun _ => rfl⟩
  | service => exact ⟨fun _ => unchecked rfl, fun _ => rfl⟩
  | certificate => exact ⟨fun _ => unchecked rfl, fun _ => rfl⟩

/-- A complaint depends on the text of its variable and on nothing else. -/
theorem complaint?_congr (same : other v.name = lookup v.name) :
    complaint? other v = complaint? lookup v := by
  cases v <;> simp only [complaint?, readTimeout, readVariable, same]

/-- A timeout that spells zero, with a sign, zeros or blanks or without. -/
def ZeroTimeout (v : Variable) (text : String) : Prop :=
  (v = .shutdownTimeout ∨ v = .checkTimeout) ∧
    ∃ core, Surrounds core text.toList ∧ Numeral.Spells core 0

/-- What a fault quotes of a text: the text itself, but the digit if it is a timeout of zero. -/
inductive Quotes (text : String) (f : Fault) : Prop where
  | text (other : f.reason ≠ .zeroTimeout) (nonzero : ¬ ZeroTimeout f.source text)
      (value : f.value = text) : Quotes text f
  | digit (zero : f.reason = .zeroTimeout) (timeout : ZeroTimeout f.source text)
      (value : f.value = "0") : Quotes text f

/-- A variable that cannot be read is quoted, unless it is a timeout of zero. -/
theorem unread_quotes {α : Type} {default : α} {grammar : List Char → Except Reason α}
    (h : readVariable lookup v default grammar = .error f)
    (other : ∀ cs, grammar cs ≠ .error .zeroTimeout)
    (nonzero : (v = .shutdownTimeout ∨ v = .checkTimeout) →
      ∀ cs, Numeral.Spells cs 0 → ∃ a, grammar cs = .ok a) :
    f.source = v ∧ ∃ text, lookup v.name = some text ∧ Quotes text f := by
  obtain ⟨rfl, found, bad⟩ := readVariable_eq_error h
  refine ⟨rfl, f.value, found, .text (fun zero => other _ (zero ▸ bad)) ?_ rfl⟩
  rintro ⟨timeout, core, surrounds, zero⟩
  obtain ⟨a, good⟩ := nonzero timeout core zero
  rw [trimChars_eq_iff.mpr surrounds, good] at bad
  cases bad

theorem numberGrammar_ne_zeroTimeout (cs : List Char) :
    numberGrammar cs ≠ .error .zeroTimeout := by
  unfold numberGrammar
  split <;> simp

theorem timeout_quotes {default : Nat} (positive : default ≠ 0)
    (timeout : v = .shutdownTimeout ∨ v = .checkTimeout)
    (h : readTimeout lookup v default = .error f) :
    f.source = v ∧ ∃ text, lookup v.name = some text ∧ Quotes text f := by
  rcases readTimeout_eq_error h with bad | ⟨rfl, zero⟩
  · exact unread_quotes bad numberGrammar_ne_zeroTimeout fun _ cs spelled =>
      ⟨0, (numberGrammar_eq_ok_iff cs 0).mpr ⟨spelled, by decide⟩⟩
  · rcases (readVariable_eq_ok_iff numberGrammar_eq_ok_iff).mp zero with
      ⟨-, e⟩ | ⟨text, core, found, surrounds, spelled, -⟩
    · exact absurd e.symm positive
    · exact ⟨rfl, text, found, .digit rfl ⟨timeout, core, surrounds, spelled⟩ rfl⟩

/-- **What a complaint is about and what it quotes.** -/
theorem complaint?_eq_some (h : complaint? lookup v = some f) :
    f.source = v ∧ ∃ text, lookup v.name = some text ∧ Quotes text f := by
  cases v with
  | endpoint =>
    refine unread_quotes (faultOf_eq_some.mp h) (fun cs => ?_) (by rintro (e | e) <;> cases e)
    unfold endpointGrammar
    split <;> simp
  | shutdownTimeout => exact timeout_quotes (by decide) (.inl rfl) (faultOf_eq_some.mp h)
  | checkTimeout => exact timeout_quotes (by decide) (.inr rfl) (faultOf_eq_some.mp h)
  | logFormat =>
    refine unread_quotes (faultOf_eq_some.mp h) (fun cs => ?_) (by rintro (e | e) <;> cases e)
    unfold formatGrammar
    split <;> simp
  | minConnections =>
    exact unread_quotes (faultOf_eq_some.mp h) numberGrammar_ne_zeroTimeout
      (by rintro (e | e) <;> cases e)
  | logLevel => cases h
  | environment => cases h
  | service => cases h
  | certificate => cases h

end Complaints

/-- **The settings are read if every variable can be used, and else the first that cannot be is
blamed**, with a fault that does not depend on what the variables after it have. Nothing but the
nine variables counts, and those without a grammar can always be used. -/
theorem first_unusable_blamed (lookup : Lookup) :
    ((∃ s, ofLookup lookup = .ok s) ↔ ∀ v, Usable lookup v) ∧
      (∀ s, ofLookup lookup = .ok s ↔ Tells lookup s) ∧
      (∀ f, ofLookup lookup = .error f → ∃ before after, checked = before ++ f.source :: after ∧
        (∀ v ∈ before, Usable lookup v) ∧ ¬ Usable lookup f.source ∧
        ∀ other : Lookup, (∀ v ∈ before ++ [f.source], other v.name = lookup v.name) →
          ofLookup other = .error f) ∧
      (∀ v, v ∉ checked → Usable lookup v) ∧
      ∀ other : Lookup, (∀ v : Variable, other v.name = lookup v.name) →
        ofLookup other = ofLookup lookup := by
  have unchecked : ∀ v, v ∉ checked → Usable lookup v := by
    intro v outside
    refine complaint?_eq_none_iff.mp ?_
    cases v <;> first | rfl | exact absurd (by decide) outside
  refine ⟨⟨fun ⟨s, read⟩ v => ?_, fun usable => ?_⟩, fun s => ofLookup_eq_ok_iff, fun f bad => ?_,
    unchecked, fun other same => ofLookup_congr same⟩
  · -- if a variable were complained about, some complaint would have ended the reading
    by_contra unusable
    have mem : v ∈ checked := by
      by_contra outside
      exact unusable (unchecked v outside)
    cases first : checked.findSome? (complaint? lookup) with
    | none =>
      exact unusable (complaint?_eq_none_iff.mp (List.findSome?_eq_none_iff.mp first v mem))
    | some f =>
      rw [ofLookup_eq_error_iff.mpr first] at read
      cases read
  · cases read : ofLookup lookup with
    | ok s => exact ⟨s, rfl⟩
    | error f =>
      obtain ⟨v, -, complained⟩ :=
        List.exists_of_findSome?_eq_some (ofLookup_eq_error_iff.mp read)
      rw [complaint?_eq_none_iff.mpr (usable v)] at complained
      cases complained
  · obtain ⟨before, v, after, split, complained, fine⟩ :=
      List.findSome?_eq_some_iff.mp (ofLookup_eq_error_iff.mp bad)
    obtain ⟨rfl, -⟩ := complaint?_eq_some complained
    refine ⟨before, after, split, fun v mem => complaint?_eq_none_iff.mp (fine v mem), ?_, ?_⟩
    · rw [← complaint?_eq_none_iff, complained]
      exact Option.some_ne_none f
    · intro other same
      refine ofLookup_eq_error_iff.mpr (List.findSome?_eq_some_iff.mpr
        ⟨before, f.source, after, split, ?_, fun v mem => ?_⟩)
      · rw [complaint?_congr (same _ (by simp)), complained]
      · rw [complaint?_congr (same v (List.mem_append_left _ mem)), fine v mem]

/-- Two variables that cannot be used. -/
def faultyTwice : Lookup := fun name =>
  if name = "TUNNEL_LOG_FORMAT" then some "TEXT"
  else if name = "TUNNEL_CHECK_TIMEOUT_SECS" then some "-5"
  else none

/-- The format stands after the timeout, so it is the timeout that is blamed. -/
theorem negative_timeout_blamed_before_format : ∃ before after,
    ofLookup faultyTwice = .error ⟨.checkTimeout, "-5", .badNumber .badDigit⟩ ∧
      checked = before ++ Variable.checkTimeout :: after ∧
      (∀ v ∈ before, Usable faultyTwice v) ∧ ¬ Usable faultyTwice .checkTimeout := by
  have bad : ofLookup faultyTwice = .error ⟨.checkTimeout, "-5", .badNumber .badDigit⟩ := by
    decide +kernel
  obtain ⟨before, after, split, fine, unusable, -⟩ :=
    (first_unusable_blamed faultyTwice).2.2.1 _ bad
  exact ⟨before, after, bad, split, fine, unusable⟩

/-- **A fault quotes the text of its variable, untouched, unless it is a timeout of zero**: of that
it quotes the digit, so only the spelling that is the digit is quoted as it stands. -/
theorem fault_quotes_text_unless_zero {lookup : Lookup} {f : Fault}
    (h : ofLookup lookup = .error f) :
    ∃ text, lookup f.source.name = some text ∧
      (f.reason = .zeroTimeout ↔ ZeroTimeout f.source text) ∧
      (f.value = text ↔ ¬ ZeroTimeout f.source text ∨ text = "0") ∧
      (ZeroTimeout f.source text → f.value = "0") := by
  obtain ⟨_, v, _, _, complained, _⟩ := List.findSome?_eq_some_iff.mp (ofLookup_eq_error_iff.mp h)
  obtain ⟨rfl, text, found, quotes⟩ := complaint?_eq_some complained
  refine ⟨text, found, ?_⟩
  cases quotes with
  | text other nonzero value =>
    exact ⟨⟨fun zero => absurd zero other, fun zero => absurd zero nonzero⟩,
      ⟨fun _ => .inl nonzero, fun _ => value⟩, fun zero => absurd zero nonzero⟩
  | digit zero timeout value =>
    refine ⟨⟨fun _ => timeout, fun _ => zero⟩, ⟨fun same => .inr (same ▸ value), ?_⟩,
      fun _ => value⟩
    rintro (nonzero | rfl)
    · exact absurd timeout nonzero
    · exact value

/-- An environment with a single variable. -/
def only (v : Variable) (text : String) : Lookup := fun name =>
  if name = v.name then some text else none

/-- An address that is none is quoted with the blanks around it. -/
theorem padded_address_is_quoted : ∃ f, ofLookup (only .endpoint " nowhere\t") = .error f ∧
    f.source = .endpoint ∧ f.value = " nowhere\t" := by
  have bad : ofLookup (only .endpoint " nowhere\t") =
      .error ⟨.endpoint, " nowhere\t", .badAddress⟩ := by decide +kernel
  obtain ⟨text, found, -, quoted, -⟩ := fault_quotes_text_unless_zero bad
  obtain rfl : " nowhere\t" = text := Option.some.inj found
  exact ⟨_, bad, rfl, quoted.mpr (.inl fun zero => by rcases zero.1 with e | e <;> cases e)⟩

/-- **A timeout of two zeros is complained about as one zero.** -/
theorem two_zeros_are_not_quoted :
    ofLookup (only .shutdownTimeout "00") = .error ⟨.shutdownTimeout, "0", .zeroTimeout⟩ ∧
      only .shutdownTimeout "00" Variable.shutdownTimeout.name ≠ some "0" := by
  constructor <;> decide +kernel

end Settings

end ServiceHealth
