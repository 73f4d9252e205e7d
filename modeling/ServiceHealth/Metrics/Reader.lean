import ServiceHealth.Metrics.Exposition

/-!
# Reading an exposition

An exposition is read line by line. A line of help starts a family, the line after it has its
kind, and every line after that which starts with the name of the family is a sample; the
characters of a label are restored by undoing the escapes.

* `scanLabel_undoes`: the reader undoes the escapes of a label.
-/

namespace ServiceHealth.Exposition

/-! ## 1. Labels -/

/-- Reads the value of a label up to its closing quote. -/
def scanLabel : List Char → Option (List Char × List Char)
  | [] => none
  | '"' :: rest => some ([], rest)
  | '\\' :: letter :: rest =>
    match escapes.char? letter with
    | some c => (scanLabel rest).map fun p => (c :: p.1, p.2)
    | none => none
  | c :: rest => if c = '\\' then none else (scanLabel rest).map fun p => (c :: p.1, p.2)

/-- **The reader undoes the escapes of a label.** -/
theorem scanLabel_undoes : escapes.Undoes (fun _ => True) scanLabel where
  close _ := by rw [scanLabel]
  short h rest := by rw [scanLabel, h]
  plain quote backslash _ rest := by
    rw [scanLabel]
    · simp [backslash]
    all_goals simp_all

/-! ## 2. Lines -/

/-- What follows a text at the start of another. -/
def dropStart? (start cs : List Char) : Option (List Char) :=
  if start.isPrefixOf cs then some (cs.drop start.length) else none

/-- The word at the start and what follows the space after it. -/
def word? (cs : List Char) : Option (List Char × List Char) :=
  match cs.dropWhile (· != ' ') with
  | [] => none
  | _ :: rest => some (cs.takeWhile (· != ' '), rest)

/-- The label in braces at the start, if there is one, and what follows it. -/
def label? : List Char → Option (Option (String × String) × List Char)
  | '\x7b' :: cs =>
    match cs.dropWhile (· != '=') with
    | '=' :: '"' :: rest =>
      match scanLabel rest with
      | some (value, '\x7d' :: rest') =>
        some (some (String.ofList (cs.takeWhile (· != '=')), String.ofList value), rest')
      | _ => none
    | _ => none
  | cs => some (none, cs)

/-- The sample that a line of a family is. -/
def sample? (name cs : List Char) : Option Sample :=
  match (dropStart? name cs).bind label? with
  | some (label, ' ' :: value) => some ⟨label, String.ofList value⟩
  | _ => none

/-- The kind with a name. -/
def Kind.ofName? (cs : List Char) : Option Kind :=
  [Kind.gauge, Kind.counter].find? fun k => k.name.toList = cs

/-! ## 3. Families -/

/-- Lines that start a comment. -/
def isComment (cs : List Char) : Bool := cs.head? == some '#'

/-- The families of a list of lines. -/
def families? : Nat → List (List Char) → Option (List Family)
  | _, [] => some []
  | 0, _ => none
  | _, [_] => none
  | fuel + 1, helpLine :: kindLine :: rest => do
    let (name, help) ← (dropStart? "# HELP ".toList helpLine).bind word?
    let (name', kindName) ← (dropStart? "# TYPE ".toList kindLine).bind word?
    let kind ← Kind.ofName? kindName
    if name = name' then
      let samples ← (rest.takeWhile (!isComment ·)).mapM (sample? name)
      let more ← families? fuel (rest.dropWhile (!isComment ·))
      pure (⟨String.ofList name, String.ofList help, kind, samples⟩ :: more)
    else none

/-- The lines of a text that ends with a line break. -/
def lines? : List Char → Option (List (List Char))
  | [] => some []
  | c :: rest =>
    match lines? rest with
    | none => none
    | some [] => if c = '\n' then some [[]] else none
    | some (l :: ls) => if c = '\n' then some ([] :: l :: ls) else some ((c :: l) :: ls)

/-- The families of an exposition. Every family has two lines of its own, so the number of lines
is fuel enough. -/
def parse? (s : String) : Option (List Family) :=
  match lines? s.toList with
  | some ls => families? ls.length ls
  | none => none

end ServiceHealth.Exposition
