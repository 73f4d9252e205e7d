import ServiceHealth.Json.Text

/-!
# JSON documents

A document keeps the members of an object in the order in which they are written and a number as
its text. The writer leaves no blank between the parts of a document. The reader accepts the JSON
grammar with its blanks; its fuel is the length of the text, as every value starts with a
character of its own.
-/

namespace ServiceHealth

/-- A JSON document. A number is kept as its text, and an object has its members in order. -/
inductive Json where
  | null
  | bool (value : Bool)
  | number (digits : String)
  | text (value : String)
  | array (elements : List Json)
  | object (members : List (String × Json))

namespace Json

/-! ## 1. Writing -/

mutual

/-- The characters of a document. -/
def chars : Json → List Char
  | .null => ['n', 'u', 'l', 'l']
  | .bool true => ['t', 'r', 'u', 'e']
  | .bool false => ['f', 'a', 'l', 's', 'e']
  | .number digits => digits.toList
  | .text value => Text.encode value
  | .array elements => '[' :: (elementChars elements ++ [']'])
  | .object members => '\x7b' :: (memberChars members ++ ['\x7d'])

/-- The elements of an array, with commas between them. -/
def elementChars : List Json → List Char
  | [] => []
  | [x] => chars x
  | x :: y :: rest => chars x ++ ',' :: elementChars (y :: rest)

/-- The members of an object, with commas between them. -/
def memberChars : List (String × Json) → List Char
  | [] => []
  | [(k, x)] => Text.encode k ++ ':' :: chars x
  | (k, x) :: y :: rest => Text.encode k ++ ':' :: (chars x ++ ',' :: memberChars (y :: rest))

end

/-- The text of a document. -/
def render (j : Json) : String := String.ofList j.chars

/-! ## 2. Reading -/

/-- The blanks that may stand between the parts of a document. -/
def isGap (c : Char) : Bool := c == ' ' || c == '\t' || c == '\n' || c == '\r'

/-- What follows the blanks at the start. -/
def skipGap (cs : List Char) : List Char := cs.dropWhile isGap

/-- The digits at the start, and what follows them; there has to be one. -/
def digits? (cs : List Char) : Option (List Char × List Char) :=
  match cs.span Char.isDigit with
  | ([], _) => none
  | p => some p

/-- The whole part of a number: a zero, or digits that do not start with one. -/
def whole? : List Char → Option (List Char × List Char)
  | '0' :: rest => some (['0'], rest)
  | cs => digits? cs

/-- The fraction of a number, if there is one. -/
def fraction? : List Char → Option (List Char × List Char)
  | '.' :: rest => (digits? rest).map fun p => ('.' :: p.1, p.2)
  | cs => some ([], cs)

/-- The sign of an exponent, if there is one. -/
def signed : List Char → List Char × List Char
  | '+' :: rest => (['+'], rest)
  | '-' :: rest => (['-'], rest)
  | cs => ([], cs)

/-- The exponent of a number, if there is one. -/
def exponent? : List Char → Option (List Char × List Char)
  | c :: rest =>
    if c = 'e' ∨ c = 'E' then
      let (sign, rest') := signed rest
      (digits? rest').map fun p => (c :: (sign ++ p.1), p.2)
    else some ([], c :: rest)
  | [] => some ([], [])

/-- The number at the start, as its text. -/
def number? (cs : List Char) : Option (List Char × List Char) := do
  let (sign, cs) := match cs with
    | '-' :: rest => (['-'], rest)
    | cs => ([], cs)
  let (whole, cs) ← whole? cs
  let (fraction, cs) ← fraction? cs
  let (exponent, cs) ← exponent? cs
  pure (sign ++ whole ++ fraction ++ exponent, cs)

mutual

/-- The value at the start, after blanks, and what follows it. -/
def value? : Nat → List Char → Option (Json × List Char)
  | 0, _ => none
  | fuel + 1, cs =>
    match skipGap cs with
    | 'n' :: 'u' :: 'l' :: 'l' :: rest => some (.null, rest)
    | 't' :: 'r' :: 'u' :: 'e' :: rest => some (.bool true, rest)
    | 'f' :: 'a' :: 'l' :: 's' :: 'e' :: rest => some (.bool false, rest)
    | '"' :: rest => (Text.scan rest).map fun p => (.text (String.ofList p.1), p.2)
    | '[' :: rest =>
      match skipGap rest with
      | ']' :: rest' => some (.array [], rest')
      | _ => (elements? fuel rest).map fun p => (.array p.1, p.2)
    | '\x7b' :: rest =>
      match skipGap rest with
      | '\x7d' :: rest' => some (.object [], rest')
      | _ => (members? fuel rest).map fun p => (.object p.1, p.2)
    | cs' => (number? cs').map fun p => (.number (String.ofList p.1), p.2)

/-- The elements of an array up to its end. -/
def elements? : Nat → List Char → Option (List Json × List Char)
  | 0, _ => none
  | fuel + 1, cs => do
    let (x, rest) ← value? fuel cs
    match skipGap rest with
    | ']' :: rest' => pure ([x], rest')
    | ',' :: rest' =>
      let (xs, rest'') ← elements? fuel rest'
      pure (x :: xs, rest'')
    | _ => none

/-- The members of an object up to its end. -/
def members? : Nat → List Char → Option (List (String × Json) × List Char)
  | 0, _ => none
  | fuel + 1, cs =>
    match skipGap cs with
    | '"' :: rest => do
      let (k, rest) ← Text.scan rest
      match skipGap rest with
      | ':' :: rest =>
        let (x, rest) ← value? fuel rest
        match skipGap rest with
        | '\x7d' :: rest' => pure ([(String.ofList k, x)], rest')
        | ',' :: rest' =>
          let (xs, rest'') ← members? fuel rest'
          pure ((String.ofList k, x) :: xs, rest'')
        | _ => none
      | _ => none
    | _ => none

end

/-- The document that a text is, if it is one. -/
def parse? (s : String) : Option Json :=
  match value? (s.length + 1) s.toList with
  | some (j, rest) => if skipGap rest = [] then some j else none
  | none => none

end Json

end ServiceHealth
