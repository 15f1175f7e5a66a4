import SqlDialects.Json.Basic

/-! Reading JSON. Each reader returns what it has read and the text after it. -/

namespace SqlDialects.Json

def isSpace (c : Char) : Bool := c == ' ' || c == '\n' || c == '\t' || c == '\r'

def skipSpace (text : List Char) : List Char := text.dropWhile isSpace

def isHex (c : Char) : Bool := (Hex.value? c).isSome

/-- A string literal up to its closing quote, with the escapes in it left as they are. -/
def lexString : List Char → Option (List Char × List Char)
  | [] => none
  | '"' :: rest => some ([], rest)
  | '\\' :: 'u' :: a :: b :: c :: d :: rest =>
    if isHex a && isHex b && isHex c && isHex d then
      (lexString rest).map fun (s, rest) => ('\\' :: 'u' :: a :: b :: c :: d :: s, rest)
    else none
  | '\\' :: c :: rest =>
    if (escaped? c).isSome then (lexString rest).map fun (s, rest) => ('\\' :: c :: s, rest)
    else none
  | c :: rest =>
    if c.toNat < 32 || c == '\\' then none
    else (lexString rest).map fun (s, rest) => (c :: s, rest)

def lexDigits (text : List Char) : Option (List Char × List Char) :=
  match spanDigits text with
  | ([], _) => none
  | (ds, rest) => some (ds, rest)

def lexWhole : List Char → Option (List Char × List Char)
  | '0' :: rest => some (['0'], rest)
  | text => lexDigits text

def lexFraction : List Char → Option (List Char × List Char)
  | '.' :: rest => (lexDigits rest).map fun (ds, rest) => ('.' :: ds, rest)
  | rest => some ([], rest)

def lexExponent : List Char → Option (List Char × List Char)
  | e :: rest =>
    if e != 'e' && e != 'E' then some ([], e :: rest)
    else match rest with
      | '+' :: rest => (lexDigits rest).map fun (ds, rest) => (e :: '+' :: ds, rest)
      | '-' :: rest => (lexDigits rest).map fun (ds, rest) => (e :: '-' :: ds, rest)
      | rest => (lexDigits rest).map fun (ds, rest) => (e :: ds, rest)
  | [] => some ([], [])

def lexNumber (text : List Char) : Option (List Char × List Char) := do
  let (sign, rest) := match text with
    | '-' :: rest => (['-'], rest)
    | rest => ([], rest)
  let (whole, rest) ← lexWhole rest
  let (fraction, rest) ← lexFraction rest
  let (exponent, rest) ← lexExponent rest
  return (sign ++ whole ++ fraction ++ exponent, rest)

def afterWord? : List Char → List Char → Option (List Char)
  | [], rest => some rest
  | c :: word, d :: rest => if c = d then afterWord? word rest else none
  | _ :: _, [] => none

mutual
/-- A value after any space. The fuel bounds the nesting and the length together. -/
def parseValue : Nat → List Char → Option (Json × List Char)
  | 0, _ => none
  | fuel + 1, text =>
    match skipSpace text with
    | 'n' :: rest => (afterWord? ['u', 'l', 'l'] rest).map (null, ·)
    | 't' :: rest => (afterWord? ['r', 'u', 'e'] rest).map (bool true, ·)
    | 'f' :: rest => (afterWord? ['a', 'l', 's', 'e'] rest).map (bool false, ·)
    | '"' :: rest => (lexString rest).map fun (s, rest) => (string s, rest)
    | '[' :: rest =>
      match skipSpace rest with
      | ']' :: rest => some (array [], rest)
      | rest => (parseItems fuel rest).map fun (items, rest) => (array items, rest)
    | '{' :: rest =>
      match skipSpace rest with
      | '}' :: rest => some (object [], rest)
      | rest => (parseMembers fuel rest).map fun (members, rest) => (object members, rest)
    | rest => (lexNumber rest).map fun (n, rest) => (number n, rest)

def parseItems : Nat → List Char → Option (List Json × List Char)
  | 0, _ => none
  | fuel + 1, text => do
    let (item, rest) ← parseValue fuel text
    match skipSpace rest with
    | ',' :: rest =>
      let (items, rest) ← parseItems fuel rest
      return (item :: items, rest)
    | ']' :: rest => return ([item], rest)
    | _ => none

def parseMembers : Nat → List Char → Option (List (List Char × Json) × List Char)
  | 0, _ => none
  | fuel + 1, text => do
    let (name, rest) ← match skipSpace text with
      | '"' :: rest => lexString rest
      | _ => none
    let rest ← match skipSpace rest with
      | ':' :: rest => some rest
      | _ => none
    let (value, rest) ← parseValue fuel rest
    match skipSpace rest with
    | ',' :: rest =>
      let (members, rest) ← parseMembers fuel rest
      return ((name, value) :: members, rest)
    | '}' :: rest => return ([(name, value)], rest)
    | _ => none
end

def parse? (text : String) : Option Json :=
  match parseValue (text.length + 1) text.toList with
  | some (j, rest) => if (skipSpace rest).isEmpty then some j else none
  | none => none

end SqlDialects.Json
