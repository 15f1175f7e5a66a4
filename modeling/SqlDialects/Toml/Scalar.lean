import SqlDialects.Calendar.Date
import SqlDialects.Number.FloatText
import SqlDialects.Toml.Basic
import SqlDialects.Text.Hex

/-!
Single values and keys of TOML. Each reader returns what it has read and the text after it.
-/

namespace SqlDialects.Toml

open Number

def isSpace (c : Char) : Bool := c == ' ' || c == '\t'

def skipSpace (text : List Char) : List Char := text.dropWhile isSpace

def isLineChar (c : Char) : Bool := c == '\t' || (32 ≤ c.toNat && c.toNat != 127)

def newline? : List Char → Option (List Char)
  | '\n' :: rest => some rest
  | '\r' :: '\n' :: rest => some rest
  | _ => none

def skipComment : List Char → List Char
  | '#' :: rest => rest.dropWhile isLineChar
  | rest => rest

def hexNumber? : Nat → Nat → List Char → Option (Nat × List Char)
  | 0, n, rest => some (n, rest)
  | count + 1, n, c :: rest => do
    let d ← Hex.value? c
    hexNumber? count (16 * n + d) rest
  | _ + 1, _, [] => none

def scalarChar? (n : Nat) : Option Char :=
  if n < 0xD800 ∨ 0xDFFF < n ∧ n < 0x110000 then some (Char.ofNat n) else none

def escape? : List Char → Option (Char × List Char)
  | 'b' :: rest => some ('\x08', rest)
  | 't' :: rest => some ('\t', rest)
  | 'n' :: rest => some ('\n', rest)
  | 'f' :: rest => some ('\x0c', rest)
  | 'r' :: rest => some ('\r', rest)
  | '"' :: rest => some ('"', rest)
  | '\\' :: rest => some ('\\', rest)
  | 'u' :: rest => do
    let (n, rest) ← hexNumber? 4 0 rest
    let c ← scalarChar? n
    return (c, rest)
  | 'U' :: rest => do
    let (n, rest) ← hexNumber? 8 0 rest
    let c ← scalarChar? n
    return (c, rest)
  | _ => none

def basicText : Nat → List Char → Option (List Char × List Char)
  | 0, _ => none
  | _ + 1, '"' :: rest => some ([], rest)
  | fuel + 1, '\\' :: rest => do
    let (c, rest) ← escape? rest
    let (s, rest) ← basicText fuel rest
    return (c :: s, rest)
  | fuel + 1, c :: rest =>
    if isLineChar c then (basicText fuel rest).map fun (s, rest) => (c :: s, rest) else none
  | _ + 1, [] => none

def literalText : List Char → Option (List Char × List Char)
  | [] => none
  | c :: rest =>
    if c = '\'' then some ([], rest)
    else if isLineChar c then (literalText rest).map fun (s, rest) => (c :: s, rest)
    else none

/-- Quotes at the end of a text of several lines: three close it, and up to two before them
belong to it. -/
def closing? (quote : Char) (text : List Char) : Option (List Char × List Char) :=
  let run := (text.takeWhile (· == quote)).length
  if run < 3 then none
  else
    let kept := min (run - 3) 2
    some (List.replicate kept quote, text.drop (kept + 3))

def foldedLine? (text : List Char) : Option (List Char) :=
  (newline? (skipSpace text)).map skipBreaks
where
  skipBreaks (text : List Char) : List Char :=
    text.dropWhile fun c => isSpace c || c == '\n' || c == '\r'

/-- The rest of a text of several lines; in one with double quotes a backslash escapes. -/
def multilineText (quote : Char) : Nat → List Char → Option (List Char × List Char)
  | 0, _ => none
  | _ + 1, [] => none
  | fuel + 1, c :: rest =>
    match closing? quote (c :: rest) with
    | some r => some r
    | none =>
      match newline? (c :: rest) with
      | some rest => (multilineText quote fuel rest).map fun (s, rest) => ('\n' :: s, rest)
      | none =>
        if c = '\\' ∧ quote = '"' then
          match foldedLine? rest with
          | some rest => multilineText quote fuel rest
          | none => do
            let (c, rest) ← escape? rest
            let (s, rest) ← multilineText quote fuel rest
            return (c :: s, rest)
        else if isLineChar c then
          (multilineText quote fuel rest).map fun (s, rest) => (c :: s, rest)
        else none

def openLine (text : List Char) : List Char := (newline? text).getD text

def string? (text : List Char) : Option (String × List Char) :=
  (match text with
  | '"' :: '"' :: '"' :: rest => multilineText '"' (rest.length + 1) (openLine rest)
  | '\'' :: '\'' :: '\'' :: rest => multilineText '\'' (rest.length + 1) (openLine rest)
  | '"' :: rest => basicText (rest.length + 1) rest
  | '\'' :: rest => literalText rest
  | _ => none).map fun (s, rest) => (String.ofList s, rest)

def isKeyChar (c : Char) : Bool := c.isAlphanum || c == '_' || c == '-'

def keyPart? : List Char → Option (String × List Char)
  | '"' :: rest => (basicText (rest.length + 1) rest).map fun (s, rest) => (String.ofList s, rest)
  | '\'' :: rest => (literalText rest).map fun (s, rest) => (String.ofList s, rest)
  | text =>
    match text.takeWhile isKeyChar with
    | [] => none
    | word => some (String.ofList word, text.dropWhile isKeyChar)

def key? : Nat → List Char → Option (List String × List Char)
  | 0, _ => none
  | fuel + 1, text => do
    let (part, rest) ← keyPart? (skipSpace text)
    match skipSpace rest with
    | '.' :: rest =>
      let (parts, rest) ← key? fuel rest
      return (part :: parts, rest)
    | rest => return ([part], rest)

def digitRun (isDigit : Char → Bool) : List Char → Option (List Char × List Char)
  | [] => none
  | c :: rest =>
    if !isDigit c then none
    else match rest with
      | '_' :: rest => (digitRun isDigit rest).map fun (ds, rest) => (c :: ds, rest)
      | d :: rest =>
        if isDigit d then (digitRun isDigit (d :: rest)).map fun (ds, rest) => (c :: ds, rest)
        else some ([c], d :: rest)
      | [] => some ([c], [])

def wholeRun : List Char → Option (List Char × List Char)
  | '0' :: rest => some (['0'], rest)
  | text => digitRun Char.isDigit text

def inRange (negative : Bool) (n : Nat) : Bool := n < pow2 63 || negative && n == pow2 63

def basedInteger? (base : Nat) (isDigit : Char → Bool) (text : List Char) : Option (List Char) := do
  let (ds, rest) ← digitRun isDigit text
  let n := ds.foldl (fun n c => base * n + (Hex.value? c).getD 0) 0
  if inRange false n then some rest else none

def decimalTail? (text : List Char) : Option (Option (List Char × Int) × List Char) := do
  let (fraction, rest) ← match text with
    | '.' :: rest => (digitRun Char.isDigit rest).map fun (ds, rest) => (some ds, rest)
    | rest => some (none, rest)
  let (power, rest) ← match rest with
    | c :: rest =>
      if c == 'e' || c == 'E' then
        let (low, body) := splitSign rest
        (digitRun Char.isDigit body).map fun (ds, rest) =>
          (some (if low then -(ofDigits ds : Int) else ofDigits ds), rest)
      else some (none, c :: rest)
    | [] => some (none, [])
  match fraction, power with
  | none, none => return (none, rest)
  | _, _ => return (some (fraction.getD [], power.getD 0), rest)

def afterWord? (word text : List Char) : Option (List Char) :=
  if word.isPrefixOf text then some (text.drop word.length) else none

/-- A number: infinite or undefined by name, or whole within 64 bits, or with places or an
exponent and not too great. -/
def number? (text : List Char) : Option (List Char) :=
  let (negative, body) := splitSign text
  match afterWord? "inf".toList body, afterWord? "nan".toList body with
  | some rest, _ => some rest
  | none, some rest => some rest
  | none, none => do
    let (whole, rest) ← wholeRun body
    let (tail, rest) ← decimalTail? rest
    match tail with
    | none => if inRange negative (ofDigits whole) then some rest else none
    | some (fraction, power) =>
      let x := floatOfScientific negative (ofDigits (whole ++ fraction)) (power - fraction.length)
      if x == 1 / 0 then none else some rest

def field? (width low high : Nat) (text : List Char) : Option (Nat × List Char) :=
  let ds := text.take width
  if ds.length = width ∧ allDigits ds then
    let n := ofDigits ds
    if low ≤ n ∧ n ≤ high then some (n, text.drop width) else none
  else none

def mark? (c : Char) : List Char → Option (List Char)
  | d :: rest => if c = d then some rest else none
  | [] => none

def minutes? (text : List Char) : Option (List Char) := do
  let (_, rest) ← field? 2 0 59 text
  let rest ← mark? ':' rest
  let (_, rest) ← field? 2 0 60 rest
  match rest with
  | '.' :: more =>
    let run := more.takeWhile Char.isDigit
    if run.isEmpty then some rest else some (more.drop run.length)
  | rest => some rest

/-- What a text turns out to be: nothing of the kind, something broken, or read to its end. -/
inductive Attempt where
  | absent
  | broken
  | read (rest : List Char)

def clock (text : List Char) : Attempt :=
  match (field? 2 0 23 text).bind fun (_, rest) => mark? ':' rest with
  | none => .absent
  | some rest => match minutes? rest with
    | some rest => .read rest
    | none => .broken

def offset (text : List Char) : Attempt :=
  match text with
  | c :: rest =>
    if c = 'Z' ∨ c = 'z' then .read rest
    else if c = '+' ∨ c = '-' then
      match (field? 2 0 23 rest).bind fun (_, rest) => mark? ':' rest with
      | none => .broken
      | some rest => match field? 2 0 59 rest with
        | some (_, rest) => .read rest
        | none => .broken
    else .absent
  | [] => .absent

def moment (text : List Char) : Attempt :=
  match (field? 4 0 9999 text).bind fun (y, rest) => (mark? '-' rest).map (y, ·) with
  | none => clock text
  | some (year, rest) =>
    let day? := do
      let (month, rest) ← field? 2 1 12 rest
      let rest ← mark? '-' rest
      let (_, rest) ← field? 2 1 (Calendar.daysIn year month) rest
      return rest
    match day? with
    | none => .broken
    | some rest => match rest with
      | c :: time =>
        if c = 'T' ∨ c = 't' ∨ c = ' ' then
          match clock time with
          | .absent => .read (c :: time)
          | .broken => .broken
          | .read rest => match offset rest with
            | .absent => .read rest
            | .broken => .broken
            | .read rest => .read rest
        else .read (c :: time)
      | [] => .read []

def isBinary (c : Char) : Bool := c == '0' || c == '1'

def isOctal (c : Char) : Bool := '0' ≤ c && c ≤ '7'

def plain? (text : List Char) : Option (List Char) :=
  match moment text with
  | .read rest => some rest
  | .broken => none
  | .absent => match text with
    | '0' :: 'x' :: rest => basedInteger? 16 (fun c => (Hex.value? c).isSome) rest
    | '0' :: 'o' :: rest => basedInteger? 8 isOctal rest
    | '0' :: 'b' :: rest => basedInteger? 2 isBinary rest
    | text => number? text

end SqlDialects.Toml
