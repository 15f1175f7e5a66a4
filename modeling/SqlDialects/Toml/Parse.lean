import SqlDialects.Toml.Scalar

/-! Whole TOML documents, line by line. -/

namespace SqlDialects.Toml

def maxDepth : Nat := 79

def skipBlank : Nat → List Char → List Char
  | 0, text => text
  | fuel + 1, text =>
    let rest := skipComment (skipSpace text)
    match newline? rest with
    | some rest => skipBlank fuel rest
    | none => rest

def keyPath? (text : List Char) : Option (List String × String × List Char) := do
  let (parts, rest) ← key? (maxDepth + 1) text
  let last ← parts.getLast?
  if parts.length ≤ maxDepth then some (parts.dropLast, last, rest) else none

mutual
def value? : Nat → Nat → List Char → Option (Toml × List Char)
  | 0, _, _ => none
  | fuel + 1, depth, text =>
    match text with
    | '"' :: _ => (string? text).map fun (s, rest) => (.string s, rest)
    | '\'' :: _ => (string? text).map fun (s, rest) => (.string s, rest)
    | '[' :: rest =>
      match depth with
      | 0 => none
      | depth + 1 => (items? fuel depth rest).map fun (items, rest) => (.array items, rest)
    | '{' :: rest =>
      match depth with
      | 0 => none
      | depth + 1 =>
        match skipSpace rest with
        | '}' :: rest => some (.table .inline [], rest)
        | rest => (pairs? fuel depth [] rest).map fun (members, rest) =>
            (.table .inline members, rest)
    | 't' :: 'r' :: 'u' :: 'e' :: rest => some (.bool true, rest)
    | 'f' :: 'a' :: 'l' :: 's' :: 'e' :: rest => some (.bool false, rest)
    | text => (plain? text).map fun rest =>
        (.other (text.take (text.length - rest.length)), rest)

def items? : Nat → Nat → List Char → Option (List Toml × List Char)
  | 0, _, _ => none
  | fuel + 1, depth, text =>
    match skipBlank (fuel + 1) text with
    | ']' :: rest => some ([], rest)
    | text => do
      let (item, rest) ← value? fuel depth text
      match skipBlank (fuel + 1) rest with
      | ']' :: rest => return ([item], rest)
      | ',' :: rest =>
        let (items, rest) ← items? fuel depth rest
        return (item :: items, rest)
      | _ => none

def pairs? : Nat → Nat → Members → List Char → Option (Members × List Char)
  | 0, _, _, _ => none
  | fuel + 1, depth, members, text => do
    let (path, key, rest) ← keyPath? text
    let rest ← mark? '=' rest
    let (value, rest) ← value? fuel depth (skipSpace rest)
    let members ← assign path key value .inline members
    match skipSpace rest with
    | '}' :: rest => return (members, rest)
    | ',' :: rest => pairs? fuel depth members rest
    | _ => none
end

/-- A document as far as it is read: its tables, and the path of the table that is open. -/
structure Document where
  members : Members
  path : List String

namespace Document

def openHeader (d : Document) (repeated : Bool) (path : List String) (key : String) :
    Option Document :=
  (alter false (if repeated then openElement key else openTable key) .header path d.members).map
    (⟨·, path ++ [key]⟩)

def set (d : Document) (path : List String) (key : String) (value : Toml) : Option Document :=
  (alter false (assign path key value) .header d.path d.members).map (⟨·, d.path⟩)

end Document

def lineEnd? (text : List Char) : Option (List Char) :=
  match skipComment (skipSpace text) with
  | [] => some []
  | rest => newline? rest

def line? (d : Document) (text : List Char) : Option (Document × List Char) :=
  match text with
  | '[' :: '[' :: rest => do
    let (path, key, rest) ← keyPath? rest
    let rest ← mark? ']' rest
    let rest ← mark? ']' rest
    let rest ← lineEnd? rest
    let d ← d.openHeader true path key
    return (d, rest)
  | '[' :: rest => do
    let (path, key, rest) ← keyPath? rest
    let rest ← mark? ']' rest
    let rest ← lineEnd? rest
    let d ← d.openHeader false path key
    return (d, rest)
  | text => do
    let (path, key, rest) ← keyPath? text
    let rest ← mark? '=' rest
    let rest := skipSpace rest
    let (value, rest) ← value? (rest.length + 1) maxDepth rest
    let rest ← lineEnd? rest
    let d ← d.set path key value
    return (d, rest)

def lines? : Nat → Document → List Char → Option Document
  | 0, _, _ => none
  | fuel + 1, d, text =>
    match skipBlank (fuel + 1) text with
    | [] => some d
    | text => do
      let (d, rest) ← line? d text
      lines? fuel d rest

def parse? (text : String) : Option Members :=
  let cs := match text.toList with
    | c :: rest => if c.toNat = 0xFEFF then rest else c :: rest
    | [] => []
  (lines? (cs.length + 1) ⟨[], []⟩ cs).map (·.members)

end SqlDialects.Toml
