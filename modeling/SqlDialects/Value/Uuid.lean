import SqlDialects.Text.Hex

/-! Unique identifiers: sixteen bytes, shown as groups of hexadecimal digits. -/

namespace SqlDialects

structure Uuid where
  bytes : List UInt8
  length_eq : bytes.length = 16
  deriving DecidableEq

namespace Uuid

def group (digits : List Char) : List Char :=
  digits.take 8 ++ '-' :: (digits.drop 8).take 4 ++ '-' :: (digits.drop 12).take 4 ++
    '-' :: (digits.drop 16).take 4 ++ '-' :: digits.drop 20

def text (u : Uuid) : String := String.ofList (group (Hex.chars u.bytes))

def ofDigits? (digits : List Char) : Option Uuid := do
  let bytes ← Hex.bytes? digits
  if h : bytes.length = 16 then some ⟨bytes, h⟩ else none

def ungroup? (text : List Char) : Option (List Char) :=
  let digits := text.filter (· != '-')
  if group digits = text then some digits else none

def ofText? (text : String) : Option Uuid :=
  let cs := text.toList
  let body :=
    if cs.take 9 = "urn:uuid:".toList then cs.drop 9
    else match cs with
      | '{' :: rest => if rest.getLast? = some '}' then rest.dropLast else cs
      | _ => cs
  if cs.length = 32 then ofDigits? cs else (ungroup? body).bind ofDigits?

end Uuid

end SqlDialects
