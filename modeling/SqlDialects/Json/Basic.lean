import SqlDialects.Json.Number
import SqlDialects.Json.Text

/-!
JSON documents as they are written: numbers and strings keep their texts, objects the order of
their members and every repetition of a name.
-/

namespace SqlDialects

inductive Json where
  | null
  | bool (b : Bool)
  | number (text : List Char)
  /-- The text between the quotes. -/
  | string (literal : List Char)
  | array (items : List Json)
  | object (members : List (List Char × Json))

namespace Json

def ofText (text : String) : Json := string (escape text.toList)

def ofInt (n : Int) : Json := number (Number.intText n).toList

def ofNat (n : Nat) : Json := number (Number.natText n).toList

def record (members : List (String × Json)) : Json :=
  object (members.map fun (name, value) => (escape name.toList, value))

def ofOption {α : Type} (f : α → Json) : Option α → Json
  | some a => f a
  | none => null

def tagged (tag : String) (value : Json) : Json := record [(tag, value)]

def decodeText? (literal : List Char) : Option String := (unescape? literal).map String.ofList

def text? : Json → Option String
  | string literal => decodeText? literal
  | _ => none

def bool? : Json → Option Bool
  | bool b => some b
  | _ => none

def numeralOf? : Json → Option Numeral
  | number text => numeral? text
  | _ => none

def int? (j : Json) : Option Int :=
  match j.numeralOf? with
  | some (.int n) => some n
  | _ => none

mutual
def print : Json → List Char
  | null => "null".toList
  | bool true => "true".toList
  | bool false => "false".toList
  | number text => text
  | string literal => '"' :: literal ++ ['"']
  | array items => '[' :: printItems items ++ [']']
  | object members => '{' :: printMembers members ++ ['}']

def printItems : List Json → List Char
  | [] => []
  | [item] => print item
  | item :: items => print item ++ ',' :: printItems items

def printMembers : List (List Char × Json) → List Char
  | [] => []
  | [member] => printMember member
  | member :: members => printMember member ++ ',' :: printMembers members

def printMember : List Char × Json → List Char
  | (name, value) => '"' :: name ++ '"' :: ':' :: print value
end

def text (j : Json) : String := String.ofList j.print

end Json

end SqlDialects
