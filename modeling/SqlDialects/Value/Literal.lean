import SqlDialects.Number.FloatText
import SqlDialects.Text.Quote
import SqlDialects.Value.Basic

/-! Values as SQL literals, for reading by people. -/

namespace SqlDialects

open Number

/-- Numbers in literals never have an exponent, and whole ones no point. -/
def literalLayout : FloatLayout := ⟨.up, none, "", "", "NaN", "inf"⟩

/-- Midnight is written as its date, and parts of seconds are left out. -/
def Calendar.DateTime.literal (d : Calendar.DateTime) : List Char :=
  if d.time.isMidnight then d.date.chars else d.date.chars ++ ' ' :: d.time.chars

def quotedText (text : String) : String := String.ofList (Text.quote '\'' '\'' text.toList)

namespace Value

mutual
def literal : Value → String
  | null => "NULL"
  | bool b => if b then "true" else "false"
  | int n => intText n.toInt
  | uint n => natText n.toNat
  | float x => floatText literalLayout x
  | decimal d => d.text
  | string s => quotedText s
  | bytes bs => "'\\x" ++ String.ofList (Hex.chars bs) ++ "'"
  | uuid u => quotedText u.text
  | date d => quotedText d.text
  | dateTime d => quotedText (String.ofList d.literal)
  | array items => literals items
  | raw sql => sql
  | var name => ":" ++ name

def literals : List Value → String
  | [] => ""
  | [v] => v.literal
  | v :: vs => v.literal ++ "," ++ literals vs
end

end Value

end SqlDialects
