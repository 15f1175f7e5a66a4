import SqlDialects.Compiler
import SqlDialects.Text.Property.Printable

/-! Compilers described for people who look for mistakes. -/

namespace SqlDialects

def codePointChars (c : Char) : List Char := Nat.toDigits 16 c.toNat

def describeChar (c : Char) : List Char :=
  if c = '\x00' then ['\\', '0']
  else if c = '\t' then ['\\', 't']
  else if c = '\n' then ['\\', 'n']
  else if c = '\r' then ['\\', 'r']
  else if c = '"' ∨ c = '\\' then ['\\', c]
  else if Text.isPrintable c then [c]
  else '\\' :: 'u' :: '{' :: codePointChars c ++ ['}']

def describeText (text : String) : String :=
  String.ofList ('"' :: text.toList.flatMap describeChar ++ ['"'])

def Compiler.describe (c : Compiler) : String :=
  "Compiler \x7b engine: " ++ c.engine.name ++
    ", legacy_pagination: " ++ (if c.legacyPaging then "true" else "false") ++
    ", parameter_prefix: " ++ describeText c.markerPrefix ++
    ", user_operators: \x7b" ++ ", ".intercalate (c.operators.map describeText) ++ "\x7d \x7d"

end SqlDialects
