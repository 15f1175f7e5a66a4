import SqlDialects.Text.Blank
import SqlDialects.Text.Occurrences
import SqlDialects.Text.Property.Word

/-!
Column lists in braces: `users.{id, name}` stands for `users.id` and `users.name`. One or two
words, each with a dot, come before the brace.
-/

namespace SqlDialects.Text

def beforeLastBrace (text : List Char) : Option (List Char) :=
  match text.reverse.dropWhile (· != '}') with
  | [] => none
  | _ :: before => some before.reverse

def dottedWord? (text : List Char) : Option (List Char × List Char) :=
  match text.takeWhile isWord, text.dropWhile isWord with
  | c :: word, '.' :: rest => some (c :: word, rest)
  | _, _ => none

def bracePrefix? (text : List Char) : Option (List Char × List Char) :=
  match dottedWord? text with
  | some (first, '{' :: rest) => some (first, rest)
  | some (first, rest) =>
    match dottedWord? rest with
    | some (second, '{' :: rest) => some (first ++ '.' :: second, rest)
    | _ => none
  | none => none

/-- The columns that an expression lists. The braces end at the last closing brace of the line;
an expression of another form stands for itself. -/
def expandBraces (expression : String) : List String :=
  match bracePrefix? expression.toList with
  | none => [expression]
  | some (table, rest) =>
    match beforeLastBrace (rest.takeWhile (· != '\n')) with
    | none => [expression]
    | some inner =>
      (pieces [','] inner).map fun column => String.ofList (table ++ '.' :: trimBlanks column)

end SqlDialects.Text
