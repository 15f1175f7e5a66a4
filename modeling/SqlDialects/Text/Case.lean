import SqlDialects.Text.Property.CaseMapping
import SqlDialects.Text.Property.Cased

/-!
Lower and upper case of whole texts. A capital sigma that ends a word has a lower case of its
own, and some characters have several as their upper or lower case.
-/

namespace SqlDialects.Text

def capitalSigma : Char := Char.ofNat 931
def smallSigma : Char := Char.ofNat 963
def finalSigma : Char := Char.ofNat 962
def dottedCapitalI : Char := Char.ofNat 304

/-- The nearest character that a case rule sees has case. -/
def reachesCased (text : List Char) : Bool :=
  match text.dropWhile isCaseIgnorable with
  | [] => false
  | c :: _ => isCased c

def lowerChar (c : Char) : List Char :=
  if c.val < 128 then [c.toLower]
  else if c = dottedCapitalI then ['i', Char.ofNat 775]
  else [moveCase lowerRuns c]

def upperChar (c : Char) : List Char :=
  if c.val < 128 then [c.toUpper]
  else match upperExpansions.find? (·.1 == c.toNat) with
    | some (_, points) => points.map Char.ofNat
    | none => [moveCase upperRuns c]

/-- The lower case of what follows `before`, which holds the characters already passed, last
one first. -/
def lowerAfter : List Char → List Char → List Char
  | _, [] => []
  | before, c :: rest =>
    (if c = capitalSigma then
      [if reachesCased before && !reachesCased rest then finalSigma else smallSigma]
    else lowerChar c) ++ lowerAfter (c :: before) rest

def lower (text : String) : String := String.ofList (lowerAfter [] text.toList)

def upper (text : String) : String := String.ofList (text.toList.flatMap upperChar)

end SqlDialects.Text
