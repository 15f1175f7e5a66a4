/-! Sets of characters, white space, and texts without it at their ends or in between. -/

namespace SqlDialects.Text

/-- Whether a code point is in the set that starts at the first bound, stops before the second,
starts again at the third, and so on. -/
def within : List Nat → Nat → Bool
  | [], _ => false
  | [start], n => start ≤ n
  | start :: stop :: rest, n => if n < start then false else n < stop || within rest n

def blankPoints : List Nat := [32, 133, 160, 5760, 8232, 8233, 8239, 8287, 12288]

def isBlank (c : Char) : Bool :=
  let n := c.toNat
  (9 ≤ n && n ≤ 13) || (8192 ≤ n && n ≤ 8202) || blankPoints.contains n

def dropBlanks (text : List Char) : List Char := text.dropWhile isBlank

def trimBlanks (text : List Char) : List Char := (dropBlanks (dropBlanks text).reverse).reverse

def trim (text : String) : String := String.ofList (trimBlanks text.toList)

def wordsFrom : List Char → List Char → List (List Char)
  | [], [] => []
  | word, [] => [word.reverse]
  | word, c :: rest =>
    if isBlank c then
      if word.isEmpty then wordsFrom [] rest else word.reverse :: wordsFrom [] rest
    else wordsFrom (c :: word) rest

def words (text : String) : List String := (wordsFrom [] text.toList).map String.ofList

@[simp] theorem dropBlanks_dropBlanks (text : List Char) :
    dropBlanks (dropBlanks text) = dropBlanks text := by
  induction text with
  | nil => rfl
  | cons c rest ih => by_cases h : isBlank c <;> simp_all [dropBlanks]

end SqlDialects.Text
