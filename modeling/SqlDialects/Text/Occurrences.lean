/-!
Occurrences of one text in another, found from the left without overlap. A text is the pieces
between the occurrences; numbering or replacing occurrences weaves the pieces together again.
-/

namespace SqlDialects.Text

def consFirst (c : Char) : List (List Char) → List (List Char)
  | [] => [[c]]
  | piece :: rest => (c :: piece) :: rest

/-- The pieces around `needle`, where the next `skip` characters belong to an occurrence. -/
def piecesFrom (needle : List Char) : Nat → List Char → List (List Char)
  | _, [] => [[]]
  | skip + 1, _ :: rest => piecesFrom needle skip rest
  | 0, c :: rest =>
    if needle.isPrefixOf (c :: rest) then [] :: piecesFrom needle (needle.length - 1) rest
    else consFirst c (piecesFrom needle 0 rest)

def pieces (needle text : List Char) : List (List Char) := piecesFrom needle 0 text

/-- The pieces with `mark i`, `mark (i + 1)`, … between them. -/
def weave (mark : Nat → List Char) : Nat → List (List Char) → List Char
  | _, [] => []
  | _, [piece] => piece
  | i, piece :: rest => piece ++ mark i ++ weave mark (i + 1) rest

def bytes : List Char → Nat
  | [] => 0
  | c :: rest => c.utf8Size + bytes rest

def pieceEnds (needle : List Char) : Nat → List (List Char) → List Nat
  | _, [] => []
  | _, [_] => []
  | start, piece :: rest =>
    (start + bytes piece) :: pieceEnds needle (start + bytes piece + bytes needle) rest

def indexesOf (needle text : String) : List Nat :=
  if needle.isEmpty then [] else pieceEnds needle.toList 0 (pieces needle.toList text.toList)

/-- The text with its `i`-th occurrence of `needle` replaced by `mark i`. -/
def replaceEach (needle : String) (mark : Nat → String) (text : String) : String :=
  if needle.isEmpty then text
  else String.ofList (weave (fun i => (mark i).toList) 0 (pieces needle.toList text.toList))

theorem consFirst_ne_nil (c : Char) (ps : List (List Char)) : consFirst c ps ≠ [] := by
  cases ps <;> simp [consFirst]

theorem piecesFrom_ne_nil (needle : List Char) (skip : Nat) (text : List Char) :
    piecesFrom needle skip text ≠ [] := by
  induction text generalizing skip with
  | nil => simp [piecesFrom]
  | cons c rest ih =>
    cases skip with
    | zero =>
      rw [piecesFrom]
      split
      · simp
      · exact consFirst_ne_nil c _
    | succ skip => simpa [piecesFrom] using ih skip

@[simp] theorem weave_singleton (mark : Nat → List Char) (i : Nat) (piece : List Char) :
    weave mark i [piece] = piece := rfl

@[simp] theorem length_pieceEnds (needle : List Char) (start : Nat) (ps : List (List Char)) :
    (pieceEnds needle start ps).length = ps.length - 1 := by
  induction ps generalizing start with
  | nil => rfl
  | cons p ps ih => cases ps with
    | nil => rfl
    | cons q ps => simp [pieceEnds, ih]

end SqlDialects.Text
