import SqlDialects.Number.Digits

/-!
Decimal numbers that keep the zeros at their end: a coefficient of 96 bits and at most 28 places.
-/

namespace SqlDialects.Number

structure Decimal where
  /-- A zero has a sign only if a negative number was rounded to it. -/
  negative : Bool
  coefficient : Nat
  scale : Nat
  coefficient_lt : coefficient < pow2 96
  scale_le : scale ≤ 28
  deriving DecidableEq

namespace Decimal

def ofParts? (negative : Bool) (coefficient scale : Nat) : Option Decimal :=
  if h : coefficient < pow2 96 ∧ scale ≤ 28 then
    some ⟨negative, coefficient, scale, h.1, h.2⟩
  else none

def make? (negative : Bool) (coefficient scale : Nat) : Option Decimal :=
  ofParts? (negative && coefficient != 0) coefficient scale

/-- The value over `10 ^ 28`. -/
def numerator (d : Decimal) : Int :=
  let n : Int := d.coefficient * pow10 (28 - d.scale)
  if d.negative then -n else n

/-- Two decimals are the same number; the count of places does not matter. -/
def sameNumber (a b : Decimal) : Bool := a.numerator == b.numerator

def text (d : Decimal) : String :=
  let ds := padded (d.scale + 1) d.coefficient
  let whole := ds.take (ds.length - d.scale)
  let places := ds.drop (ds.length - d.scale)
  (if d.negative then "-" else "") ++
    String.ofList (if d.scale = 0 then whole else whole ++ '.' :: places)

/-- The coefficient rounded by the first digit that does not fit, a five going up. -/
def rounded (negative : Bool) (coefficient scale : Nat) (next : Char) : Option Decimal :=
  let up := '5' ≤ next && next ≤ '9'
  let coefficient := if up then coefficient + 1 else coefficient
  if coefficient < pow2 96 then make? negative coefficient scale
  else if scale = 0 then none
  else make? negative ((coefficient + 4) / 10) (scale - 1)

def isDropped (c : Char) : Bool := c.isDigit || c == '_'

/-- Reads the digits after those of `coefficient`. A separator may follow any digit, the point
may stand once, and digits beyond the capacity round. -/
def readFrom (negative seen pointSeen : Bool) (coefficient scale : Nat) : List Char → Option Decimal
  | [] => if seen then make? negative coefficient scale else none
  | c :: rest =>
    if pointSeen && scale = 28 && (isDropped c || c == '.') then
      if rest.all isDropped then rounded negative coefficient scale c else none
    else if c.isDigit then
      let next := 10 * coefficient + (c.toNat - 48)
      if next < pow2 96 then
        readFrom negative true pointSeen next (if pointSeen then scale + 1 else scale) rest
      else if pointSeen && rest.all isDropped then rounded negative coefficient scale c
      else none
    else if c == '.' && !pointSeen then readFrom negative seen true coefficient scale rest
    else if c == '_' && seen then readFrom negative seen pointSeen coefficient scale rest
    else none

def readPlain? (text : List Char) : Option Decimal :=
  match text with
  | '-' :: rest => readFrom true false false 0 0 rest
  | '+' :: rest => readFrom false false false 0 0 rest
  | text => readFrom false false false 0 0 text

def divideRound (n places : Nat) : Nat := (n + pow10 places / 2) / pow10 places

def shift? (d : Decimal) (exponent : Int) : Option Decimal :=
  let scale : Int := d.scale - exponent
  if scale < 0 then ofParts? d.negative (d.coefficient * pow10 (-scale).toNat) 0
  else ofParts? d.negative (divideRound d.coefficient (scale.toNat - 28)) (min scale.toNat 28)

/-- An exponent, of at most 28 either way. A plus sign may follow a minus sign. -/
def readExponent? (text : List Char) : Option Int :=
  let (low, unsigned) := match text with
    | '-' :: rest => (true, rest)
    | rest => (false, rest)
  let ds := match unsigned with
    | '+' :: rest => rest
    | rest => rest
  if ds.isEmpty || !ds.all Char.isDigit || 28 < ofDigits ds then none
  else some (if low then -ofDigits ds else ofDigits ds)

def readScientific? (text : List Char) : Option Decimal :=
  match text.dropWhile (fun c => c.toLower != 'e') with
  | [] => none
  | _ :: power => do
    let base ← readPlain? (text.takeWhile fun c => c.toLower != 'e')
    base.shift? (← readExponent? power)

def ofText? (text : String) : Option Decimal :=
  match readPlain? text.toList with
  | some d => some d
  | none => readScientific? text.toList

def ofInt? (n : Int) : Option Decimal := make? (n < 0) n.natAbs 0

end Decimal

end SqlDialects.Number
