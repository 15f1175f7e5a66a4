import SqlDialects.Number.Digits

/-!
The shortest decimal in an interval around a number: of the grids of 1, 2, … digits the first
with a point inside wins, and on it the point nearest the number.
-/

namespace SqlDialects.Number

structure Interval where
  lower : Nat
  value : Nat
  upper : Nat
  denominator : Nat
  /-- The bounds belong to the interval. -/
  closed : Bool

structure Scientific where
  coefficient : Nat
  exponent : Int
  deriving DecidableEq

inductive Tie where
  | up
  | toEven
  deriving DecidableEq

namespace Interval

def scaleDown (i : Interval) (exponent : Int) : Interval :=
  let up := pow10 (-exponent).toNat
  let down := pow10 exponent.toNat
  ⟨i.lower * up, i.value * up, i.upper * up, i.denominator * down, i.closed⟩

def contains (i : Interval) (point : Nat) : Bool :=
  if i.closed then i.lower ≤ point * i.denominator && point * i.denominator ≤ i.upper
  else i.lower < point * i.denominator && point * i.denominator < i.upper

def nearest? (i : Interval) (tie : Tie) : Option Nat :=
  let below := i.value / i.denominator
  let rest := i.value % i.denominator
  match i.contains below, i.contains (below + 1) with
  | false, false => none
  | true, false => some below
  | false, true => if rest = 0 then none else some (below + 1)
  | true, true =>
    if rest = 0 then some below
    else if 2 * rest < i.denominator then some below
    else if i.denominator < 2 * rest then some (below + 1)
    else match tie with
      | .up => some (below + 1)
      | .toEven => some (if below % 2 = 0 then below else below + 1)

def magnitude (i : Interval) : Int :=
  ((digits (i.value * pow10 400 / i.denominator)).length : Int) - 400

/-- Tries `count`, `count + 1`, … digits. A number just below a power of ten may round up to it. -/
def shortestFrom (i : Interval) (tie : Tie) (count : Nat) : Nat → Scientific
  | 0 => ⟨0, 0⟩
  | tries + 1 =>
    let exponent := i.magnitude - count
    match (i.scaleDown exponent).nearest? tie with
    | some coefficient =>
      if coefficient = pow10 count then ⟨1, exponent + count⟩ else ⟨coefficient, exponent⟩
    | none => i.shortestFrom tie (count + 1) tries

/-- Seventeen digits are always enough for a binary number of 53 bits. -/
def shortest (i : Interval) (tie : Tie) : Scientific := i.shortestFrom tie 1 17

end Interval

end SqlDialects.Number
