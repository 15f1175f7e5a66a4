import SqlDialects.Number.FloatText

/-!
Numbers in JSON. Integers that fit 64 bits are exact; other numbers are floating-point, computed
in that arithmetic from the digits that fit a word and a power of ten.
-/

namespace SqlDialects.Json

open Number

inductive Numeral where
  | int (n : Int)
  | float (x : Float)

/-- An exponent, always with a sign, appears beyond sixteen digits before the point or four zeros
behind it. -/
def numberLayout : FloatLayout := ⟨.toEven, some (-4, 16), ".0", "+", "null", "null"⟩

structure Significand where
  value : Nat
  exponent : Int
  full : Bool

namespace Significand

/-- Digits before the point: once the word is full, each one more counts as a power of ten. -/
def addWhole (s : Significand) (c : Char) : Significand :=
  let next := 10 * s.value + (c.toNat - 48)
  if s.full then { s with exponent := s.exponent + 1 }
  else if next < pow2 64 then { s with value := next }
  else { s with exponent := s.exponent + 1, full := true }

/-- Digits after the point: those that do not fit, and all after them, are dropped. -/
def addFraction : Significand → List Char → Significand
  | s, [] => s
  | s, c :: rest =>
    let next := 10 * s.value + (c.toNat - 48)
    if next < pow2 64 then addFraction { s with value := next, exponent := s.exponent - 1 } rest
    else s

def divide : Nat → Float → Nat → Float
  | 0, _, _ => 0
  | tries + 1, x, power =>
    if power ≤ 308 then x / Float.ofScientific 1 false power
    else if x == 0 then x
    else divide tries (x / 1e308) (power - 308)

def toFloat? (negative : Bool) (s : Significand) : Option Float := do
  let x := UInt64.toFloat (UInt64.ofNat s.value)
  let magnitude ←
    if s.exponent < 0 then some (divide 4 x s.exponent.natAbs)
    else if s.exponent ≤ 308 then
      let y := x * Float.ofScientific 1 false s.exponent.toNat
      if y.isInf then none else some y
    else if x == 0 then some x
    else none
  return if negative then -magnitude else magnitude

end Significand

def spanDigits (text : List Char) : List Char × List Char :=
  (text.takeWhile Char.isDigit, text.dropWhile Char.isDigit)

def numeral? (text : List Char) : Option Numeral :=
  let (negative, body) := match text with
    | '-' :: rest => (true, rest)
    | rest => (false, rest)
  let (whole, rest) := spanDigits body
  let s := whole.foldl Significand.addWhole ⟨0, 0, false⟩
  if rest.isEmpty && !s.full then
    let n : Int := if negative then -s.value else s.value
    if negative && (s.value == 0 || pow2 63 < s.value) then
      some (.float (-UInt64.toFloat (UInt64.ofNat s.value)))
    else some (.int n)
  else
    let (s, rest) := match rest with
      | '.' :: rest =>
        let (fraction, rest) := spanDigits rest
        (s.addFraction fraction, rest)
      | rest => (s, rest)
    match rest with
    | [] => (s.toFloat? negative).map .float
    | _ :: rest =>
      let (low, power) := splitSign rest
      let p := ofDigits power
      if pow2 31 ≤ p then
        if s.value ≠ 0 ∧ !low then none else some (.float (if negative then -0 else 0))
      else
        let exponent := if low then s.exponent - p else s.exponent + p
        (({ s with exponent := exponent } : Significand).toFloat? negative).map .float

end SqlDialects.Json
