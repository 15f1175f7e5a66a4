import SqlDialects.Number.Shortest

/-!
Texts of binary floating-point numbers: the fewest digits that read back, laid out as a
`FloatLayout` says.
-/

namespace SqlDialects.Number

/-- What the bits of a floating-point number say; a finite one is `mantissa · 2 ^ exponent`. -/
inductive FloatParts where
  | nan
  | infinite (negative : Bool)
  | finite (negative : Bool) (mantissa : Nat) (exponent : Int)

def floatParts (x : Float) : FloatParts :=
  let bits := x.toBits.toNat
  let negative := bits / pow2 63 = 1
  let biased : Nat := bits / pow2 52 % pow2 11
  let fraction : Nat := bits % pow2 52
  if biased = 2047 then
    if fraction = 0 then .infinite negative else .nan
  else if biased = 0 then .finite negative fraction (-1074)
  else .finite negative (pow2 52 + fraction) ((biased : Int) - 1075)

/-- The reals that round to the number, over a quarter of its last place. -/
def roundingInterval (mantissa : Nat) (exponent : Int) : Interval :=
  let gap := if mantissa = pow2 52 ∧ exponent ≠ -1074 then 1 else 2
  let scale := pow2 (exponent - 2).toNat
  ⟨(4 * mantissa - gap) * scale, 4 * mantissa * scale, (4 * mantissa + 2) * scale,
    pow2 (2 - exponent).toNat, mantissa % 2 == 0⟩

structure FloatLayout where
  tie : Tie
  /-- The least and the greatest number of digits before the point that are written without an
  exponent. -/
  positional : Option (Int × Int)
  /-- What stands after a whole number. -/
  wholeSuffix : String
  /-- What stands in front of an exponent that is not negative. -/
  exponentSign : String
  nan : String
  infinity : String

def pointed (layout : FloatLayout) (s : Scientific) : List Char :=
  let ds := digits s.coefficient
  let point : Int := ds.length + s.exponent
  if 0 ≤ s.exponent then ds ++ zeros s.exponent.toNat ++ layout.wholeSuffix.toList
  else if 0 < point then ds.take point.toNat ++ '.' :: ds.drop point.toNat
  else '0' :: '.' :: zeros (-point).toNat ++ ds

def exponential (layout : FloatLayout) (s : Scientific) : List Char :=
  let ds := digits s.coefficient
  let exponent : Int := ds.length + s.exponent - 1
  let sign := if exponent < 0 then [] else layout.exponentSign.toList
  ds.take 1 ++ (if ds.length = 1 then [] else '.' :: ds.drop 1) ++
    'e' :: sign ++ (intText exponent).toList

def scientificText (layout : FloatLayout) (s : Scientific) : List Char :=
  let point : Int := (digits s.coefficient).length + s.exponent
  match layout.positional with
  | none => pointed layout s
  | some (least, greatest) =>
    if least ≤ point ∧ point ≤ greatest then pointed layout s else exponential layout s

def floatText (layout : FloatLayout) (x : Float) : String :=
  match floatParts x with
  | .nan => layout.nan
  | .infinite negative => (if negative then "-" else "") ++ layout.infinity
  | .finite negative mantissa exponent =>
    let magnitude :=
      if mantissa = 0 then '0' :: layout.wholeSuffix.toList
      else scientificText layout ((roundingInterval mantissa exponent).shortest layout.tie)
    (if negative then "-" else "") ++ String.ofList magnitude

def allDigits (text : List Char) : Bool := text.all Char.isDigit

def floatOfScientific (negative : Bool) (coefficient : Nat) (exponent : Int) : Float :=
  let size : Int := (digits coefficient).length + exponent
  let magnitude : Float :=
    if coefficient = 0 ∨ size < -400 then 0
    else if 400 < size then 1 / 0
    else Float.ofScientific coefficient (exponent < 0) exponent.natAbs
  if negative then -magnitude else magnitude

def splitSign : List Char → Bool × List Char
  | '-' :: rest => (true, rest)
  | '+' :: rest => (false, rest)
  | text => (false, text)

/-- Reads digits, a point and an exponent; each part may be missing, all digits may not. -/
def readFloat? (text : String) : Option Float :=
  let (negative, body) := splitSign text.toList
  let word := String.ofList (body.map Char.toLower)
  if word = "nan" then some (0 / 0)
  else if word = "inf" ∨ word = "infinity" then some (if negative then -1 / 0 else 1 / 0)
  else
    let whole := body.takeWhile Char.isDigit
    let afterWhole := body.dropWhile Char.isDigit
    let (fraction, afterFraction) := match afterWhole with
      | '.' :: rest => (rest.takeWhile Char.isDigit, rest.dropWhile Char.isDigit)
      | rest => ([], rest)
    if whole.isEmpty && fraction.isEmpty then none
    else
      let coefficient := ofDigits (whole ++ fraction)
      let read (exponent : Int) :=
        floatOfScientific negative coefficient (exponent - fraction.length)
      match afterFraction with
      | [] => some (read 0)
      | e :: rest =>
        let (low, power) := splitSign rest
        if e.toLower != 'e' || power.isEmpty || !allDigits power then none
        else some (read (if low then -ofDigits power else ofDigits power))

end SqlDialects.Number
