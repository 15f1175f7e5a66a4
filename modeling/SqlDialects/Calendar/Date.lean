import SqlDialects.Number.Digits
import SqlDialects.Text.Blank

/-! Days of the proleptic Gregorian calendar. -/

namespace SqlDialects.Calendar

open Number Text

def isLeap (year : Int) : Bool := year % 4 == 0 && (year % 100 != 0 || year % 400 == 0)

def daysIn (year : Int) : Nat → Nat
  | 2 => if isLeap year then 29 else 28
  | 4 | 6 | 9 | 11 => 30
  | _ => 31

def firstYear : Int := -262143
def lastYear : Int := 262142

structure Date where
  year : Int
  month : Nat
  day : Nat
  year_mem : firstYear ≤ year ∧ year ≤ lastYear
  month_mem : 1 ≤ month ∧ month ≤ 12
  day_mem : 1 ≤ day ∧ day ≤ daysIn year month
  deriving DecidableEq

/-- A year of four digits is written bare, any other one with its sign. -/
def yearText (year : Int) : List Char :=
  if 0 ≤ year ∧ year ≤ 9999 then padded 4 year.toNat
  else (if year < 0 then '-' else '+') :: padded 4 year.natAbs

def takeDigits (limit : Nat) (text : List Char) : Option (Nat × List Char) :=
  let run := (text.takeWhile Char.isDigit).take limit
  if run.isEmpty then none else some (ofDigits run, text.drop run.length)

def readNumber? (limit : Nat) (text : List Char) : Option (Nat × List Char) :=
  takeDigits limit (dropBlanks text)

def readYear? (text : List Char) : Option (Int × List Char) :=
  match dropBlanks text with
  | '-' :: rest => (takeDigits rest.length rest).map fun (n, rest) => (-n, rest)
  | '+' :: rest => (takeDigits rest.length rest).map fun (n, rest) => (n, rest)
  | text => (takeDigits 4 text).map fun (n, rest) => (n, rest)

def readMark? (mark : Char) (text : List Char) : Option (List Char) :=
  match dropBlanks text with
  | c :: rest => if c = mark then some rest else none
  | [] => none

namespace Date

def make? (year : Int) (month day : Nat) : Option Date :=
  if h : (firstYear ≤ year ∧ year ≤ lastYear) ∧ (1 ≤ month ∧ month ≤ 12) ∧
      (1 ≤ day ∧ day ≤ daysIn year month) then
    some ⟨year, month, day, h.1, h.2.1, h.2.2⟩
  else none

def chars (d : Date) : List Char :=
  yearText d.year ++ '-' :: padded 2 d.month ++ '-' :: padded 2 d.day

def text (d : Date) : String := String.ofList d.chars

def readPrefix? (text : List Char) : Option (Date × List Char) := do
  let (year, rest) ← readYear? text
  let rest ← readMark? '-' rest
  let (month, rest) ← readNumber? 2 rest
  let rest ← readMark? '-' rest
  let (day, rest) ← readNumber? 2 rest
  let date ← make? year month day
  return (date, rest)

/-- Reads year, month and day with hyphens between them; white space may stand before each part
and at the end. -/
def ofText? (text : String) : Option Date :=
  match readPrefix? text.toList with
  | some (date, rest) => if (dropBlanks rest).isEmpty then some date else none
  | none => none

end Date

end SqlDialects.Calendar
