import SqlDialects.Calendar.Date
import SqlDialects.Number.Digits

/-!
Moments of a day without a time zone. A leap second is the last second of a minute with a
billion nanoseconds or more.
-/

namespace SqlDialects.Calendar

open Number Text

structure Time where
  hour : Nat
  minute : Nat
  second : Nat
  nanos : Nat
  hour_lt : hour < 24
  minute_lt : minute < 60
  second_lt : second < 60
  nanos_lt : nanos < 1000000000 ∨ second = 59 ∧ nanos < 2000000000
  deriving DecidableEq

structure DateTime where
  date : Date
  time : Time
  deriving DecidableEq

namespace Time

def make? (hour minute second nanos : Nat) : Option Time :=
  if h : hour < 24 ∧ minute < 60 ∧ second < 60 ∧
      (nanos < 1000000000 ∨ second = 59 ∧ nanos < 2000000000) then
    some ⟨hour, minute, second, nanos, h.1, h.2.1, h.2.2.1, h.2.2.2⟩
  else none

def isMidnight (t : Time) : Bool :=
  t.hour == 0 && t.minute == 0 && t.second == 0 && t.nanos == 0

/-- The second as a clock shows it: a leap second is the sixtieth. -/
def shownSecond (t : Time) : Nat := t.second + t.nanos / 1000000000

def chars (t : Time) : List Char :=
  padded 2 t.hour ++ ':' :: padded 2 t.minute ++ ':' :: padded 2 t.shownSecond

/-- The part of a second, in as few groups of three digits as show it all. -/
def fractionChars (t : Time) : List Char :=
  let n := t.nanos % 1000000000
  if n = 0 then []
  else if n % 1000000 = 0 then '.' :: padded 3 (n / 1000000)
  else if n % 1000 = 0 then '.' :: padded 6 (n / 1000)
  else '.' :: padded 9 n

end Time

/-- Up to nine digits of a fraction as nanoseconds; further digits are dropped. -/
def readFraction? : List Char → Option (Nat × List Char)
  | '.' :: rest =>
    let run := rest.takeWhile Char.isDigit
    if run.isEmpty then none
    else
      let kept := run.take 9
      some (ofDigits kept * pow10 (9 - kept.length), rest.drop run.length)
  | rest => some (0, rest)

namespace DateTime

def text (d : DateTime) : String :=
  String.ofList (d.date.chars ++ 'T' :: d.time.chars ++ d.time.fractionChars)

def ofText? (text : String) : Option DateTime := do
  let (date, rest) ← Date.readPrefix? text.toList
  let rest ← readMark? 'T' rest
  let (hour, rest) ← readNumber? 2 rest
  let rest ← readMark? ':' rest
  let (minute, rest) ← readNumber? 2 rest
  let rest ← readMark? ':' rest
  let (second, rest) ← readNumber? 2 rest
  let (nanos, rest) ← readFraction? rest
  let time ←
    if second = 60 then Time.make? hour minute 59 (nanos + 1000000000)
    else Time.make? hour minute second nanos
  if (dropBlanks rest).isEmpty then some ⟨date, time⟩ else none

end DateTime

end SqlDialects.Calendar
