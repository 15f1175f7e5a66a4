/-! Decimal digits of numbers, and the powers of two and ten that bound numbers and move points. -/

namespace SqlDialects.Number

def pow2 (n : Nat) : Nat := Nat.pow 2 n

def pow10 (n : Nat) : Nat := Nat.pow 10 n

theorem pow10_add (m n : Nat) : pow10 (m + n) = pow10 m * pow10 n := Nat.pow_add 10 m n

def digitChar (d : Nat) : Char := Char.ofNat (48 + d)

def digitsRev (n : Nat) : List Char :=
  if h : n < 10 then [digitChar n]
  else digitChar (n % 10) :: digitsRev (n / 10)
termination_by n
decreasing_by omega

def digits (n : Nat) : List Char := (digitsRev n).reverse

def ofDigitsFrom (start : Nat) : List Char → Nat
  | [] => start
  | c :: rest => ofDigitsFrom (10 * start + (c.toNat - 48)) rest

def ofDigits (text : List Char) : Nat := ofDigitsFrom 0 text

def natText (n : Nat) : String := String.ofList (digits n)

def intText (n : Int) : String :=
  if n < 0 then "-" ++ natText n.natAbs else natText n.natAbs

def padded (width n : Nat) : List Char :=
  List.replicate (width - (digits n).length) '0' ++ digits n

def zeros (n : Nat) : List Char := List.replicate n '0'

theorem ofDigitsFrom_append (start : Nat) (a b : List Char) :
    ofDigitsFrom start (a ++ b) = ofDigitsFrom (ofDigitsFrom start a) b := by
  induction a generalizing start with
  | nil => rfl
  | cons c a ih => exact ih _

theorem toNat_digitChar {d : Nat} (h : d < 10) : (digitChar d).toNat - 48 = d := by
  have : d = 0 ∨ d = 1 ∨ d = 2 ∨ d = 3 ∨ d = 4 ∨ d = 5 ∨ d = 6 ∨ d = 7 ∨ d = 8 ∨ d = 9 := by omega
  rcases this with rfl | rfl | rfl | rfl | rfl | rfl | rfl | rfl | rfl | rfl <;> rfl

theorem isDigit_digitChar {d : Nat} (h : d < 10) : (digitChar d).isDigit := by
  have : d = 0 ∨ d = 1 ∨ d = 2 ∨ d = 3 ∨ d = 4 ∨ d = 5 ∨ d = 6 ∨ d = 7 ∨ d = 8 ∨ d = 9 := by omega
  rcases this with rfl | rfl | rfl | rfl | rfl | rfl | rfl | rfl | rfl | rfl <;> rfl

theorem ofDigitsFrom_digitChar (start : Nat) {d : Nat} (h : d < 10) :
    ofDigitsFrom start [digitChar d] = 10 * start + d := by
  show 10 * start + ((digitChar d).toNat - 48) = _
  rw [toNat_digitChar h]

theorem ofDigitsFrom_digitsRev (n : Nat) : ofDigitsFrom 0 (digitsRev n).reverse = n := by
  fun_induction digitsRev n with
  | case1 n h => simpa using ofDigitsFrom_digitChar 0 h
  | case2 n h ih =>
    rw [List.reverse_cons, ofDigitsFrom_append, ih,
      ofDigitsFrom_digitChar _ (Nat.mod_lt _ (by omega))]
    omega

@[simp] theorem ofDigits_digits (n : Nat) : ofDigits (digits n) = n := ofDigitsFrom_digitsRev n

theorem isDigit_of_mem_digits {n : Nat} {c : Char} (h : c ∈ digits n) : c.isDigit := by
  unfold digits at h
  rw [List.mem_reverse] at h
  fun_induction digitsRev n with
  | case1 n hn => simpa [List.mem_singleton.mp h] using isDigit_digitChar hn
  | case2 n hn ih =>
    rcases List.mem_cons.mp h with rfl | h
    · exact isDigit_digitChar (Nat.mod_lt _ (by omega))
    · exact ih h

end SqlDialects.Number
