/-! Bytes as pairs of hexadecimal digits, written in lower case and read in any. -/

namespace SqlDialects.Hex

def digit (n : Nat) : Char := if n < 10 then Char.ofNat (48 + n) else Char.ofNat (87 + n)

def value? (c : Char) : Option Nat :=
  if '0' ≤ c && c ≤ '9' then some (c.toNat - 48)
  else if 'a' ≤ c && c ≤ 'f' then some (c.toNat - 87)
  else if 'A' ≤ c && c ≤ 'F' then some (c.toNat - 55)
  else none

def byteChars (b : UInt8) : List Char := [digit (b.toNat / 16), digit (b.toNat % 16)]

def chars (bytes : List UInt8) : List Char := bytes.flatMap byteChars

def bytes? : List Char → Option (List UInt8)
  | [] => some []
  | high :: low :: rest => do
    let h ← value? high
    let l ← value? low
    let bytes ← bytes? rest
    return UInt8.ofNat (16 * h + l) :: bytes
  | [_] => none

theorem value?_digit : ∀ n : Nat, n < 16 → value? (digit n) = some n := by decide

theorem ofNat_halves (b : UInt8) : UInt8.ofNat (16 * (b.toNat / 16) + b.toNat % 16) = b := by
  rw [Nat.div_add_mod, UInt8.ofNat_toNat]

theorem bytes?_chars (bytes : List UInt8) : bytes? (chars bytes) = some bytes := by
  induction bytes with
  | nil => rfl
  | cons b bytes ih =>
    have hb := b.toNat_lt
    show bytes? (digit (b.toNat / 16) :: digit (b.toNat % 16) :: chars bytes) = _
    rw [bytes?, value?_digit _ (by omega), value?_digit _ (by omega), ih]
    exact congrArg (fun b => some (b :: bytes)) (ofNat_halves b)

theorem length_chars (bytes : List UInt8) : (chars bytes).length = 2 * bytes.length := by
  induction bytes with
  | nil => rfl
  | cons b bytes ih =>
    rw [chars] at ih
    simp [chars, byteChars, ih]
    omega

end SqlDialects.Hex
