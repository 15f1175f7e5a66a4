import SqlDialects.Text.Hex

/-!
The text between the quotes of a JSON string. `escape` writes it and `unescape?` reads it; reading
what is written gives the text back.
-/

namespace SqlDialects.Json

def hexDigits (n : Nat) : List Char :=
  [Hex.digit (n / 4096 % 16), Hex.digit (n / 256 % 16), Hex.digit (n / 16 % 16), Hex.digit (n % 16)]

def escapeChar (c : Char) : List Char :=
  if c = '"' then ['\\', '"']
  else if c = '\\' then ['\\', '\\']
  else if 32 ≤ c.toNat then [c]
  else if c = '\x08' then ['\\', 'b']
  else if c = '\t' then ['\\', 't']
  else if c = '\n' then ['\\', 'n']
  else if c = '\x0c' then ['\\', 'f']
  else if c = '\r' then ['\\', 'r']
  else '\\' :: 'u' :: hexDigits c.toNat

def escape (text : List Char) : List Char := text.flatMap escapeChar

def hexValue? (a b c d : Char) : Option Nat := do
  let a ← Hex.value? a
  let b ← Hex.value? b
  let c ← Hex.value? c
  let d ← Hex.value? d
  return 4096 * a + 256 * b + 16 * c + d

def escaped? : Char → Option Char
  | '"' => some '"'
  | '\\' => some '\\'
  | '/' => some '/'
  | 'b' => some '\x08'
  | 'f' => some '\x0c'
  | 'n' => some '\n'
  | 'r' => some '\r'
  | 't' => some '\t'
  | _ => none

def isHighSurrogate (n : Nat) : Bool := 0xD800 ≤ n && n < 0xDC00
def isLowSurrogate (n : Nat) : Bool := 0xDC00 ≤ n && n < 0xE000

/-- Reads escapes; halves of a surrogate pair have no meaning alone. -/
def unescape? : List Char → Option (List Char)
  | [] => some []
  | '\\' :: 'u' :: a :: b :: c :: d :: rest => do
    let n ← hexValue? a b c d
    if isHighSurrogate n then
      match rest with
      | '\\' :: 'u' :: e :: f :: g :: h :: rest => do
        let m ← hexValue? e f g h
        if isLowSurrogate m then
          (unescape? rest).map
            (Char.ofNat (0x10000 + (n - 0xD800) * 0x400 + (m - 0xDC00)) :: ·)
        else none
      | _ => none
    else if isLowSurrogate n then none
    else (unescape? rest).map (Char.ofNat n :: ·)
  | '\\' :: c :: rest => do
    let c ← escaped? c
    (unescape? rest).map (c :: ·)
  | ['\\'] => none
  | c :: rest => (unescape? rest).map (c :: ·)

theorem hexValue?_hexDigits {n : Nat} (h : n < 65536) :
    hexValue? (Hex.digit (n / 4096 % 16)) (Hex.digit (n / 256 % 16)) (Hex.digit (n / 16 % 16))
      (Hex.digit (n % 16)) = some n := by
  rw [hexValue?, Hex.value?_digit _ (by omega), Hex.value?_digit _ (by omega),
    Hex.value?_digit _ (by omega), Hex.value?_digit _ (by omega)]
  exact congrArg some (by omega)

theorem unescape?_hexDigits {n : Nat} (h : n < 32) (rest : List Char) :
    unescape? ('\\' :: 'u' :: hexDigits n ++ rest) = (unescape? rest).map (Char.ofNat n :: ·) := by
  show unescape? ('\\' :: 'u' :: _ :: _ :: _ :: _ :: rest) = _
  rw [unescape?, hexValue?_hexDigits (by omega)]
  have hs : isHighSurrogate n = false := by
    simp only [isHighSurrogate, Bool.and_eq_false_iff, decide_eq_false_iff_not]
    omega
  have hl : isLowSurrogate n = false := by
    simp only [isLowSurrogate, Bool.and_eq_false_iff, decide_eq_false_iff_not]
    omega
  simp [hs, hl]

theorem unescape?_escapeChar (c : Char) (rest : List Char) :
    unescape? (escapeChar c ++ rest) = (unescape? rest).map (c :: ·) := by
  unfold escapeChar
  split
  · next h => subst h; rfl
  split
  · next h => subst h; rfl
  split
  · next hq hb h =>
    rw [List.cons_append, List.nil_append, unescape?.eq_def]
    split <;> simp_all
  split
  · next h => subst h; rfl
  split
  · next h => subst h; rfl
  split
  · next h => subst h; rfl
  split
  · next h => subst h; rfl
  split
  · next h => subst h; rfl
  · have hc := unescape?_hexDigits (n := c.toNat) (by omega) rest
    rwa [Char.ofNat_toNat] at hc

@[simp] theorem unescape?_escape (text : List Char) : unescape? (escape text) = some text := by
  induction text with
  | nil => rfl
  | cons c text ih =>
    show unescape? (escapeChar c ++ escape text) = _
    rw [unescape?_escapeChar, ih]
    rfl

end SqlDialects.Json
