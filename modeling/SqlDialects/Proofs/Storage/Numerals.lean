import SqlDialects.Json.Parse

/-! Runs of digits: where one ends, and what number it is. -/

namespace SqlDialects

namespace Number

variable {ds rest : List Char}

def Undigited (rest : List Char) : Prop := ∀ c ∈ rest.head?, ¬ c.isDigit

theorem undigited_nil : Undigited [] := nofun

theorem undigited_cons {c : Char} (h : c.isDigit = false) (rest : List Char) :
    Undigited (c :: rest) := by
  rintro _ ⟨⟩
  simp [h]

theorem takeWhile_isDigit (hd : ∀ c ∈ ds, c.isDigit) (hr : Undigited rest) :
    (ds ++ rest).takeWhile Char.isDigit = ds := by
  rw [List.takeWhile_append_of_pos hd]
  cases rest with
  | nil => simp
  | cons c rest => simp [hr c rfl]

theorem dropWhile_isDigit (hd : ∀ c ∈ ds, c.isDigit) (hr : Undigited rest) :
    (ds ++ rest).dropWhile Char.isDigit = rest := by
  rw [List.dropWhile_append_of_pos hd]
  cases rest with
  | nil => rfl
  | cons c rest => simp [hr c rfl]

theorem digitsRev_ne_nil (n : Nat) : digitsRev n ≠ [] := by
  unfold digitsRev
  split <;> exact List.cons_ne_nil _ _

theorem digits_ne_nil (n : Nat) : digits n ≠ [] :=
  fun h => digitsRev_ne_nil n (List.reverse_eq_nil_iff.mp h)

theorem getLast?_digitsRev {n : Nat} (h : 0 < n) : (digitsRev n).getLast? ≠ some '0' := by
  fun_induction digitsRev n with
  | case1 n hn =>
    intro hz
    have hv := toNat_digitChar hn
    rw [List.getLast?_singleton, Option.some_inj] at hz
    rw [hz] at hv
    exact absurd hv (Nat.ne_of_lt h)
  | case2 n hn ih =>
    rw [List.getLast?_cons_of_ne_nil (digitsRev_ne_nil _)]
    exact ih (by omega)

theorem digits_zero_or_head (n : Nat) :
    digits n = ['0'] ∨ ∃ c tail, digits n = c :: tail ∧ c ≠ '0' := by
  rcases Nat.eq_zero_or_pos n with rfl | hn
  · left
    unfold digits digitsRev
    rfl
  · right
    cases hd : digits n with
    | nil => exact absurd hd (digits_ne_nil n)
    | cons c tail =>
      refine ⟨c, tail, rfl, fun hc => getLast?_digitsRev hn ?_⟩
      rw [← List.head?_reverse, ← digits, hd, hc, List.head?_cons]

theorem le_ofDigitsFrom (start : Nat) (ds : List Char) : start ≤ ofDigitsFrom start ds := by
  induction ds generalizing start with
  | nil => exact Nat.le_refl start
  | cons c ds ih => exact Nat.le_trans (by omega) (ih _)

theorem ofDigitsFrom_zeros (n : Nat) (ds : List Char) :
    ofDigitsFrom 0 (List.replicate n '0' ++ ds) = ofDigitsFrom 0 ds := by
  induction n with
  | zero => rfl
  | succ n ih => exact ih

@[simp] theorem ofDigits_padded (width n : Nat) : ofDigits (padded width n) = n := by
  rw [ofDigits, padded, ofDigitsFrom_zeros]
  exact ofDigits_digits n

theorem isDigit_of_mem_padded {width n : Nat} {c : Char} (h : c ∈ padded width n) :
    c.isDigit := by
  rcases List.mem_append.mp h with h | h
  · rw [(List.mem_replicate.mp h).2]
    rfl
  · exact isDigit_of_mem_digits h

theorem padded_ne_nil (width n : Nat) : padded width n ≠ [] := by
  simp [padded, digits_ne_nil]

theorem padded_head (width n : Nat) : ∃ c tail, padded width n = c :: tail ∧ c.isDigit := by
  cases h : padded width n with
  | nil => exact absurd h (padded_ne_nil width n)
  | cons c tail => exact ⟨c, tail, rfl, isDigit_of_mem_padded (h ▸ List.mem_cons_self)⟩

theorem length_digitsRev_le {n width : Nat} (hw : 0 < width) (h : n < pow10 width) :
    (digitsRev n).length ≤ width := by
  induction width generalizing n with
  | zero => omega
  | succ width ih =>
    unfold digitsRev
    split
    · simp
    · next hn =>
      have hp : pow10 (width + 1) = pow10 width * 10 := pow10_add width 1
      cases width with
      | zero => exact absurd h (by simpa [pow10] using hn)
      | succ width => simpa using ih (by omega) (by omega)

theorem length_padded {width n : Nat} (hw : 0 < width) (h : n < pow10 width) :
    (padded width n).length = width := by
  have hl : (digits n).length ≤ width := by
    simpa [digits] using length_digitsRev_le hw h
  rw [padded, List.length_append, List.length_replicate]
  omega

theorem le_length_padded (width n : Nat) : width ≤ (padded width n).length := by
  rw [padded, List.length_append, List.length_replicate]
  omega

theorem toList_natText (n : Nat) : (natText n).toList = digits n := String.toList_ofList

theorem toList_intText (n : Int) :
    (intText n).toList = (if n < 0 then ['-'] else []) ++ digits n.natAbs := by
  unfold intText
  split <;> simp [toList_natText]

end Number

namespace Json

open Number

variable {rest : List Char}

/-- What follows a value in a document: nothing, a comma or a closing bracket. -/
def Closes (rest : List Char) : Prop := ∀ c ∈ rest.head?, c = ',' ∨ c = ']' ∨ c = '}'

theorem Closes.undigited (h : Closes rest) : Undigited rest := by
  intro c hc
  rcases h c hc with rfl | rfl | rfl <;> decide

theorem lexDigits_digits (n : Nat) (hr : Undigited rest) :
    lexDigits (digits n ++ rest) = some (digits n, rest) := by
  have hd : ∀ c ∈ digits n, c.isDigit := fun c => isDigit_of_mem_digits
  rw [lexDigits, spanDigits, takeWhile_isDigit hd hr, dropWhile_isDigit hd hr]
  split
  · next h => exact absurd (Prod.mk.inj h).1 (digits_ne_nil n)
  · next h => rw [h]

theorem lexWhole_digits (n : Nat) (hr : Undigited rest) :
    lexWhole (digits n ++ rest) = some (digits n, rest) := by
  rcases digits_zero_or_head n with hz | ⟨c, tail, hd, hc⟩
  · rw [hz]
    rfl
  · have hl := lexDigits_digits n hr
    rw [hd] at hl ⊢
    rw [List.cons_append] at hl ⊢
    unfold lexWhole
    split
    · next h => exact absurd (List.cons.inj h).1 hc
    · exact hl

theorem lexFraction_closes (h : Closes rest) : lexFraction rest = some ([], rest) := by
  unfold lexFraction
  split
  · next r => simpa using h '.' rfl
  · rfl

theorem lexExponent_closes (h : Closes rest) : lexExponent rest = some ([], rest) := by
  cases rest with
  | nil => rfl
  | cons c rest => rcases h c rfl with rfl | rfl | rfl <;> rfl

theorem digits_append_ne (n : Nat) (rest tail : List Char) : digits n ++ rest ≠ '-' :: tail := by
  intro h
  cases hd : digits n with
  | nil => exact absurd hd (digits_ne_nil n)
  | cons c ds =>
    have hc : c.isDigit := isDigit_of_mem_digits (hd ▸ List.mem_cons_self)
    rw [hd, List.cons_append] at h
    rw [(List.cons.inj h).1] at hc
    exact absurd hc (by decide)

theorem lexNumber_intText (n : Int) (h : Closes rest) :
    lexNumber ((intText n).toList ++ rest) = some ((intText n).toList, rest) := by
  have hw := lexWhole_digits n.natAbs h.undigited
  rw [toList_intText]
  unfold lexNumber
  by_cases hn : n < 0
  · simp [if_pos hn, hw, lexFraction_closes h, lexExponent_closes h]
  · rw [if_neg hn, List.nil_append]
    split
    next hm =>
    split at hm
    · next heq => exact absurd heq (digits_append_ne _ _ _)
    · cases hm
      simp [hw, lexFraction_closes h, lexExponent_closes h]

theorem foldl_addWhole {ds : List Char} {s : Significand} (hf : s.full = false)
    (h : ofDigitsFrom s.value ds < pow2 64) :
    ds.foldl Significand.addWhole s = { s with value := ofDigitsFrom s.value ds } := by
  induction ds generalizing s with
  | nil => rfl
  | cons c ds ih =>
    have hnext : 10 * s.value + (c.toNat - 48) < pow2 64 :=
      Nat.lt_of_le_of_lt (le_ofDigitsFrom _ ds) h
    have hc : s.addWhole c = { s with value := 10 * s.value + (c.toNat - 48) } := by
      simp only [Significand.addWhole, hf, Bool.false_eq_true, if_false, if_pos hnext]
    rw [List.foldl_cons, hc]
    exact ih hf h

theorem numeral?_intText {n : Int} (hl : -pow2 63 ≤ n) (hu : n < pow2 64) :
    numeral? (intText n).toList = some (.int n) := by
  have hd : ∀ c ∈ digits n.natAbs, c.isDigit := fun c => isDigit_of_mem_digits
  have hp : pow2 64 = 2 * pow2 63 := rfl
  have hs : spanDigits (digits n.natAbs) = (digits n.natAbs, []) := by
    have ht := takeWhile_isDigit hd undigited_nil
    have hw := dropWhile_isDigit hd undigited_nil
    rw [List.append_nil] at ht hw
    rw [spanDigits, ht, hw]
  have hv : (digits n.natAbs).foldl Significand.addWhole ⟨0, 0, false⟩ = ⟨n.natAbs, 0, false⟩ := by
    have ho : ofDigitsFrom 0 (digits n.natAbs) = n.natAbs := ofDigits_digits n.natAbs
    rw [foldl_addWhole rfl (by rw [ho]; omega), ho]
  rw [toList_intText]
  unfold numeral?
  by_cases hn : n < 0
  · have hz : n.natAbs ≠ 0 := by omega
    have ha : ¬ pow2 63 < n.natAbs := by omega
    have hv' : -(n.natAbs : Int) = n := by omega
    generalize n.natAbs = m at hs hv hz ha hv'
    simp [if_pos hn, hs, hv, hz, ha, hv']
  · rw [if_neg hn, List.nil_append]
    split
    next hm =>
    split at hm
    · next heq =>
      exact absurd heq (by simpa using digits_append_ne n.natAbs [] _)
    · cases hm
      have hv' : (n.natAbs : Int) = n := by omega
      generalize n.natAbs = m at hs hv hv' ⊢
      simp [hs, hv, hv']

end Json

end SqlDialects
