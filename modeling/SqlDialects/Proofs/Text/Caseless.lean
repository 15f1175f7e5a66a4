import SqlDialects.Text.Case

/-!
Characters below the first letter have no case. Changing the case of a text neither makes nor
removes one.
-/

namespace SqlDialects.Text

def Caseless (m : Char) : Prop := 0 < m.toNat ∧ m.toNat < 65

instance (m : Char) : Decidable (Caseless m) := inferInstanceAs (Decidable (_ ∧ _))

theorem toNat_ofNat (n : Nat) : (Char.ofNat n).toNat = n ∨ (Char.ofNat n).toNat = 0 := by
  by_cases h : n.isValidChar
  · rw [Char.ofNat, dif_pos h]
    exact .inl rfl
  · rw [Char.ofNat, dif_neg h]
    exact .inr rfl

theorem ne_ofNat_of_lt {m : Char} (h0 : 0 < m.toNat) {n : Nat} (hn : m.toNat < n) :
    m ≠ Char.ofNat n := by
  rintro rfl
  rcases toNat_ofNat n with h | h <;> omega

theorem ne_ofNat {m : Char} (hm : Caseless m) {n : Nat} (hn : 65 ≤ n) : m ≠ Char.ofNat n :=
  ne_ofNat_of_lt hm.1 (Nat.lt_of_lt_of_le hm.2 hn)

theorem ne_of_not_ascii {m c : Char} (hm : Caseless m) (hc : ¬c.val < 128) : m ≠ c := by
  rintro rfl
  have h65 := hm.2
  have hlt : m.val.toNat < 128 := Nat.lt_trans h65 (by decide)
  exact hc (UInt32.lt_iff_toNat_lt.mpr hlt)

theorem eq_toUpper {m c : Char} (hm : Caseless m) : m = c.toUpper ↔ m = c := by
  obtain ⟨-, h65⟩ := hm
  unfold Char.toUpper
  split
  · next h =>
    have hc : 97 ≤ c.toNat := UInt32.le_iff_toNat_le.mp h.1
    have hz : c.toNat ≤ 122 := UInt32.le_iff_toNat_le.mp h.2
    refine iff_of_false ?_ ?_ <;> rintro rfl
    · simp only [Char.toNat, UInt32.toNat_add] at h65
      simp at h65
      omega
    · omega
  · rfl

theorem eq_toLower {m c : Char} (hm : Caseless m) : m = c.toLower ↔ m = c := by
  obtain ⟨-, h65⟩ := hm
  unfold Char.toLower
  split
  · next h =>
    have hc : 65 ≤ c.toNat := UInt32.le_iff_toNat_le.mp h.1
    have hz : c.toNat ≤ 90 := UInt32.le_iff_toNat_le.mp h.2
    refine iff_of_false ?_ ?_ <;> rintro rfl
    · simp only [Char.toNat, UInt32.toNat_add] at h65
      simp at h65
      omega
    · omega
  · rfl

theorem eq_moveCase {m c : Char} (hm : Caseless m) (hc : m ≠ c) {runs : List CaseRun}
    (hr : ∀ r ∈ runs, 65 ≤ r.target) : m ≠ moveCase runs c := by
  unfold moveCase
  cases h : runs.find? (·.covers c.toNat) with
  | none => exact hc
  | some r =>
    have ht := hr r (List.mem_of_find?_eq_some h)
    exact ne_ofNat hm (by unfold CaseRun.move; omega)

theorem lowerRuns_target : ∀ r ∈ lowerRuns, 65 ≤ r.target := by decide +kernel

theorem upperRuns_target : ∀ r ∈ upperRuns, 65 ≤ r.target := by decide +kernel

theorem upperExpansions_points : ∀ p ∈ upperExpansions, ∀ n ∈ p.2, 65 ≤ n := by decide +kernel

theorem mem_upperChar {m c : Char} (hm : Caseless m) : m ∈ upperChar c ↔ m = c := by
  unfold upperChar
  split
  · rw [List.mem_singleton, eq_toUpper hm]
  · next hc =>
    have hne := ne_of_not_ascii hm hc
    refine iff_of_false ?_ hne
    split
    · next p points h =>
      intro hmem
      obtain ⟨n, hn, rfl⟩ := List.mem_map.mp hmem
      exact ne_ofNat hm (upperExpansions_points _ (List.mem_of_find?_eq_some h) n hn) rfl
    · rw [List.mem_singleton]
      exact eq_moveCase hm hne upperRuns_target

theorem mem_lowerChar {m c : Char} (hm : Caseless m) : m ∈ lowerChar c ↔ m = c := by
  unfold lowerChar
  split
  · rw [List.mem_singleton, eq_toLower hm]
  · next hc =>
    have hne := ne_of_not_ascii hm hc
    refine iff_of_false ?_ hne
    split
    · rw [List.mem_cons, List.mem_singleton]
      rintro (h | h)
      · exact ne_ofNat hm (n := 105) (by omega) h
      · exact ne_ofNat hm (by omega) h
    · rw [List.mem_singleton]
      exact eq_moveCase hm hne lowerRuns_target

theorem mem_lowerAfter {m : Char} (hm : Caseless m) (before text : List Char) :
    m ∈ lowerAfter before text ↔ m ∈ text := by
  induction text generalizing before with
  | nil => rfl
  | cons c rest ih =>
    have hs : c = capitalSigma → m ≠ c := by
      rintro rfl
      exact ne_ofNat hm (by omega)
    rw [lowerAfter, List.mem_append, ih, List.mem_cons]
    refine or_congr_left ?_
    split
    · next hc =>
      refine iff_of_false ?_ (hs hc)
      rw [List.mem_singleton]
      split <;> exact ne_ofNat hm (by omega)
    · exact mem_lowerChar hm

theorem mem_lower {m : Char} (hm : Caseless m) (text : String) :
    m ∈ (lower text).toList ↔ m ∈ text.toList := by
  rw [lower, String.toList_ofList, mem_lowerAfter hm]

theorem mem_upper {m : Char} (hm : Caseless m) (text : String) :
    m ∈ (upper text).toList ↔ m ∈ text.toList := by
  simp [upper, mem_upperChar hm]

section BeforeSmallLetters

variable {m : Char} (h0 : 0 < m.toNat) (hm : m.toNat < 97)

include hm in
theorem eq_of_eq_toLower {c : Char} (h : m = c.toLower) : m = c := by
  subst h
  unfold Char.toLower at hm ⊢
  split at hm
  · next hc =>
    have h65 : 65 ≤ c.toNat := UInt32.le_iff_toNat_le.mp hc.1
    have h90 : c.toNat ≤ 90 := UInt32.le_iff_toNat_le.mp hc.2
    simp only [Char.toNat, UInt32.toNat_add] at hm
    simp at hm
    omega
  · next hc => rw [dif_neg hc]

theorem lowerRuns_small : ∀ r ∈ lowerRuns, 97 ≤ r.target := by decide +kernel

include h0 hm

theorem eq_of_mem_lowerChar {c : Char} (h : m ∈ lowerChar c) : m = c := by
  unfold lowerChar at h
  split at h
  · exact eq_of_eq_toLower hm (List.mem_singleton.mp h)
  · split at h
    · rw [List.mem_cons, List.mem_singleton] at h
      rcases h with h | h
      · exact absurd h (ne_ofNat_of_lt h0 (show m.toNat < 105 by omega))
      · exact absurd h (ne_ofNat_of_lt h0 (by omega))
    · rw [List.mem_singleton, moveCase] at h
      split at h
      · next r hr =>
        have ht := lowerRuns_small r (List.mem_of_find?_eq_some hr)
        exact absurd h (ne_ofNat_of_lt h0 (by unfold CaseRun.move; omega))
      · exact h

/-- What stands before the small letters is in lower case only where it was before. -/
theorem mem_of_mem_lower {text : String} (h : m ∈ (lower text).toList) : m ∈ text.toList := by
  have hafter (before cs : List Char) (h : m ∈ lowerAfter before cs) : m ∈ cs := by
    induction cs generalizing before with
    | nil => exact h
    | cons c cs ih =>
      rw [lowerAfter, List.mem_append] at h
      rcases h with h | h
      · split at h
        · rw [List.mem_singleton] at h
          split at h <;> exact absurd h (ne_ofNat_of_lt h0 (by omega))
        · exact eq_of_mem_lowerChar h0 hm h ▸ List.mem_cons_self
      · exact List.mem_cons_of_mem _ (ih _ h)
  rw [lower, String.toList_ofList] at h
  exact hafter [] _ h

end BeforeSmallLetters

end SqlDialects.Text
