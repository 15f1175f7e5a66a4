import SqlDialects.Text.Blank

/-! The words of a text: white space cuts them, and what holds none is a word as a whole. -/

namespace SqlDialects.Text

structure IsToken (text : List Char) : Prop where
  ne_nil : text ≠ []
  solid : ∀ c ∈ text, isBlank c = false

theorem isToken_iff {text : List Char} :
    IsToken text ↔ text ≠ [] ∧ text.all (isBlank · == false) = true := by
  simp only [List.all_eq_true, beq_iff_eq]
  exact ⟨fun h => ⟨h.ne_nil, h.solid⟩, fun h => ⟨h.1, h.2⟩⟩

instance (text : List Char) : Decidable (IsToken text) := decidable_of_iff' _ isToken_iff

theorem wordsFrom_append_blank {c : Char} (hc : isBlank c = true) (word before after : List Char) :
    wordsFrom word (before ++ c :: after) = wordsFrom word before ++ wordsFrom [] after := by
  induction before generalizing word with
  | nil => cases word <;> simp [wordsFrom, hc]
  | cons d before ih =>
    rw [List.cons_append, wordsFrom, wordsFrom]
    split
    · split
      · exact ih []
      · rw [ih [], List.cons_append]
    · exact ih (d :: word)

theorem wordsFrom_solid {word text : List Char} (hne : word ≠ [] ∨ text ≠ [])
    (h : ∀ c ∈ text, isBlank c = false) : wordsFrom word text = [word.reverse ++ text] := by
  induction text generalizing word with
  | nil =>
    cases word with
    | nil => exact absurd rfl (hne.elim id id)
    | cons d word => rw [wordsFrom, List.append_nil]; nofun
  | cons d text ih =>
    obtain ⟨hd, htext⟩ := List.forall_mem_cons.mp h
    rw [wordsFrom, hd, if_neg Bool.false_ne_true, ih (.inl (List.cons_ne_nil d word)) htext,
      List.reverse_cons, List.append_assoc, List.singleton_append]

theorem IsToken.wordsFrom_eq {text : List Char} (h : IsToken text) : wordsFrom [] text = [text] :=
  wordsFrom_solid (.inr h.ne_nil) h.solid

theorem isToken_of_mem_wordsFrom {word text w : List Char} (hword : ∀ c ∈ word, isBlank c = false)
    (hw : w ∈ wordsFrom word text) : IsToken w := by
  induction text generalizing word with
  | nil =>
    cases word with
    | nil => cases hw
    | cons d word =>
      obtain rfl := List.mem_singleton.mp hw
      exact ⟨by simp, fun c hc => hword c (List.mem_reverse.mp hc)⟩
  | cons d text ih =>
    rw [wordsFrom] at hw
    split at hw
    · split at hw
      · exact ih (List.forall_mem_nil _) hw
      · next hne =>
        rcases List.mem_cons.mp hw with rfl | hw
        · refine ⟨fun h => hne ?_, fun c hc => hword c (List.mem_reverse.mp hc)⟩
          rw [List.reverse_eq_nil_iff.mp h, List.isEmpty_nil]
        · exact ih (List.forall_mem_nil _) hw
    · next hd => exact ih (List.forall_mem_cons.mpr ⟨by simpa using hd, hword⟩) hw

end SqlDialects.Text
