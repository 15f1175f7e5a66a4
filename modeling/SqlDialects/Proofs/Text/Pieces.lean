import SqlDialects.Text.Occurrences

/-!
Pieces of a text around one character, and the texts woven from them. The pieces are those that
splitting the text at the character gives.
-/

namespace SqlDialects.Text

theorem piecesFrom_singleton (m : Char) (text : List Char) :
    piecesFrom [m] 0 text = text.splitOn m := by
  induction text with
  | nil => rfl
  | cons c rest ih =>
    rw [piecesFrom, List.splitOn_cons_eq_if_modifyHead, ← ih]
    by_cases h : c = m
    · subst h
      simp [List.isPrefixOf]
    · have hm : (m == c) = false := by simpa using Ne.symm h
      have hne := piecesFrom_ne_nil [m] 0 rest
      obtain ⟨p, ps, hp⟩ := List.exists_cons_of_ne_nil hne
      rw [hp]
      simp [List.isPrefixOf, hm, h, consFirst]

theorem length_splitOn (m : Char) (text : List Char) :
    (text.splitOn m).length = text.count m + 1 := by
  induction text with
  | nil => rfl
  | cons c rest ih =>
    rw [List.splitOn_cons_eq_if_modifyHead, List.count_cons]
    by_cases h : c = m
    · simp [h, ih]
    · simp [h, ih]

section Needle

variable {needle : String} {m : Char} (h : needle.toList = [m])

include h

theorem isEmpty_needle : needle.isEmpty = false := by
  rw [Bool.eq_false_iff, ne_eq, String.isEmpty_iff, ← String.toList_eq_nil_iff, h]
  exact List.cons_ne_nil m []

theorem length_indexesOf (text : String) :
    (indexesOf needle text).length = text.toList.count m := by
  have hp : pieces [m] text.toList = text.toList.splitOn m := piecesFrom_singleton m text.toList
  unfold indexesOf
  rw [isEmpty_needle h, h]
  simp [hp, length_splitOn]

end Needle

theorem weave_cons (mark : Nat → List Char) (i : Nat) (first : List Char)
    (rest : List (List Char)) :
    weave mark i (first :: rest) =
      first ++ (List.zipWith (· ++ ·) ((List.range' i rest.length).map mark) rest).flatten := by
  induction rest generalizing i first with
  | nil => simp
  | cons piece rest ih =>
    rw [weave, ih, List.length_cons, List.range'_succ, List.map_cons, List.zipWith_cons_cons,
      List.flatten_cons, List.append_assoc, List.append_assoc]
    exact List.cons_ne_nil piece rest

theorem not_mem_of_mem_splitOn {m : Char} {text piece : List Char} (h : piece ∈ text.splitOn m) :
    m ∉ piece := by
  induction text generalizing piece with
  | nil =>
    rw [List.splitOn_nil, List.mem_singleton] at h
    rw [h]
    exact List.not_mem_nil
  | cons c rest ih =>
    rw [List.splitOn_cons_eq_if_modifyHead] at h
    split at h
    · rcases List.mem_cons.mp h with rfl | h
      · exact List.not_mem_nil
      · exact ih h
    · next hc =>
      obtain ⟨p, ps, hp⟩ := List.exists_cons_of_ne_nil (List.splitOn_ne_nil m rest)
      rw [hp, List.modifyHead_cons, List.mem_cons] at h
      rcases h with rfl | h
      · have hm : m ∉ p := ih (hp ▸ List.mem_cons_self)
        have hne : m ≠ c := fun he => hc (by simp [he])
        exact List.not_mem_cons_of_ne_of_not_mem hne hm
      · exact ih (hp ▸ List.mem_cons_of_mem _ h)

theorem splitOn_of_not_mem {m : Char} {text : List Char} (h : m ∉ text) :
    text.splitOn m = [text] := by
  induction text with
  | nil => rfl
  | cons c rest ih =>
    have hc : ¬(c == m) = true := by
      rw [beq_iff_eq]
      exact fun hc => h (hc ▸ List.mem_cons_self)
    rw [List.splitOn_cons_eq_if_modifyHead, if_neg hc, ih fun hm => h (List.mem_cons_of_mem _ hm)]
    rfl

theorem count_weave {m : Char} (mark : Nat → List Char) (i : Nat) {ps : List (List Char)}
    (h : ∀ p ∈ ps, m ∉ p) :
    (weave mark i ps).count m = ((List.range' i (ps.length - 1)).flatMap mark).count m := by
  induction ps generalizing i with
  | nil => rfl
  | cons p ps ih =>
    have hp : p.count m = 0 := List.count_eq_zero.mpr (h p List.mem_cons_self)
    cases ps with
    | nil => exact hp
    | cons q ps =>
      have ih := ih (i + 1) fun p hm => h p (List.mem_cons_of_mem _ hm)
      have hlength : (p :: q :: ps).length - 1 = (q :: ps).length - 1 + 1 := rfl
      rw [weave, List.count_append, List.count_append, hp, ih, hlength, List.range'_succ,
        List.flatMap_cons, List.count_append, Nat.zero_add]
      exact List.cons_ne_nil q ps

section Replace

variable {needle : String} {m : Char} (h : needle.toList = [m])

include h

theorem toList_replaceEach (mark : Nat → String) (text : String) :
    (replaceEach needle mark text).toList =
      weave (fun i => (mark i).toList) 0 (text.toList.splitOn m) := by
  have hp : pieces [m] text.toList = text.toList.splitOn m := piecesFrom_singleton m text.toList
  unfold replaceEach
  rw [isEmpty_needle h, h, hp]
  simp

theorem count_replaceEach (mark : Nat → String) (text : String) :
    (replaceEach needle mark text).toList.count m =
      ((List.range (text.toList.count m)).flatMap fun i => (mark i).toList).count m := by
  rw [toList_replaceEach h, count_weave _ 0 fun p => not_mem_of_mem_splitOn, length_splitOn,
    Nat.add_sub_cancel, List.range_eq_range']

theorem replaceEach_of_not_mem (mark : Nat → String) {text : String} (hm : m ∉ text.toList) :
    replaceEach needle mark text = text := by
  rw [← String.toList_inj, toList_replaceEach h, splitOn_of_not_mem hm, weave_singleton]

end Replace

end SqlDialects.Text
