import Mathlib.Data.List.Infix
import SqlDialects.Render.Select

/-!
Texts that stand in larger ones, and in those that a renderer makes of them. White space around a
text may be lost there, as it is where a whole part of a statement is trimmed.
-/

namespace SqlDialects

namespace Text

/-- The text stands in another one, but perhaps for white space around it. -/
def Occurs (text whole : String) : Prop := trimBlanks text.toList <:+: whole.toList

theorem dropBlanks_suffix (text : List Char) : dropBlanks text <:+ text := List.dropWhile_suffix _

theorem dropBlanks_eq_self_iff {text : List Char} :
    dropBlanks text = text ↔ ∀ c ∈ text.head?, isBlank c = false := by
  cases text with
  | nil => simp [dropBlanks]
  | cons c text =>
    simp only [List.head?_cons, Option.mem_some_iff, forall_eq']
    by_cases hc : isBlank c = true
    · rw [hc, dropBlanks, List.dropWhile_cons_of_pos hc]
      refine iff_of_false (fun heq => ?_) (by decide)
      have hlength := (dropBlanks_suffix text).length_le
      rw [dropBlanks, heq] at hlength
      exact absurd hlength (Nat.not_succ_le_self _)
    · rw [dropBlanks, List.dropWhile_cons_of_neg hc]
      exact iff_of_true rfl (Bool.eq_false_iff.mpr hc)

theorem trimBlanks_prefix_dropBlanks (text : List Char) : trimBlanks text <+: dropBlanks text := by
  rw [trimBlanks, ← List.reverse_suffix, List.reverse_reverse]
  exact dropBlanks_suffix _

theorem trimBlanks_infix (text : List Char) : trimBlanks text <:+: text :=
  (trimBlanks_prefix_dropBlanks text).isInfix.trans (dropBlanks_suffix text).isInfix

theorem dropBlanks_trimBlanks (text : List Char) :
    dropBlanks (trimBlanks text) = trimBlanks text := by
  have hfront := dropBlanks_eq_self_iff.mp (dropBlanks_dropBlanks text)
  rw [dropBlanks_eq_self_iff]
  intro c hc
  obtain ⟨back, hback⟩ := trimBlanks_prefix_dropBlanks text
  rw [← hback] at hfront
  cases htext : trimBlanks text with
  | nil =>
    rw [htext] at hc
    cases hc
  | cons d rest =>
    rw [htext] at hc hfront
    exact hfront c hc

theorem infix_dropBlanks {text whole : List Char} (h : dropBlanks text = text)
    (hw : text <:+: whole) : text <:+: dropBlanks whole := by
  obtain ⟨front, back, rfl⟩ := hw
  cases text with
  | nil => exact List.nil_infix
  | cons c text =>
    have hc : isBlank c = false := dropBlanks_eq_self_iff.mp h c rfl
    rw [dropBlanks, List.append_assoc, List.dropWhile_append]
    split
    · rw [List.cons_append, List.dropWhile_cons_of_neg (by rw [hc]; decide)]
      exact (List.prefix_append (c :: text) back).isInfix
    · exact ⟨_, back, List.append_assoc _ _ _⟩

theorem infix_trimBlanks {text whole : List Char} (h : trimBlanks text <:+: whole) :
    trimBlanks text <:+: trimBlanks whole := by
  have hfront := infix_dropBlanks (dropBlanks_trimBlanks text) h
  have hback : dropBlanks (trimBlanks text).reverse = (trimBlanks text).reverse := by
    rw [trimBlanks, List.reverse_reverse, dropBlanks_dropBlanks]
  have hboth := infix_dropBlanks hback (List.reverse_infix.mpr hfront)
  rwa [← List.reverse_infix, List.reverse_reverse] at hboth

theorem prefix_append_cons_iff {c : Char} {word text more : List Char} (h : c ∉ word) :
    word <+: text ++ c :: more ↔ word <+: text := by
  constructor
  · intro hword
    rcases List.prefix_or_prefix_of_prefix hword (List.prefix_append text (c :: more)) with ht | ht
    · exact ht
    · obtain ⟨rest, rfl⟩ := ht
      rw [List.prefix_append_right_inj] at hword
      cases rest with
      | nil => simp
      | cons d rest =>
        obtain ⟨rfl, -⟩ := List.cons_prefix_cons.mp hword
        exact absurd (by simp) h
  · exact fun ht => ht.trans (List.prefix_append _ _)

theorem exists_intercalate (separator : String) {texts : List String} {text : String}
    (h : text ∈ texts) : ∃ front back, separator.intercalate texts = front ++ text ++ back := by
  induction texts with
  | nil => cases h
  | cons first texts ih =>
    cases texts with
    | nil =>
      rw [List.mem_singleton.mp h, String.intercalate_singleton]
      exact ⟨"", "", by simp⟩
    | cons next texts =>
      rw [String.intercalate_cons_cons]
      rcases List.mem_cons.mp h with rfl | h
      · exact ⟨"", separator ++ separator.intercalate (next :: texts),
          by simp [String.append_assoc]⟩
      · obtain ⟨front, back, hrest⟩ := ih h
        exact ⟨first ++ separator ++ front, back, by rw [hrest]; simp only [String.append_assoc]⟩

namespace Occurs

variable {text whole more : String}

theorem refl (text : String) : Occurs text text := trimBlanks_infix text.toList

theorem empty (whole : String) : Occurs "" whole := List.nil_infix

theorem trim (h : Occurs text whole) : Occurs text (Text.trim whole) := by
  unfold Occurs Text.trim
  rw [String.toList_ofList]
  exact infix_trimBlanks h

theorem trans (h : Occurs text whole) (hw : Occurs whole more) : Occurs text more :=
  List.IsInfix.trans (infix_trimBlanks h) hw

theorem append_left (h : Occurs text whole) (front : String) : Occurs text (front ++ whole) := by
  unfold Occurs at h ⊢
  rw [String.toList_append]
  exact h.trans (List.suffix_append _ _).isInfix

theorem append_right (h : Occurs text whole) (back : String) : Occurs text (whole ++ back) := by
  unfold Occurs at h ⊢
  rw [String.toList_append]
  exact h.trans (List.prefix_append _ _).isInfix

theorem between (front text back : String) : Occurs text (front ++ text ++ back) :=
  ((refl text).append_left front).append_right back

theorem intercalate (separator : String) {texts : List String} (h : text ∈ texts) :
    Occurs text (separator.intercalate texts) := by
  obtain ⟨front, back, hall⟩ := exists_intercalate separator h
  rw [hall]
  exact between front text back

end Occurs

end Text

open Text (Occurs)

def Enclosed (text whole : String) : Prop := ∃ front back, whole = front ++ "(" ++ text ++ back

theorem Enclosed.occurs {text whole : String} (h : Enclosed text whole) : Occurs text whole := by
  obtain ⟨front, back, rfl⟩ := h
  exact .between _ _ _

theorem Enclosed.trans {text whole more : String} (h : Enclosed text whole) {front back : String}
    (hw : more = front ++ whole ++ back) : Enclosed text more := by
  obtain ⟨f, b, rfl⟩ := h
  exact ⟨front ++ f, b ++ back, by simp only [hw, String.append_assoc]⟩

theorem Enclosed.dropPrefix? {text whole start rest : String} (h : Enclosed text whole)
    (hs : '(' ∉ start.toList) (hd : SqlDialects.dropPrefix? start whole = some rest) :
    Occurs text rest := by
  obtain ⟨front, back, rfl⟩ := h
  unfold SqlDialects.dropPrefix? at hd
  have hwhole : (front ++ "(" ++ text ++ back).toList =
      front.toList ++ '(' :: (text.toList ++ back.toList) := by
    simp
  rw [hwhole] at hd
  split at hd
  · next hp =>
    obtain ⟨more, hmore⟩ := (Text.prefix_append_cons_iff hs).mp (List.isPrefixOf_iff_prefix.mp hp)
    rw [← Option.some.inj hd, ← hmore, List.append_assoc, List.drop_left]
    unfold Occurs
    rw [String.toList_ofList]
    exact (Text.trimBlanks_infix _).trans ⟨more ++ ['('], back.toList, by simp⟩
  · cases hd

theorem Enclosed.insertTop {text sql : String} (h : Enclosed text sql) :
    Occurs text (insertTop sql) := by
  unfold SqlDialects.insertTop
  cases hd : SqlDialects.dropPrefix? "SELECT DISTINCT" sql with
  | some rest => exact (h.dropPrefix? (by decide) hd).append_left _
  | none =>
    dsimp only
    cases hs : SqlDialects.dropPrefix? "SELECT" sql with
    | some rest => exact (h.dropPrefix? (by decide) hs).append_left _
    | none => exact h.occurs.append_left _

theorem occurs_following {xs : List (Condition Rendering × String)} {x : Condition Rendering}
    {text : String} (h : (x, text) ∈ xs) : Occurs text (Compiler.chain.following xs) := by
  induction xs with
  | nil => cases h
  | cons y xs ih =>
    obtain ⟨y, sql⟩ := y
    by_cases hne : sql = ""
    · subst hne
      rcases List.mem_cons.mp h with h | h
      · cases h
        exact .empty _
      · exact ih h
    · rw [Compiler.following_cons_of_ne hne]
      rcases List.mem_cons.mp h with h | h
      · cases h
        exact .between _ _ _
      · exact (ih h).append_left _

theorem occurs_chain {xs : List (Condition Rendering × String)} {x : Condition Rendering}
    {text : String} (h : (x, text) ∈ xs) : Occurs text (Compiler.chain xs) := by
  induction xs with
  | nil => cases h
  | cons y xs ih =>
    obtain ⟨y, sql⟩ := y
    by_cases hne : sql = ""
    · subst hne
      rcases List.mem_cons.mp h with h | h
      · cases h
        exact .empty _
      · exact ih h
    · rw [Compiler.chain_cons_of_ne hne]
      rcases List.mem_cons.mp h with h | h
      · cases h
        exact (Occurs.refl _).append_right _
      · exact (occurs_following h).append_left _

theorem occurs_joinParts {parts : List (Option String)} (part : Option String) (h : part ∈ parts) :
    Occurs (part.getD "") (Compiler.joinParts parts) := by
  cases part with
  | none => exact .empty _
  | some text =>
    by_cases ht : text.isEmpty = true
    · rw [Option.getD_some, String.isEmpty_iff.mp ht]
      exact .empty _
    · refine .intercalate " " (List.mem_filterMap.mpr ⟨some text, h, ?_⟩)
      simp [Option.filter, ht]

theorem occurs_negate (text : String) (isNot : Bool) : Occurs text (negate isNot text) := by
  cases isNot with
  | false => exact .refl text
  | true => exact .between "NOT (" text ")"

end SqlDialects
