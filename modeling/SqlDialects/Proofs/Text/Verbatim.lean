import Mathlib.Data.List.Infix
import SqlDialects.Dialect

/-!
SQL text that the passes over its marks leave as it is. A pass that changes a text makes it lighter,
and no later one makes it heavier again, so a text stays only if every pass finds nothing to do.
-/

namespace SqlDialects

namespace Text

variable {escape mark replacement : Char}

def Untouched (escape mark replacement : Char) (text : List Char) : Prop :=
  ¬ [escape, mark] <:+: text ∧ (mark = replacement ∨ mark ∉ text)

instance (escape mark replacement : Char) (text : List Char) :
    Decidable (Untouched escape mark replacement text) :=
  inferInstanceAs (Decidable (_ ∧ _))

theorem Untouched.tail {c : Char} {text : List Char}
    (h : Untouched escape mark replacement (c :: text)) : Untouched escape mark replacement text :=
  ⟨fun hi => h.1 (List.infix_cons hi), h.2.imp_right fun hn hm => hn (List.mem_cons_of_mem c hm)⟩

section Passes

variable (escape mark replacement)

theorem replaceUnescapedFrom_escaped (rest : List Char) :
    replaceUnescapedFrom [escape] [mark] [replacement] 0 (escape :: mark :: rest) =
      mark :: replaceUnescapedFrom [escape] [mark] [replacement] 0 rest := by
  rw [replaceUnescapedFrom, if_pos (by simp)]
  rfl

variable {escape mark}

theorem replaceUnescapedFrom_mark (h : mark ≠ escape) (rest : List Char) :
    replaceUnescapedFrom [escape] [mark] [replacement] 0 (mark :: rest) =
      replacement :: replaceUnescapedFrom [escape] [mark] [replacement] 0 rest := by
  rw [replaceUnescapedFrom, if_neg (by simp [h.symm]), if_pos (by simp)]
  rfl

theorem replaceUnescapedFrom_other {c : Char} {rest : List Char} (hc : c ≠ mark)
    (he : ¬ [escape, mark] <+: c :: rest) :
    replaceUnescapedFrom [escape] [mark] [replacement] 0 (c :: rest) =
      c :: replaceUnescapedFrom [escape] [mark] [replacement] 0 rest := by
  rw [replaceUnescapedFrom, if_neg (by simpa using he), if_neg (by simp [hc.symm])]

end Passes

theorem Untouched.replaceUnescapedFrom_eq (hne : mark ≠ escape) {text : List Char}
    (h : Untouched escape mark replacement text) :
    replaceUnescapedFrom [escape] [mark] [replacement] 0 text = text := by
  induction text with
  | nil => rfl
  | cons c rest ih =>
    by_cases hc : c = mark
    · have hsame : mark = replacement := h.2.resolve_right fun hn => hn (hc ▸ List.mem_cons_self)
      rw [hc, replaceUnescapedFrom_mark replacement hne, ih h.tail, ← hsame]
    · have he : ¬ [escape, mark] <+: c :: rest := fun hp => h.1 hp.isInfix
      rw [replaceUnescapedFrom_other replacement hc he, ih h.tail]

/-- What makes a text heavy: escapes, and marks that are replaced. -/
structure Weighs (heavy : Char → Bool) (escape mark replacement : Char) : Prop where
  mark_ne : mark ≠ escape
  heavy_escape : heavy escape = true
  heavy_mark : mark ≠ replacement → heavy mark = true ∧ heavy replacement = false

variable {heavy : Char → Bool}

/-- A pass never makes a text heavier, and lightens one that it does not leave alone. -/
theorem Weighs.countP_le (hw : Weighs heavy escape mark replacement) (text : List Char) :
    (replaceUnescapedFrom [escape] [mark] [replacement] 0 text).countP heavy ≤ text.countP heavy ∧
      (Untouched escape mark replacement text ∨
        (replaceUnescapedFrom [escape] [mark] [replacement] 0 text).countP heavy <
          text.countP heavy) := by
  induction hn : text.length using Nat.strong_induction_on generalizing text with
  | _ n ih =>
    cases text with
    | nil => exact ⟨le_rfl, .inl ⟨by simp, .inr (by simp)⟩⟩
    | cons c rest =>
      have hlen : rest.length < n := by simp [← hn]
      obtain ⟨hle, hcases⟩ := ih _ hlen rest rfl
      by_cases hc : c = mark
      · subst hc
        rw [replaceUnescapedFrom_mark replacement hw.mark_ne]
        by_cases hsame : c = replacement
        · subst hsame
          rw [List.countP_cons, List.countP_cons]
          refine ⟨by omega, hcases.imp (fun h => ⟨fun hi => ?_, .inl rfl⟩) (by omega)⟩
          rcases List.infix_cons_iff.mp hi with hp | hi
          · exact hw.mark_ne (List.cons_prefix_cons.mp hp).1.symm
          · exact h.1 hi
        · obtain ⟨hmark, hreplacement⟩ := hw.heavy_mark hsame
          rw [List.countP_cons_of_pos hmark, List.countP_cons_of_neg (by simp [hreplacement])]
          exact ⟨by omega, .inr (by omega)⟩
      · by_cases he : [escape, mark] <+: c :: rest
        · obtain ⟨more, hmore⟩ := he
          obtain ⟨rfl, rfl⟩ : escape = c ∧ mark :: more = rest := by simpa using hmore
          have hmoreLen : more.length < n := by
            rw [List.length_cons] at hlen
            omega
          obtain ⟨hmoreLe, -⟩ := ih _ hmoreLen more rfl
          rw [replaceUnescapedFrom_escaped, List.countP_cons_of_pos hw.heavy_escape,
            List.countP_cons, List.countP_cons]
          exact ⟨by omega, .inr (by omega)⟩
        · rw [replaceUnescapedFrom_other replacement hc he, List.countP_cons, List.countP_cons]
          refine ⟨by omega, hcases.imp (fun h => ⟨fun hi => ?_, ?_⟩) (by omega)⟩
          · exact (List.infix_cons_iff.mp hi).elim he h.1
          · exact h.2.imp_right fun hm => by simp [Ne.symm hc, hm]

end Text

namespace Engine

/-- No pass over SQL text changes this text: it has no escaped mark, and no mark that is not the
engine's own quote. -/
def Verbatim (e : Engine) (text : String) : Prop :=
  ∀ m ∈ delimiters e.dialect, Text.Untouched e.dialect.escape m.1 m.2 text.toList

instance (e : Engine) (text : String) : Decidable (e.Verbatim text) :=
  inferInstanceAs (Decidable (∀ m ∈ _, _))

def heavy (e : Engine) (c : Char) : Bool :=
  c == e.dialect.escape || (delimiters e.dialect).any fun m => m.1 == c && m.1 != m.2

theorem weighs (e : Engine) : ∀ m ∈ delimiters e.dialect,
    Text.Weighs e.heavy e.dialect.escape m.1 m.2 := by
  have hmarks : ∀ m ∈ delimiters e.dialect, m.1 ≠ e.dialect.escape ∧
      (m.1 ≠ m.2 → e.heavy m.1 = true ∧ e.heavy m.2 = false) := by
    cases e <;> decide
  intro m hm
  exact ⟨(hmarks m hm).1, by simp [heavy], (hmarks m hm).2⟩

def pass (e : Engine) (sql : String) (m : Char × Char) : String :=
  Text.replaceUnescaped e.dialect.escape.toString m.1.toString m.2.toString sql

theorem toList_pass (e : Engine) (sql : String) (m : Char × Char) :
    (e.pass sql m).toList =
      Text.replaceUnescapedFrom [e.dialect.escape] [m.1] [m.2] 0 sql.toList := by
  simp [pass, Text.replaceUnescaped]

section Passes

variable {e : Engine} {marks : List (Char × Char)} (hm : ∀ m ∈ marks, m ∈ delimiters e.dialect)

include hm

theorem foldl_pass_eq_self {sql : String}
    (h : ∀ m ∈ marks, Text.Untouched e.dialect.escape m.1 m.2 sql.toList) :
    marks.foldl e.pass sql = sql := by
  induction marks with
  | nil => rfl
  | cons m marks ih =>
    obtain ⟨hfirst, hrest⟩ := List.forall_mem_cons.mp h
    obtain ⟨hmark, hmarks⟩ := List.forall_mem_cons.mp hm
    have hsame : e.pass sql m = sql := by
      rw [← String.toList_inj, toList_pass,
        hfirst.replaceUnescapedFrom_eq (e.weighs m hmark).mark_ne]
    rw [List.foldl_cons, hsame]
    exact ih hmarks hrest

theorem countP_foldl_pass (sql : String) :
    (marks.foldl e.pass sql).toList.countP e.heavy ≤ sql.toList.countP e.heavy ∧
      ((∀ m ∈ marks, Text.Untouched e.dialect.escape m.1 m.2 sql.toList) ∨
        (marks.foldl e.pass sql).toList.countP e.heavy < sql.toList.countP e.heavy) := by
  induction marks generalizing sql with
  | nil => exact ⟨le_rfl, .inl (by simp)⟩
  | cons m marks ih =>
    obtain ⟨hmark, hmarks⟩ := List.forall_mem_cons.mp hm
    have hw := e.weighs m hmark
    obtain ⟨hle, hcases⟩ := hw.countP_le sql.toList
    rw [← toList_pass] at hle hcases
    obtain ⟨hrestLe, hrest⟩ := ih hmarks (e.pass sql m)
    rw [List.foldl_cons]
    refine ⟨hrestLe.trans hle, ?_⟩
    rcases hcases with hfirst | hlt
    · have hsame : e.pass sql m = sql := by
        rw [← String.toList_inj, toList_pass, hfirst.replaceUnescapedFrom_eq hw.mark_ne]
      rw [hsame] at hrest ⊢
      exact hrest.imp_left fun hall => List.forall_mem_cons.mpr ⟨hfirst, hall⟩
    · exact .inr (hrestLe.trans_lt hlt)

end Passes

theorem wrapIdentifiers_eq_self_iff (e : Engine) (sql : String) :
    e.wrapIdentifiers sql = sql ↔ e.Verbatim sql := by
  have hmarks : ∀ m ∈ delimiters e.dialect, m ∈ delimiters e.dialect := fun _ hm => hm
  constructor
  · intro (h : (delimiters e.dialect).foldl e.pass sql = sql)
    obtain ⟨-, hcases⟩ := countP_foldl_pass hmarks sql
    rw [h] at hcases
    exact hcases.resolve_right (lt_irrefl _)
  · exact foldl_pass_eq_self hmarks

end Engine

end SqlDialects
