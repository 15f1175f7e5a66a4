import SqlDialects.Proofs.Text.Mark
import SqlDialects.Render.Select

/-!
SQL as one list of characters and values in the order of the text. The text has a placeholder
for each value; text and bindings are both read off the list.
-/

namespace SqlDialects

/-- One place of an SQL text. -/
inductive Glyph where
  | char (c : Char)
  | value (v : Value)

namespace Glyph

def face : Glyph → Char
  | char c => c
  | value _ => '?'

def value? : Glyph → Option Value
  | char _ => none
  | value v => some v

def isBlank (g : Glyph) : Bool := Text.isBlank g.face

end Glyph

abbrev Script := List Glyph

namespace Script

def text (t : String) : Script := t.toList.map .char

def sql (s : Script) : String := String.ofList (s.map Glyph.face)

def values (s : Script) : List Value := s.filterMap Glyph.value?

def fragment (s : Script) : Fragment := ⟨s.sql, s.values⟩

/-- Every placeholder of the text stands for a value. -/
def Aligned (s : Script) : Prop := .char '?' ∉ s

/-- SQL text that brings its own bindings, one for each placeholder in it. -/
def raw : List Char → List Value → Script
  | [], _ => []
  | '?' :: rest, v :: vs => .value v :: raw rest vs
  | c :: rest, vs => .char c :: raw rest vs

def join (separator : String) (parts : List Script) : Script :=
  List.intercalate (text separator) parts

def trim (s : Script) : Script :=
  ((s.dropWhile Glyph.isBlank).reverse.dropWhile Glyph.isBlank).reverse

def dropPrefix? (start : String) (s : Script) : Option Script :=
  if start.toList.isPrefixOf (s.map Glyph.face) then some (s.drop start.toList.length) else none

@[simp] theorem sql_nil : sql [] = "" := rfl

@[simp] theorem values_nil : values [] = [] := rfl

@[simp] theorem sql_append (a b : Script) : sql (a ++ b) = sql a ++ sql b := by
  simp [sql]

@[simp] theorem values_append (a b : Script) : values (a ++ b) = values a ++ values b :=
  List.filterMap_append

@[simp] theorem aligned_append {a b : Script} : Aligned (a ++ b) ↔ Aligned a ∧ Aligned b := by
  simp [Aligned]

@[simp] theorem aligned_nil : Aligned [] := List.not_mem_nil

@[simp] theorem sql_text (t : String) : sql (text t) = t := by
  simp [sql, text, Function.comp_def, Glyph.face]

@[simp] theorem values_text (t : String) : values (text t) = [] := by
  simp [values, text, Glyph.value?]

@[simp] theorem aligned_text {t : String} : Aligned (text t) ↔ Text.Unmarked t := by
  simp [Aligned, text, Text.Unmarked]

@[simp] theorem sql_value_cons (v : Value) (s : Script) : sql (.value v :: s) = "?" ++ sql s :=
  sql_append [.value v] s

@[simp] theorem values_value_cons (v : Value) (s : Script) :
    values (.value v :: s) = v :: values s := rfl

@[simp] theorem aligned_value_cons {v : Value} {s : Script} :
    Aligned (.value v :: s) ↔ Aligned s := by
  simp [Aligned]

theorem sql_eq_empty {s : Script} : s.sql = "" ↔ s = [] := by
  simp [sql, ← String.toList_inj]

@[simp] theorem join_nil (separator : String) : join separator [] = [] := rfl

@[simp] theorem join_singleton (separator : String) (p : Script) : join separator [p] = p := by
  simp [join]

@[simp] theorem join_cons_cons (separator : String) (p q : Script) (parts : List Script) :
    join separator (p :: q :: parts) = p ++ text separator ++ join separator (q :: parts) :=
  List.intercalate_cons_cons

theorem sql_join (separator : String) (parts : List Script) :
    (join separator parts).sql = separator.intercalate (parts.map sql) := by
  rw [← String.toList_inj, String.toList_intercalate]
  induction parts with
  | nil => rfl
  | cons p parts ih =>
    cases parts with
    | nil => simp
    | cons q parts =>
      rw [join_cons_cons, sql_append, sql_append, sql_text, String.toList_append,
        String.toList_append, ih]
      simp [List.intercalate_cons_cons]

theorem values_join (separator : String) (parts : List Script) :
    (join separator parts).values = parts.flatMap values := by
  induction parts with
  | nil => rfl
  | cons p parts ih =>
    cases parts with
    | nil => simp
    | cons q parts =>
      rw [join_cons_cons, values_append, values_append, values_text, ih]
      simp

theorem aligned_join {separator : String} (hs : Text.Unmarked separator) {parts : List Script}
    (h : ∀ p ∈ parts, p.Aligned) : (join separator parts).Aligned := by
  induction parts with
  | nil => exact aligned_nil
  | cons p parts ih =>
    have hp := h p List.mem_cons_self
    have hr := ih fun q hq => h q (List.mem_cons_of_mem _ hq)
    cases parts with
    | nil => simpa using hp
    | cons q parts =>
      rw [join_cons_cons, aligned_append, aligned_append, aligned_text]
      exact ⟨⟨hp, hs⟩, hr⟩

theorem values_dropWhile_isBlank (s : Script) :
    values (s.dropWhile Glyph.isBlank) = s.values := by
  induction s with
  | nil => rfl
  | cons g s ih =>
    cases g with
    | value v => rfl
    | char c =>
      rw [List.dropWhile_cons]
      split
      · exact ih
      · rfl

theorem values_reverse (s : Script) : values s.reverse = s.values.reverse :=
  List.filterMap_reverse

@[simp] theorem values_trim (s : Script) : s.trim.values = s.values := by
  rw [trim, values_reverse, values_dropWhile_isBlank, values_reverse, values_dropWhile_isBlank,
    List.reverse_reverse]

@[simp] theorem sql_trim (s : Script) : s.trim.sql = Text.trim s.sql := by
  have hb (s : Script) : (s.dropWhile Glyph.isBlank).map Glyph.face =
      Text.dropBlanks (s.map Glyph.face) := by
    rw [Text.dropBlanks, List.dropWhile_map]
    rfl
  simp [trim, sql, Text.trim, Text.trimBlanks, ← hb, ← List.map_reverse]

theorem Aligned.trim {s : Script} (h : s.Aligned) : s.trim.Aligned := by
  unfold Script.trim
  intro hm
  have hr := (List.dropWhile_sublist _).mem (List.mem_reverse.mp hm)
  exact h ((List.dropWhile_sublist _).mem (List.mem_reverse.mp hr))

@[simp] theorem sql_raw (t : List Char) (vs : List Value) : (raw t vs).sql = String.ofList t := by
  have hf : (raw t vs).map Glyph.face = t := by
    fun_induction raw t vs with
    | case1 vs => rfl
    | case2 rest v vs ih => rw [List.map_cons, ih]; rfl
    | case3 c rest vs _ ih => rw [List.map_cons, ih]; rfl
  rw [sql, hf]

theorem raw_of_count {t : List Char} {vs : List Value} (h : t.count '?' = vs.length) :
    (raw t vs).values = vs ∧ (raw t vs).Aligned := by
  fun_induction raw t vs with
  | case1 vs =>
    have hv : vs = [] := List.length_eq_zero_iff.mp h.symm
    exact ⟨hv.symm, aligned_nil⟩
  | case2 rest v vs ih =>
    simp only [List.count_cons_self, List.length_cons, Nat.add_right_cancel_iff] at h
    obtain ⟨hv, ha⟩ := ih h
    refine ⟨congrArg (v :: ·) hv, ?_⟩
    simpa [Aligned] using ha
  | case3 c rest vs hc ih =>
    have hne : c ≠ '?' := by
      rintro rfl
      cases vs with
      | nil => simp at h
      | cons v vs => exact hc v vs rfl rfl
    rw [List.count_cons_of_ne hne] at h
    obtain ⟨hv, ha⟩ := ih h
    refine ⟨hv, ?_⟩
    simpa [Aligned, Ne.symm hne] using ha

theorem count_sql {s : Script} (h : s.Aligned) : Text.marks s.sql = s.values.length := by
  rw [Text.marks, sql, String.toList_ofList]
  induction s with
  | nil => rfl
  | cons g s ih =>
    have hs := ih fun hm => h (List.mem_cons_of_mem _ hm)
    cases g with
    | value v => simp [Glyph.face, values, Glyph.value?] at hs ⊢; exact hs
    | char c =>
      have hc : c ≠ '?' := by
        rintro rfl
        exact h List.mem_cons_self
      simp only [List.map_cons, Glyph.face, List.count_cons_of_ne hc]
      exact hs

/-- A placeholder of the text stands for the value that has as many values before it as the
placeholder has placeholders. -/
theorem Aligned.value_at {s : Script} (h : s.Aligned) {i : Nat}
    (hi : s.sql.toList[i]? = some '?') :
    ∃ v, s[i]? = some (.value v) ∧ s.values[(s.sql.toList.take i).count '?']? = some v := by
  rw [sql, String.toList_ofList] at *
  induction s generalizing i with
  | nil => simp at hi
  | cons g s ih =>
    have hs : Aligned s := fun hm => h (List.mem_cons_of_mem _ hm)
    have hg : ∀ c, g = .char c → c ≠ '?' := by
      rintro c rfl rfl
      exact h List.mem_cons_self
    cases i with
    | zero =>
      cases g with
      | value v => exact ⟨v, rfl, rfl⟩
      | char c => exact absurd (by simpa [Glyph.face] using hi) (hg c rfl)
    | succ i =>
      obtain ⟨v, hv, hvs⟩ := ih hs (by simpa using hi)
      refine ⟨v, by simpa using hv, ?_⟩
      cases g with
      | value w => simpa [Glyph.face, values, Glyph.value?] using hvs
      | char c =>
        simp only [List.map_cons, List.take_succ_cons, Glyph.face, List.count_cons_of_ne (hg c rfl)]
        exact hvs

theorem values_drop {start : List Char} {s : Script} (hs : '?' ∉ start)
    (h : start.isPrefixOf (s.map Glyph.face)) : values (s.drop start.length) = s.values := by
  induction start generalizing s with
  | nil => rfl
  | cons c start ih =>
    cases s with
    | nil => cases h
    | cons g s =>
      rw [List.map_cons, List.isPrefixOf, Bool.and_eq_true, beq_iff_eq] at h
      obtain ⟨rfl, h⟩ := h
      have hr := ih (fun hm => hs (List.mem_cons_of_mem _ hm)) h
      cases g with
      | value v => exact absurd List.mem_cons_self hs
      | char c => exact hr

theorem dropPrefix?_sql (start : String) (s : Script) :
    SqlDialects.dropPrefix? start s.sql = (dropPrefix? start s).map sql := by
  unfold SqlDialects.dropPrefix? dropPrefix?
  rw [sql, String.toList_ofList]
  split
  · simp [sql, List.map_drop]
  · rfl

theorem values_dropPrefix? {start : String} {s rest : Script} (hs : Text.Unmarked start)
    (h : dropPrefix? start s = some rest) : rest.values = s.values := by
  unfold dropPrefix? at h
  split at h
  · next hp =>
    cases h
    exact values_drop hs hp
  · cases h

theorem Aligned.dropPrefix? {start : String} {s rest : Script} (h : s.Aligned)
    (hr : s.dropPrefix? start = some rest) : rest.Aligned := by
  unfold Script.dropPrefix? at hr
  split at hr
  · cases hr
    exact fun hm => h ((List.drop_sublist _ _).mem hm)
  · cases hr

end Script

end SqlDialects
