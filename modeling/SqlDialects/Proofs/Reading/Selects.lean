import SqlDialects.Proofs.Operator.Success
import SqlDialects.Proofs.Reading.Tokens

/-!
However a select is rendered, its text begins as one.
-/

namespace SqlDialects

open Reading

theorem isSelect_word : IsSelect "SELECT " := List.prefix_rfl

theorem isSelect_append {start : String} (h : IsSelect start) (rest : String) :
    IsSelect (start ++ rest) := by
  rw [IsSelect, String.toList_append]
  exact h.trans (List.prefix_append _ _)

theorem isSelect_insertTop (sql : String) : IsSelect (insertTop sql) := by
  have hdistinct : IsSelect "SELECT DISTINCT TOP (?)" :=
    isSelect_append isSelect_word "DISTINCT TOP (?)"
  have htop : IsSelect "SELECT TOP (?)" := isSelect_append isSelect_word "TOP (?)"
  unfold insertTop
  split
  · exact isSelect_append hdistinct _
  · exact isSelect_append htop _

theorem isSelect_joinParts {columns : String} (h : IsSelect columns)
    (parts : List (Option String)) : IsSelect (Compiler.joinParts (some columns :: parts)) := by
  have hne : columns ≠ "" := by
    rintro rfl
    exact absurd (List.prefix_nil.mp h) (by decide)
  unfold Compiler.joinParts
  rw [List.filterMap_cons_some (b := columns) (by simp [hne])]
  cases parts.filterMap (fun part => part.filter (!·.isEmpty)) with
  | nil => simpa using h
  | cons part parts =>
    rw [String.intercalate_cons_cons, String.append_assoc]
    exact isSelect_append h _

namespace Compiler

variable {c : Compiler} {ss : Scopes} {q : Statement Rendering}

theorem isSelect_aggregateCall (distinct : Bool) (a : Aggregate) :
    IsSelect (c.aggregateCall distinct a) := by
  unfold aggregateCall
  split
  · simp only [String.append_assoc]
    exact isSelect_append isSelect_word _
  · exact isSelect_append isSelect_word "1"

theorem isSelect_basicColumns {sql : String} (h : (c.basicColumns ss q).outcome = .ok sql) :
    IsSelect sql := by
  obtain ⟨a, -, h⟩ := Emit.bind_eq_ok h
  cases a with
  | some a =>
    cases h
    exact isSelect_aggregateCall _ a
  | none =>
    obtain ⟨columns, -, h⟩ := Emit.bind_eq_ok h
    obtain ⟨texts, -, h⟩ := Emit.bind_eq_ok h
    cases h
    rw [String.append_assoc]
    exact isSelect_append isSelect_word _

theorem isSelect_columns {sql : String} (h : (c.columns ss q).outcome = .ok sql) :
    IsSelect sql := by
  unfold columns at h
  dsimp only at h
  split at h
  · split at h
    · split at h
      · cases h
        exact isSelect_insertTop _
      · exact isSelect_basicColumns h
    · cases h
    · exact isSelect_basicColumns h
  · exact isSelect_basicColumns h

theorem isSelect_selectText {sql : String} (h : (c.selectText ss q).outcome = .ok sql) :
    IsSelect sql := by
  obtain ⟨columns, hcolumns, h⟩ := Emit.bind_eq_ok h
  obtain ⟨_, -, h⟩ := Emit.bind_eq_ok h
  obtain ⟨_, -, h⟩ := Emit.bind_eq_ok h
  obtain ⟨_, -, h⟩ := Emit.bind_eq_ok h
  obtain ⟨_, -, h⟩ := Emit.bind_eq_ok h
  obtain ⟨_, -, h⟩ := Emit.bind_eq_ok h
  obtain ⟨_, -, h⟩ := Emit.bind_eq_ok h
  obtain ⟨_, -, h⟩ := Emit.bind_eq_ok h
  obtain ⟨_, -, h⟩ := Emit.bind_eq_ok h
  cases h
  exact isSelect_joinParts (isSelect_columns hcolumns) _

theorem isSelect_basicSelect {f : Fragment} (h : c.basicSelect q ss = .ok f) :
    IsSelect f.sql := by
  unfold basicSelect Emit.toFragment at h
  cases ho : (c.selectText (q.vars :: ss) q).outcome with
  | error e =>
    rw [ho] at h
    cases h
  | ok sql =>
    rw [ho] at h
    cases h
    exact isSelect_selectText ho

theorem isSelect_numberedSelect {f : Fragment} (h : c.numberedSelect q ss = .ok f) :
    IsSelect f.sql := by
  have hstart : IsSelect "SELECT * FROM (" := isSelect_append isSelect_word "* FROM ("
  unfold numberedSelect at h
  obtain ⟨w, -, h⟩ := bind_eq_ok h
  obtain ⟨text, -, h⟩ := bind_eq_ok h
  obtain ⟨inner, -, h⟩ := bind_eq_ok h
  dsimp only at h
  split at h
  · cases h
    simp only [String.append_assoc]
    exact isSelect_append hstart _
  · cases h
    simp only [String.append_assoc]
    exact isSelect_append hstart _

theorem isSelect_select {f : Fragment} (h : c.select q ss = .ok f) : IsSelect f.sql := by
  unfold select at h
  split at h
  · obtain ⟨offset, -, h⟩ := bind_eq_ok h
    split at h
    · exact isSelect_basicSelect h
    · exact isSelect_numberedSelect h
  · exact isSelect_basicSelect h

theorem isSelect_rendering {n : Subquery} {f : Fragment} (h : (c.rendering n).select ss = .ok f) :
    IsSelect f.sql := by
  obtain ⟨q⟩ := n
  rw [rendering_of] at h
  exact isSelect_select h

end Compiler

end SqlDialects
