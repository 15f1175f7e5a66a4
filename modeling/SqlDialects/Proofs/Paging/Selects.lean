import SqlDialects.Proofs.Paging.Clauses
import SqlDialects.Proofs.Paging.Numbered
import SqlDialects.Proofs.Paging.Statements

/-!
A select with a limit and an offset against the select of all its rows. The two differ in nothing
but what asks for the page, wherever the engine has that.
-/

namespace SqlDialects

theorem dropPrefix?_eq_some {start text rest : String} (h : dropPrefix? start text = some rest) :
    text = start ++ rest := by
  unfold dropPrefix? at h
  split at h
  · next hp =>
    obtain ⟨more, hmore⟩ := List.isPrefixOf_iff_prefix.mp hp
    cases h
    simp [← String.toList_inj, ← hmore]
  · cases h

theorem insertTop_eq {sql : String} (h : Reading.IsSelect sql) :
    ∃ keywords rest, (keywords = "SELECT" ∨ keywords = "SELECT DISTINCT") ∧
      sql = keywords ++ rest ∧ insertTop sql = keywords ++ " " ++ "TOP (?)" ++ rest := by
  unfold insertTop
  cases hd : dropPrefix? "SELECT DISTINCT" sql with
  | some rest => exact ⟨_, rest, .inr rfl, dropPrefix?_eq_some hd, rfl⟩
  | none =>
    have hselect : "SELECT".toList.isPrefixOf sql.toList = true := by
      refine List.isPrefixOf_iff_prefix.mpr (List.IsPrefix.trans ?_ h)
      exact ⟨[' '], rfl⟩
    have hs : dropPrefix? "SELECT" sql = some (String.ofList (sql.toList.drop 6)) := by
      rw [dropPrefix?, if_pos hselect]
      rfl
    rw [hs]
    exact ⟨_, _, .inl rfl, dropPrefix?_eq_some hs, rfl⟩

namespace Compiler

variable {c : Compiler} {ss : Scopes} {q : Statement Rendering} {outer : Scopes} {w : Window}

theorem columns_eq_basic (hw : q.window (some c.engine) = .ok w)
    (h : ¬(c.engine = .sqlServer ∧ c.legacyPaging = true) ∨ w.limit = 0 ∨ w.offset ≠ 0) :
    c.columns ss q = c.basicColumns ss q := by
  unfold columns
  dsimp only
  split
  · next hc =>
    have hno : ¬(w.limit ≠ 0 ∧ w.offset = 0) := by
      rcases h with h | h | h
      · exact absurd hc h
      · simp [h]
      · simp [h]
    rw [hw]
    cases ho : (c.basicColumns ss q).outcome with
    | error e => rfl
    | ok sql => simp only [hno, if_false]
  · rfl

theorem columns_eq_top (hw : q.window (some c.engine) = .ok w)
    (hc : c.engine = .sqlServer ∧ c.legacyPaging = true) (hl : w.limit ≠ 0) (ho : w.offset = 0)
    {columns : Fragment} (hb : c.basicColumns ss q = ⟨columns.bindings, .ok columns.sql⟩) :
    c.columns ss q = ⟨.uint w.limit :: columns.bindings, .ok (insertTop columns.sql)⟩ := by
  unfold Compiler.columns
  dsimp only
  rw [if_pos hc, hb, hw]
  exact if_pos ⟨hl, ho⟩

theorem page_of_legacy (hl : c.engine = .sqlServer ∧ c.legacyPaging = true)
    (q : Statement Rendering) : c.page q = pure none := by
  rw [page, hl.1]
  exact if_pos hl.2

theorem page_of_noWindow (h : q.window (some c.engine) = .ok ⟨0, 0⟩) : c.page q = pure none := by
  by_cases hl : c.engine = .sqlServer ∧ c.legacyPaging = true
  · exact page_of_legacy hl q
  · rw [c.page_eq hl, h, Emit.lift_ok_bind]
    cases c.engine <;> rfl

section AllRows

variable (hcomb : q.has .combine (some c.engine) = false)

include hcomb

omit hcomb in
theorem numberedSelect_eq (hw : q.window (some c.engine) = .ok w) :
    c.numberedSelect q outer = (do
      let text ← (c.orders q).outcome
      let inner ← c.basicSelect
        (numberRows (q.starred c.engine) ⟨text.getD anyOrder, (c.orders q).bound⟩) outer
      return ⟨"SELECT * FROM (" ++ inner.sql ++ ") AS [results_wrapper] WHERE " ++ w.range.sql,
        inner.bindings ++ w.range.bindings⟩) := by
  have hlead : ") AS [results_wrapper] WHERE [row_num] " =
      ") AS [results_wrapper] WHERE " ++ "[row_num] " := by decide
  have habove : "[row_num] " ++ ">= ?" = "[row_num] >= ?" := by decide
  have hbetween : "[row_num] " ++ "BETWEEN ? AND ?" = "[row_num] BETWEEN ? AND ?" := by decide
  unfold numberedSelect
  rw [hw, ← orders_starred]
  refine congrArg (Except.bind (c.orders (q.starred c.engine)).outcome) (funext fun text => ?_)
  refine congrArg (Except.bind (c.basicSelect _ outer)) (funext fun inner => ?_)
  unfold Window.range
  by_cases hl : w.limit = 0
  · simp only [hl, if_true, hlead, ← habove, String.append_assoc]
  · simp only [hl, if_false, hlead, ← hbetween, String.append_assoc]

end AllRows

end Compiler

end SqlDialects
