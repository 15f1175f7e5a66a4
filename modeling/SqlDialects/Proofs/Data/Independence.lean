import SqlDialects.Proofs.Data.Kinds

/-!
SQL does not depend on data: statements that differ in their data only compile to the same text
with similar bindings, or fail in the same way.
-/

namespace SqlDialects

theorem keepsKinds_similarity : similarity.KeepsKinds where
  similar h := h
  bound := rfl
  uint n := .uint n n
  items h := by
    cases h with
    | array h => exact h
  pattern _ _ _ _ := .string _ _
  scopes := rfl
  noVars _ := .none
  find? h := h
  fault := Fault.Similar.same
  likeOperand := Fault.Similar.likeOperand
  spared _ h := h

structure Compiled.Similar (r s : Compiled) : Prop where
  rawSql : r.rawSql = s.rawSql
  sql : r.sql = s.sql
  bindings : List.Forall₂ Value.Similar r.bindings s.bindings
  named : List.Forall₂ (fun a b => a.1 = b.1 ∧ a.2.Similar b.2) r.named s.named

namespace Compiler

variable (c : Compiler)

/-- Statements that differ in their data only compile to the same SQL under the same names, with
similar values, or fail alike. -/
theorem compile_similar {p q : Query} (h : p.Similar q) :
    (∃ r s, c.compile p = .ok r ∧ c.compile q = .ok s ∧ r.Similar s) ∨
      ∃ e e', c.compile p = .error e ∧ c.compile q = .error e' ∧ e.Similar e' := by
  have hassemble := (keepsKinds_similarity.holds c).assemble (h.alike c.engine)
  refine (keepsKinds_similarity.compile c hassemble).imp_left ?_
  rintro ⟨r, s, hr, hs, hrs⟩
  exact ⟨r, s, hr, hs, hrs.rawSql, hrs.sql, hrs.bindings, hrs.named⟩

def searchFor (word : String) (numbers : List Int64) : Query where
  clauses := [⟨.source, none, .source (.table "users")⟩,
    ⟨.filter, none, .condition ⟨.like "name" "contains" (.string word) false none, false, false⟩⟩,
    ⟨.filter, none,
      .condition ⟨.raw "age in (?)" [.array (numbers.map .int)], false, false⟩⟩,
    ⟨.filter, none, .condition ⟨.compare "city" "=" (.var "city"), false, false⟩⟩]
  vars := [("city", .string word)]

theorem compile_similar_search :
    (searchFor "ann" [1, 2]).Similar (searchFor "'; ? --" [3, 4]) ∧
      ((Compiler.ofEngine .postgres).compile (searchFor "ann" [1, 2])).toOption.map (·.rawSql) =
        some ("SELECT * FROM \"users\" WHERE LOWER(\"name\") like ? AND age in (?,?)" ++
          " AND \"city\" = ?") ∧
      ((∃ r s, (Compiler.ofEngine .postgres).compile (searchFor "ann" [1, 2]) = .ok r ∧
          (Compiler.ofEngine .postgres).compile (searchFor "'; ? --" [3, 4]) = .ok s ∧
          r.Similar s) ∨
        ∃ e e', (Compiler.ofEngine .postgres).compile (searchFor "ann" [1, 2]) = .error e ∧
          (Compiler.ofEngine .postgres).compile (searchFor "'; ? --" [3, 4]) = .error e' ∧
          e.Similar e') := by
  have h : (searchFor "ann" [1, 2]).Similar (searchFor "'; ? --" [3, 4]) := by
    refine .mk .select none false none false false (fun name => ?_) ?_
    · unfold Variables.find?
      split
      · exact .some (.string _ _)
      · exact .none
    · have hitems : List.Forall₂ Value.Similar [.array [.int 1, .int 2]]
          [.array [.int 3, .int 4]] :=
        .cons (.array (.cons (.int 1 3) (.cons (.int 2 4) .nil))) .nil
      have hword : Value.Similar (.string "ann") (.string "'; ? --") := .string _ _
      have hcity : Value.Similar (.var "city") (.var "city") := .var "city"
      exact .cons (.mk _ none (.source (.table "users")))
        (.cons (.mk _ none (.condition (.mk (.like _ _ hword false none) false false)))
          (.cons (.mk _ none (.condition (.mk (.raw _ hitems) false false)))
            (.cons (.mk _ none (.condition (.mk (.compare _ _ hcity) false false)))
              .nil)))
  exact ⟨h, by decide +kernel, (Compiler.ofEngine .postgres).compile_similar h⟩

end Compiler

end SqlDialects
