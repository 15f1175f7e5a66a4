import SqlDialects.Proofs.Quoting.Whole

/-!
Strings that are written out as words, and not as names or values: the functions of aggregates, the
parts of dates, the seeds of random orders and the escapes of patterns. Nothing quotes them. A
statement is closed if each of them is where it stands, and one of them alone can leave it open.
-/

namespace SqlDialects

open Text

/-- Names are words, and no SQL text is written out. Everything else is arbitrary. -/
def Terms.worded : Terms where
  name := Simple
  value v := ∀ sql, v ≠ .raw sql
  raw _ _ := False

namespace Compiler

variable {c : Compiler}

theorem harmless_operator (h : ∀ op ∈ c.operators, Bare op) (operator : String) :
    c.harmless.operator operator := by
  intro op hop
  obtain ⟨-, haccepts⟩ := checkOperator_eq_ok hop
  have hsafe : ∀ op ∈ safeOperators, Bare op := by decide
  exact (accepts_iff.mp haccepts).elim (hsafe op) (h op)

/-- A whole statement is closed if nothing in it leaves anything open where it stands. -/
theorem compile_closes_of_harmless {q : Query} (hq : q.Obeys c.harmless) {r : Compiled}
    (h : c.compile q = .ok r) : c.engine.Closed r.rawSql := by
  obtain ⟨raw, hraw, h⟩ := SqlDialects.bind_eq_ok h
  obtain ⟨f, hf, hraw⟩ := SqlDialects.bind_eq_ok hraw
  obtain ⟨sql, hsql, hraw⟩ := SqlDialects.bind_eq_ok hraw
  cases hraw
  cases h
  rw [marker_eq] at hsql
  exact ((spans_assemble_of_harmless hq hf).expandMarkers hsql).closed

def closedWords : Query where
  clauses := [
    ⟨.source, none, .source (.table "t")⟩,
    ⟨.aggregate, none, .aggregate ⟨"f('(')", ["n"]⟩⟩,
    ⟨.filter, none, .condition ⟨.datePart "o''clock" "d" ">=" (.int 9), false, false⟩⟩,
    ⟨.filter, none, .condition ⟨.like "n" "LIKE" (.string "a") true (some '"'), false, false⟩⟩,
    ⟨.order, none, .order (.random ")('")⟩]

theorem compile_closes_closedWords :
    closedWords.Obeys (ofEngine .postgres).harmless ∧
    ∃ r, (ofEngine .postgres).compile closedWords = .ok r ∧
      r.rawSql = "SELECT F('(')(\"n\") AS \"f('(')\" FROM \"t\" WHERE " ++
        "DATE_PART('O''CLOCK', \"d\") >= ? AND \"n\" like ? ESCAPE '\"' ORDER BY RANDOM()" ∧
      Engine.postgres.Closed r.rawSql := by
  have hop := harmless_operator (c := ofEngine .postgres) (by rintro _ ⟨⟩)
  have hfunction : (ofEngine .postgres).harmless.function "f('(')" := by
    have hopen : Engine.postgres.Spans 0 1 "F(" := Engine.spans_of_nesting rfl
    have hwithin : '\'' ∉ "(".toList := by decide
    have hclose : Engine.postgres.Spans 1 0 ")" := Engine.spans_of_nesting rfl
    exact (hopen.append (Engine.spans_literal hwithin)).append hclose
  have hpart : (ofEngine .postgres).harmless.datePart "o''clock" := .inr (.inr fun _ => rfl)
  have hq : closedWords.Obeys (ofEngine .postgres).harmless := by
    have hescape : ∀ mark ∈ some '"', (ofEngine .postgres).harmless.escape mark := by
      rintro _ ⟨⟩
      exact (by decide : '"' ≠ '\'')
    refine ⟨by rintro _ ⟨⟩, ?_⟩
    simp only [closedWords, List.forall_mem_cons]
    refine ⟨trivial, ⟨hfunction, fun _ _ => trivial⟩, ⟨hpart, trivial, hop ">=", ?_⟩,
      ⟨trivial, hop "LIKE", ?_, hescape⟩, by rintro ⟨⟩, by simp⟩
    · rintro _ ⟨⟩
    · rintro _ ⟨⟩
  have hsql : ((ofEngine .postgres).compile closedWords).toOption.map (·.rawSql) =
      some ("SELECT F('(')(\"n\") AS \"f('(')\" FROM \"t\" WHERE " ++
        "DATE_PART('O''CLOCK', \"d\") >= ? AND \"n\" like ? ESCAPE '\"' ORDER BY RANDOM()") := by
    decide +kernel
  obtain ⟨r, hr, hsql⟩ := exists_compiled hsql
  exact ⟨hq, r, hr, hsql, compile_closes_of_harmless hq hr⟩

def LeavesOpen (c : Compiler) (q : Query) (sql : String) : Prop :=
  q.Obeys Terms.worded ∧ ∃ r, c.compile q = .ok r ∧ r.rawSql = sql ∧ ¬c.engine.Closed sql

theorem leavesOpen_of_rawSql {q : Query} {sql : String} (hq : q.Obeys Terms.worded)
    (h : (c.compile q).toOption.map (·.rawSql) = some sql) (hopen : ¬c.engine.Closed sql) :
    c.LeavesOpen q sql := by
  obtain ⟨r, hr, hsql⟩ := exists_compiled h
  exact ⟨hq, r, hr, hsql, hopen⟩

def rowsWith (component : Component) (kind : ClauseKind Subquery) : Query where
  clauses := [⟨.source, none, .source (.table "t")⟩, ⟨component, none, kind⟩]

theorem worded_rowsWith {component : Component} {kind : ClauseKind Subquery}
    (h : kind.Obeys Terms.worded (Subquery.Obeys Terms.worded)) :
    (rowsWith component kind).Obeys Terms.worded := by
  have htable : Terms.worded.name "t" := by
    show Simple "t"
    decide
  exact ⟨by rintro _ ⟨⟩, List.forall_mem_cons.mpr ⟨htable, List.forall_mem_singleton.mpr h⟩⟩

/-- One keyword can leave a statement open: an escape that is a quote, a function with a
parenthesis, a part of a date with a quote, a seed with a parenthesis. -/
theorem keywords_leave_open :
    (ofEngine .generic).LeavesOpen
      (rowsWith .filter (.condition
        ⟨.like "a" "like" (.string "x") true (some '\''), false, false⟩))
      "SELECT * FROM \"t\" WHERE \"a\" like ? ESCAPE '''" ∧
    (ofEngine .generic).LeavesOpen (rowsWith .aggregate (.aggregate ⟨"f(", ["a"]⟩))
      "SELECT F((\"a\") AS \"f(\" FROM \"t\"" ∧
    (ofEngine .postgres).LeavesOpen
      (rowsWith .filter (.condition ⟨.datePart "x'" "a" "=" (.int 1), false, false⟩))
      "SELECT * FROM \"t\" WHERE DATE_PART('X'', \"a\") = ?" ∧
    (ofEngine .mySql).LeavesOpen (rowsWith .order (.order (.random ")")))
      "SELECT * FROM \x60t\x60 ORDER BY RAND())" := by
  have hname : Terms.worded.name "a" := by
    show Simple "a"
    decide
  refine ⟨leavesOpen_of_rawSql (worded_rowsWith ?_) (by decide +kernel) (by decide),
    leavesOpen_of_rawSql (worded_rowsWith ?_) (by decide +kernel) (by decide),
    leavesOpen_of_rawSql (worded_rowsWith ?_) (by decide +kernel) (by decide),
    leavesOpen_of_rawSql (worded_rowsWith ?_) (by decide +kernel) (by decide)⟩
  · exact ⟨hname, trivial, by rintro _ ⟨⟩, fun _ _ => trivial⟩
  · exact ⟨trivial, List.forall_mem_singleton.mpr hname⟩
  · exact ⟨trivial, hname, trivial, by rintro _ ⟨⟩⟩
  · exact trivial

end Compiler

end SqlDialects
