import SqlDialects.Compiled
import SqlDialects.Proofs.Aggregate.Filters
import SqlDialects.Proofs.Select.SameRows

/-!
Aggregates as selects. The aggregate of one column is a select of the statement itself; any other is
put around a select of the rows that it is taken over, whose bindings are its own.
-/

namespace SqlDialects

namespace Query

variable {e : Engine} {p q : Query}

theorem bucket_unpaged_of_ne (q : Query) {component : Component} (hl : component ≠ .limit)
    (ho : component ≠ .order) (hg : component ≠ .group) (engine : Option Engine) :
    q.unpaged.bucket component engine = q.bucket component engine := by
  rw [unpaged, Statement.bucket_clear_of_ne _ hg, Statement.bucket_clear_of_ne _ ho,
    Statement.bucket_clear_of_ne _ hl]

theorem sameRows_nullTests (h : p.SameRows e q) (ho : p.pendingOr = q.pendingOr)
    (hn : p.pendingNot = q.pendingNot) (columns : List String) :
    (columns.foldl (fun q name => q.notNext.addCondition .filter (.isNull name)) p).SameRows e
      (columns.foldl (fun q name => q.notNext.addCondition .filter (.isNull name)) q) := by
  induction columns generalizing p q with
  | nil => exact h
  | cons name columns ih =>
    have hkind : (ClauseKind.condition ⟨.isNull name, p.pendingOr, !p.pendingNot⟩ :
        ClauseKind Subquery) = .condition ⟨.isNull name, q.pendingOr, !q.pendingNot⟩ := by
      rw [ho, hn]
    have hadd := h.add .filter (.condition ⟨.isNull name, p.pendingOr, !p.pendingNot⟩)
    have hstep : (p.notNext.addCondition .filter (.isNull name)).SameRows e
        (q.notNext.addCondition .filter (.isNull name)) := by
      refine ⟨hadd.distinct, hadd.vars, hadd.scope, fun component hl ho => ?_⟩
      refine (hadd.bucket component hl ho).trans ?_
      rw [hkind]
      rfl
    exact ih hstep rfl rfl

theorem sameRows_counted (h : p.SameRows e q) {columns : List String}
    (hp : p.distinct = false → columns ≠ [] →
      p.pendingOr = q.pendingOr ∧ p.pendingNot = q.pendingNot) :
    (p.counted e columns).SameRows e (q.counted e columns) := by
  let inner (q : Query) : Query := { q.clear .aggregate (some e) with method := .select }
  have hclear := h.clear .aggregate (some e)
  have hinner : (inner p).SameRows e (inner q) :=
    ⟨hclear.distinct, hclear.vars, hclear.scope, hclear.bucket⟩
  have hdistinct : (inner p).distinct = (inner q).distinct := hinner.distinct
  unfold counted
  change Statement.SameRows e (if (inner p).distinct = true then _ else _)
    (if (inner q).distinct = true then _ else _)
  rw [hdistinct]
  split
  · exact (hinner.clear .select (some e)).addColumns _
  · next hd =>
    cases columns with
    | nil => exact hinner
    | cons name columns =>
      obtain ⟨ho, hn⟩ := hp (h.distinct.trans (Bool.not_eq_true _ ▸ hd)) (by simp)
      exact sameRows_nullTests hinner ho hn _

theorem scope_counted (q : Query) (columns : List String) :
    (q.counted e columns).scope = q.scope := by
  have hselect (names : List String) (q : Query) : (q.addColumns names).scope = q.scope := by
    induction names generalizing q with
    | nil => rfl
    | cons name names ih => exact ih _
  have htests (names : List String) (q : Query) :
      (names.foldl (fun q name => q.notNext.addCondition .filter (.isNull name)) q).scope =
        q.scope := by
    induction names generalizing q with
    | nil => rfl
    | cons name names ih => exact ih _
  unfold counted
  dsimp only
  split
  · exact hselect _ _
  · exact htests _ _

theorem bucket_counted_of_ne (q : Query) (columns : List String) {component : Component}
    (ha : component ≠ .aggregate) (hs : component ≠ .select) (hf : component ≠ .filter)
    (engine : Option Engine) :
    (q.counted e columns).bucket component engine = q.bucket component engine := by
  have htests (names : List String) (q : Query) :
      (names.foldl (fun q name => q.notNext.addCondition .filter (.isNull name)) q).bucket component
        engine = q.bucket component engine := by
    induction names generalizing q with
    | nil => rfl
    | cons name names ih => exact (ih _).trans (q.notNext.bucket_add_of_ne hf _ engine)
  have hinner := q.bucket_clear_of_ne ha (some e) engine
  unfold counted
  dsimp only
  split
  · refine (Statement.bucket_addColumns_of_ne _ _ hs _).trans ?_
    exact (Statement.bucket_clear_of_ne _ hs _ _).trans hinner
  · exact (htests _ _).trans hinner

end Query

namespace Compiler

variable (c : Compiler)

def aroundAggregate (function : String) (rows : Fragment) : Fragment :=
  ⟨c.aggregateCall false ⟨function, ["*"]⟩ ++ " FROM (" ++ rows.sql ++ ") " ++ c.dialect.tableAs ++
    c.engine.wrapValue (function ++ "Query"), rows.bindings⟩

variable {c}

theorem select_congr {p q : Query} (h : p.SameRows c.engine q) (hp : p.SamePage c.engine q)
    (outer : Scopes) : c.select (c.prepare p) outer = c.select (c.prepare q) outer :=
  (h.map c.rendering).select (hp.map c.rendering)

theorem select_rename (q : Query) (name : String) (outer : Scopes) :
    c.select (c.prepare (q.rename name)) outer = c.select (c.prepare q) outer := by
  have hrows : (q.rename name).SameRows c.engine q := ⟨rfl, rfl, rfl, fun _ _ _ => rfl⟩
  exact select_congr hrows ⟨rfl, rfl⟩ outer

section Around

variable (function : String) {rows : Rendering} {ss : Scopes}
  (ha : rows.aliasName = some (function ++ "Query"))

def around (rows : Rendering) : Statement Rendering where
  method := .aggregate
  clauses := [⟨.aggregate, none, .aggregate ⟨function, ["*"]⟩⟩,
    ⟨.source, none, .source (.query rows none)⟩]

theorem window_around : (around function rows).window (some c.engine) = .ok ⟨0, 0⟩ := rfl

theorem columns_around :
    c.columns ss (around function rows) = pure (c.aggregateCall false ⟨function, ["*"]⟩) :=
  (columns_eq_basic (window_around function) (.inr (.inl rfl))).trans rfl

include ha

theorem table_around : c.table ss (around function rows) = (do
    let sub ← Emit.embed (rows.select ss)
    return "FROM " ++ ("(" ++ sub ++ ")" ++
      (" " ++ c.dialect.tableAs ++ c.engine.wrapValue (function ++ "Query")))) := by
  have hsource : c.sourceFor .select (around function rows) = .ok (.query rows none) := rfl
  have halias : (Source.query rows none).aliasBy Rendering.aliasName =
      some (function ++ "Query") := ha
  have hne : (function ++ "Query").isEmpty = false := by simp
  rw [table, hsource, Emit.lift_ok_bind, tableExpression, halias]
  simp only [hne, bind_assoc, pure_bind, Bool.false_eq_true, if_false]

theorem select_around (outer : Scopes) :
    c.select (around function rows) outer =
      (rows.select ([] :: outer)).map (c.aroundAggregate function) := by
  have hmiddle : c.middle ([] :: outer) (around function rows) = (do
      let table ← c.table ([] :: outer) (around function rows)
      return [some table, none, none, none, none]) := rfl
  have horders : c.orders (around function rows) = pure none := rfl
  have hcombinations : c.combinations ([] :: outer) (around function rows) = pure none := rfl
  have hvars : (around function rows).vars :: outer = [] :: outer := rfl
  rw [c.select_of_noOffset rfl, basicSelect, selectText_eq, hvars, columns_around, hmiddle,
    table_around function ha, horders, page_of_noWindow (window_around function), hcombinations]
  simp only [bind_assoc, pure_bind]
  cases rows.select ([] :: outer) with
  | error e => rfl
  | ok f =>
    have hcall : c.aggregateCall false ⟨function, ["*"]⟩ ≠ "" := by simp [aggregateCall]
    have hparts (table : String) (hne : table ≠ "") :
        joinParts (some (c.aggregateCall false ⟨function, ["*"]⟩) ::
          ([some table, none, none, none, none] ++ [none, none, none])) =
            c.aggregateCall false ⟨function, ["*"]⟩ ++ (" " ++ table) := by
      rw [joinParts_cons hcall, trailing, List.cons_append, filterMap_cons_text hne]
      simp
    have hopen : " FROM (" = " " ++ ("FROM " ++ "(") := by rfl
    have hclose : ") " = ")" ++ " " := by rfl
    show Except.ok (Fragment.mk _ (f.bindings ++ [])) = Except.ok (aroundAggregate c function f)
    rw [List.append_nil, aroundAggregate, hopen, hclose]
    refine congrArg (fun sql => Except.ok (Fragment.mk sql f.bindings)) ?_
    refine (hparts _ (by simp)).trans ?_
    simp only [String.append_assoc]

end Around

theorem select_aggregateOver (function : String) (inner : Query) (outer : Scopes) :
    c.select (c.prepare (Query.aggregateOver function inner)) outer =
      (c.select (c.prepare inner) ([] :: outer)).map (c.aroundAggregate function) := by
  let rows : Rendering := c.rendering (.of (inner.rename (function ++ "Query")))
  have hprepare : c.prepare (Query.aggregateOver function inner) = around function rows := rfl
  have halias : rows.aliasName = some (function ++ "Query") := by
    show (c.rendering _).aliasName = _
    rw [rendering_of]
    rfl
  have hselect : rows.select ([] :: outer) = c.select (c.prepare inner) ([] :: outer) := by
    show (c.rendering _).select ([] :: outer) = _
    rw [rendering_of]
    exact select_rename inner (function ++ "Query") ([] :: outer)
  rw [hprepare, select_around function halias, hselect]

variable (c) in
def aggregateSelect (q : Query) (a : Aggregate) : Except Fault Fragment :=
  if a.columns.length = 1 ∧ !q.distinct then c.select (c.prepare q) []
  else (c.select (c.prepare (q.counted c.engine a.columns)) [[]]).map (c.aroundAggregate a.function)

theorem body_aggregate {q : Query} (hm : q.method = .aggregate) :
    c.body q = (do
      match ← q.getOne .aggregate ClauseKind.aggregate? (some c.engine) with
      | none => c.select (c.prepare q.unpaged) []
      | some a => c.aggregateSelect q.unpaged a) := by
  have hbody : c.body q = (q.aggregated c.engine >>= fun q => c.select (c.prepare q) []) := by
    rw [body, hm]
  rw [hbody, Query.aggregated, Query.getOne_aggregate_unpaged]
  cases q.getOne .aggregate ClauseKind.aggregate? (some c.engine) with
  | error e => rfl
  | ok found =>
    cases found with
    | none => rfl
    | some a =>
      show ((if _ then _ else _) >>= fun q => c.select (c.prepare q) []) =
        c.aggregateSelect q.unpaged a
      rw [aggregateSelect, ← select_aggregateOver]
      split <;> rfl

theorem aggregateSelect_congr {p q : Query} (h : p.SameRows c.engine q)
    (hpage : p.SamePage c.engine q) {a : Aggregate}
    (hp : p.distinct = false → 2 ≤ a.columns.length →
      p.pendingOr = q.pendingOr ∧ p.pendingNot = q.pendingNot) :
    c.aggregateSelect p a = c.aggregateSelect q a := by
  have hbucket (q : Query) {component : Component} (hc : component = .limit ∨ component = .offset) :
      (q.counted c.engine a.columns).bucket component (some c.engine) =
        q.bucket component (some c.engine) := by
    rcases hc with rfl | rfl
    · exact q.bucket_counted_of_ne _ (by decide) (by decide) (by decide) _
    · exact q.bucket_counted_of_ne _ (by decide) (by decide) (by decide) _
  have hpaged := hpage.of_bucket (fun _ => hbucket p) (fun _ => hbucket q)
  have hdistinct : p.distinct = q.distinct := h.distinct
  unfold aggregateSelect
  rw [hdistinct]
  split
  · exact select_congr h hpage []
  · next hone =>
    have hcounted : (p.counted c.engine a.columns).SameRows c.engine
        (q.counted c.engine a.columns) := by
      refine Query.sameRows_counted h fun hd hne => hp hd ?_
      have hlength := List.length_pos_iff.mpr hne
      have hmany : a.columns.length ≠ 1 := fun hlength => hone ⟨hlength, by simp [← hdistinct, hd]⟩
      omega
    rw [select_congr hcounted hpaged]

end Compiler

end SqlDialects
