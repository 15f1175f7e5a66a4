import SqlDialects.Proofs.Aggregate.Over
import SqlDialects.Proofs.Cte.Prologue
import SqlDialects.Proofs.Placeholder.Rows
import SqlDialects.Proofs.Quoting.Selects
import SqlDialects.Proofs.Statement.Aggregated

/-!
No name breaks out of the quotes that an engine puts around it. A compiled statement, with the
expressions in front of it, ends outside of quotes, and its parentheses are balanced, if nothing
else that is written out leaves any open where it stands.
-/

namespace SqlDialects

open Text

namespace Compiler

variable {c : Compiler} (ss : Scopes)

section Rows

theorem spans_columnList (c : Compiler) (columns : List String) (i : Nat) :
    c.engine.Spans i i (c.columnList columns) := by
  refine Engine.spans_intercalate (Engine.spans_bare (by decide)) fun text ht => ?_
  obtain ⟨name, -, rfl⟩ := List.mem_map.mp ht
  exact c.engine.spans_wrap name

theorem spans_row {columns : List String} {values : List Value}
    (hv : ∀ v ∈ values, ∀ sql, v ≠ .raw sql) :
    (c.row ss columns values).Gives (c.engine.Spans 0 0) := by
  refine Emit.Gives.bind (P := fun _ => True) (fun _ _ => trivial) fun _ _ => ?_
  exact (spans_parameters ss hv).bind fun markers hm => Emit.gives_pure hm.paren

theorem spans_firstRows {table : String} (ht : c.engine.Spans 0 0 table) {i : Insert Rendering}
    (hi : i.Obeys c.harmless (Rendering.Spans c.engine)) :
    (c.firstRows ss table i).Gives (c.engine.Spans 0 0) := by
  have hinto : c.engine.Spans 0 0 "INSERT INTO " := Engine.spans_bare (by decide)
  have hopen : c.engine.Spans 0 1 " (" := Engine.spans_of_nesting rfl
  cases i with
  | values columns values returnId =>
    refine (spans_row ss hi.2).bind fun text htext => Emit.gives_pure ?_
    have hvalues : c.engine.Spans 1 0 ") VALUES " := Engine.spans_of_nesting rfl
    exact ((((hinto.append ht).append hopen).append (c.spans_columnList columns 1)).append
      hvalues).append htext
  | query columns q =>
    refine (Emit.gives_embed (hi.2.select ss)).bind fun sub hsub => Emit.gives_pure ?_
    have hspace : c.engine.Spans 0 0 " " := Engine.spans_bare (by decide)
    have hclose : c.engine.Spans 1 0 ")" := Engine.spans_of_nesting rfl
    have hcolumns : c.engine.Spans 0 0
        (if columns.isEmpty then "" else " (" ++ c.columnList columns ++ ")") := by
      split
      · exact Engine.spans_empty 0
      · exact (hopen.append (c.spans_columnList columns 1)).append hclose
    exact (((hinto.append ht).append hcolumns).append hspace).append hsub

theorem spans_nextRow {i : Insert Rendering}
    (hi : i.Obeys c.harmless (Rendering.Spans c.engine)) :
    (c.nextRow ss i).Gives (c.engine.Spans 0 0) := by
  cases i with
  | values columns values returnId => exact spans_row ss hi.2
  | query columns q => rintro _ ⟨⟩

theorem spans_assignment (column : String) {v : Value} (hv : ∀ sql, v ≠ .raw sql) :
    (c.assignment ss column v).Gives (c.engine.Spans 0 0) := by
  refine (spans_parameter ss hv).bind fun marker hm => Emit.gives_pure ?_
  have heq : c.engine.Spans 0 0 " = " := Engine.spans_bare (by decide)
  exact (Engine.Spans.append (c.engine.spans_wrap column) heq).append hm

variable {p : Statement Rendering} (hp : p.Obeys c.harmless (Rendering.Spans c.engine))

include hp

theorem spans_target (operation : Operation) :
    (c.target operation p).Gives (c.engine.Spans 0 0) := by
  refine (gives_sourceFor hp operation).bind fun s hs => ?_
  cases s with
  | table name => exact Emit.gives_pure (c.engine.spans_wrap name)
  | raw sql bindings aliasName => exact spans_rawText bindings hs.1
  | query q aliasName => rintro _ ⟨⟩

theorem spans_whereSuffix : (c.whereSuffix ss p).Gives (c.engine.Spans 0 0) := by
  refine (givesPart_wheres ss hp).bind fun part hpart => ?_
  cases part with
  | none => exact Emit.gives_pure (Engine.spans_empty 0)
  | some sql =>
    exact Emit.gives_pure (Engine.Spans.append (Engine.spans_bare (by decide)) (hpart sql rfl))

theorem spans_insertText : (c.insertText ss p).Gives (c.engine.Spans 0 0) := by
  refine (spans_target hp .insert).bind fun table ht => ?_
  refine (gives_getAll hp ClauseKind.obeys_insert).bind fun is his => ?_
  cases is with
  | nil => rintro _ ⟨⟩
  | cons first rest =>
    refine (spans_firstRows ss ht (his first List.mem_cons_self)).bind fun head hhead => ?_
    have hrest := fun i hm => spans_nextRow ss (his i (List.mem_cons_of_mem _ hm))
    refine (Emit.Gives.mapM hrest).bind fun rows hrows => Emit.gives_pure ?_
    have hall : c.engine.Spans 0 0 (", ".intercalate (head :: rows)) :=
      Engine.spans_intercalate (Engine.spans_bare (by decide))
        (List.forall_mem_cons.mpr ⟨hhead, hrows⟩)
    have hsemicolon : c.engine.Spans 0 0 ";" := Engine.spans_bare (by decide)
    have hlast : c.engine.Spans 0 0 c.dialect.lastId := by
      refine Engine.spans_of_nesting ?_
      unfold dialect
      cases c.engine <;> rfl
    split
    · exact (hall.append hsemicolon).append hlast
    · exact hall

theorem spans_updateText (component : Component) :
    (c.updateText ss component p).Gives (c.engine.Spans 0 0) := by
  have hupdate : c.engine.Spans 0 0 "UPDATE " := Engine.spans_bare (by decide)
  have hset : c.engine.Spans 0 0 " SET " := Engine.spans_bare (by decide)
  refine (spans_target hp .update).bind fun table ht => ?_
  refine (Emit.gives_lift fun x hx => hx).bind fun x hx => ?_
  have hv := (obeys_assignments hp hx).2
  have hassign (y : String × Value) (hy : y ∈ x.1.zip x.2) :=
    spans_assignment (c := c) ss y.1 (hv y.2 (List.of_mem_zip hy).2)
  refine (Emit.Gives.mapM hassign).bind fun sets hsets => ?_
  refine (spans_whereSuffix ss hp).bind fun suffix hsuffix => Emit.gives_pure ?_
  have hcomma : c.engine.Spans 0 0 ", " := Engine.spans_bare (by decide)
  have hsets := Engine.spans_intercalate hcomma hsets
  exact (((hupdate.append ht).append hset).append hsets).append hsuffix

theorem spans_deleteText : (c.deleteText ss p).Gives (c.engine.Spans 0 0) := by
  refine (spans_target hp .delete).bind fun table ht => ?_
  refine (spans_whereSuffix ss hp).bind fun suffix hsuffix => Emit.gives_pure ?_
  exact (Engine.Spans.append (Engine.spans_bare (by decide)) ht).append hsuffix

end Rows

section Whole

variable {q : Query}

theorem spans_cteDefinition {s : Source Subquery}
    (hs : s.Obeys c.harmless (Subquery.Obeys c.harmless)) {d : Fragment}
    (h : c.cteDefinition q s = .ok d) : c.engine.Spans 0 0 d.sql := by
  have hopen : c.engine.Spans 0 1 " AS (" := Engine.spans_of_nesting rfl
  have hclose : c.engine.Spans 1 0 ")" := Engine.spans_of_nesting rfl
  unfold cteDefinition at h
  split at h
  · cases h
  · next name _ =>
    have hname : c.engine.Spans 0 0 (c.engine.wrapValue name) := c.engine.spans_wrapValue name
    split at h
    · cases h
    · cases s with
      | table _ => cases h
      | raw sql bindings aliasName =>
        cases h
        exact ((hname.append hopen).append (hs.1.1.deeper 1)).append hclose
      | query body aliasName =>
        obtain ⟨sub, hsub, h⟩ := SqlDialects.bind_eq_ok h
        cases h
        have hbody := (spans_rendering body hs.1).select _ _ hsub
        exact ((hname.append hopen).append (hbody.deeper 1)).append hclose

theorem obeys_prepare (hq : q.Obeys c.harmless) :
    (c.prepare q).Obeys c.harmless (Rendering.Spans c.engine) :=
  Statement.obeys_map.mpr (Statement.Obeys.imp hq fun n _ hn => spans_rendering n hn)

theorem spans_aggregateSelect (hq : q.Obeys c.harmless) {a : Aggregate} (ha : a.Obeys c.harmless)
    {f : Fragment} (h : c.aggregateSelect q a = .ok f) : c.engine.Spans 0 0 f.sql := by
  unfold aggregateSelect at h
  split at h
  · exact spans_select (obeys_prepare hq) h
  · obtain ⟨rows, hrows, rfl⟩ := map_eq_ok h
    have hcounted : Query.Obeys c.harmless (q.counted c.engine a.columns) :=
      obeys_counted (fun _ _ _ _ => trivial) hq ha.2 c.engine
    have hrows := spans_select (obeys_prepare hcounted) hrows
    have hstar : (Aggregate.mk a.function ["*"]).Obeys c.harmless := ⟨ha.1, fun _ _ => trivial⟩
    have hcall := spans_aggregateCall hstar false
    have hopen : c.engine.Spans 0 1 " FROM (" := Engine.spans_of_nesting rfl
    have hclose : c.engine.Spans 1 0 ") " := Engine.spans_of_nesting rfl
    exact ((((hcall.append hopen).append (hrows.deeper 1)).append hclose).append
      (Engine.spans_bare c.engine.bare_tableAs)).append (c.engine.spans_wrapValue _)

theorem spans_body (hq : q.Obeys c.harmless) {f : Fragment} (h : c.body q = .ok f) :
    c.engine.Spans 0 0 f.sql := by
  have hp := obeys_prepare hq
  cases hm : q.method with
  | select =>
    rw [body, hm] at h
    exact spans_select hp h
  | aggregate =>
    rw [body_aggregate hm] at h
    obtain ⟨found, hfound, h⟩ := SqlDialects.bind_eq_ok h
    cases found with
    | none => exact spans_select (obeys_prepare (obeys_unpaged hq)) h
    | some a =>
      have ha := Statement.Obeys.getOne hq ClauseKind.obeys_aggregate hfound
      exact spans_aggregateSelect (obeys_unpaged hq) ha h
  | insert =>
    rw [body, hm] at h
    exact (spans_insertText _ hp).toFragment h
  | update =>
    rw [body, hm] at h
    exact (spans_updateText _ hp .update).toFragment h
  | assign =>
    rw [body, hm] at h
    exact (spans_updateText _ hp .assign).toFragment h
  | delete =>
    rw [body, hm] at h
    exact (spans_deleteText _ hp).toFragment h

theorem spans_defining {definitions : List Fragment}
    (h : ∀ d ∈ definitions, c.engine.Spans 0 0 d.sql) :
    c.engine.Spans 0 0 (Fragment.defining definitions).sql := by
  have hwith : c.engine.Spans 0 0 "WITH " := Engine.spans_bare (by decide)
  have hline : c.engine.Spans 0 0 "\n" := Engine.spans_bare (by decide)
  unfold Fragment.defining
  dsimp only
  split
  · exact Engine.spans_empty 0
  · refine (hwith.append (Engine.spans_intercalate ?_ fun text ht => ?_)).append hline
    · exact Engine.spans_bare (by decide)
    · obtain ⟨d, hd, rfl⟩ := List.mem_map.mp ht
      exact (h d hd).trim

theorem spans_assemble_of_harmless (hq : q.Obeys c.harmless) {f : Fragment}
    (h : c.assemble q = .ok f) : c.engine.Spans 0 0 f.sql := by
  obtain ⟨front, body, hfront, hbody, rfl⟩ := assemble_eq_ok.mp h
  obtain ⟨found, definitions, hfound, hdefinitions, rfl⟩ := front_eq_ok.mp hfront
  refine (spans_defining fun d hd => ?_).append (spans_body hq hbody)
  obtain ⟨s, hs, hdefinition⟩ := forall₂_mem_right (mapM_eq_ok.mp hdefinitions) hd
  exact spans_cteDefinition ((defines_of_mem_ctes hfound hs).obeys hq) hdefinition

variable (hl : c.engine = .sqlServer → c.legacyPaging = false)

include hl

theorem harmless_of_confined : Terms.confined.Le c.harmless where
  name _ hn := hn
  orderName _ _ h := by
    rw [hl h.1] at h
    cases h.2
  operator _ ho _ := bare_checkOperator ho
  datePart part hp := by
    have hbare : Bare (upper part) := hp.bare_upper
    have hmem : '\'' ∉ (upper part).toList := fun hm => hbare _ hm (by decide)
    show c.engine.HoldsPart part
    unfold Engine.HoldsPart
    cases c.engine with
    | sqlite => trivial
    | postgres => exact .inr (.inr (Engine.within_of_not_mem hmem))
    | _ => exact Engine.spans_bare hbare
  function _ hf := Engine.spans_bare hf.bare_upper
  seed _ hs _ := Engine.spans_bare (Simple.bare hs)
  escape _ he := he
  value _ hv := hv
  raw _ _ h := h.elim

variable (hq : q.Obeys Terms.confined)

include hq

theorem spans_assemble {f : Fragment} (h : c.assemble q = .ok f) : c.engine.Spans 0 0 f.sql :=
  spans_assemble_of_harmless (hq.mono (harmless_of_confined hl)) h

/-- Whatever its names are, a compiled statement ends outside of quotes, and with every parenthesis
closed that it opens outside of them. -/
theorem compile_closes {r : Compiled} (h : c.compile q = .ok r) : c.engine.Closed r.rawSql := by
  obtain ⟨raw, hraw, h⟩ := SqlDialects.bind_eq_ok h
  obtain ⟨f, hf, hraw⟩ := SqlDialects.bind_eq_ok hraw
  obtain ⟨sql, hsql, hraw⟩ := SqlDialects.bind_eq_ok hraw
  cases hraw
  cases h
  rw [marker_eq] at hsql
  exact ((spans_assemble hl hq hf).expandMarkers hsql).closed

end Whole

def strayMarks : Query where
  clauses := [
    ⟨.source, none, .source (.query (.of {
      clauses := [⟨.source, none, .source (.table "a]b as c(")⟩] }) (some "o'](" ))⟩,
    ⟨.select, none, .column (.named "x'] as y)[")⟩,
    ⟨.filter, none,
      .condition ⟨.like "n]" "contains" (.string "50%") false (some '!'), false, true⟩⟩,
    ⟨.filter, none, .condition ⟨.datePart "year" "d)" "=" (.int 2024), true, false⟩⟩,
    ⟨.offset, none, .offset 5⟩]

theorem compile_closes_strayMarks :
    strayMarks.Obeys Terms.confined ∧
    ∃ r, (ofConfig .sqlServer { legacyPaging := false }).compile strayMarks = .ok r ∧
      r.rawSql = "SELECT [x']]] AS [y)[] FROM (SELECT * FROM [a]]b] AS [c(]) AS [o']](] " ++
        "WHERE NOT (LOWER([n]]]) like ? ESCAPE '!') OR DATEPART(YEAR, [d)]) = ? " ++
        "ORDER BY (SELECT 0) OFFSET ? ROWS" ∧
      Engine.sqlServer.Closed r.rawSql := by
  have hq : strayMarks.Obeys Terms.confined := by
    refine ⟨by rintro _ ⟨⟩, ?_⟩
    simp only [strayMarks, List.forall_mem_cons, ClauseKind.Obeys, Source.Obeys, Column.Obeys,
      Condition.Obeys, Predicate.Obeys, Subquery.obeys_of, Query.Obeys, Statement.Obeys]
    simp +decide [Terms.confined]
  have hsql : ((ofConfig .sqlServer { legacyPaging := false }).compile strayMarks).toOption.map
      (·.rawSql) = some ("SELECT [x']]] AS [y)[] FROM (SELECT * FROM [a]]b] AS [c(]) AS [o']](] " ++
        "WHERE NOT (LOWER([n]]]) like ? ESCAPE '!') OR DATEPART(YEAR, [d)]) = ? " ++
        "ORDER BY (SELECT 0) OFFSET ? ROWS") := by decide +kernel
  obtain ⟨r, hr, hsql⟩ := exists_compiled hsql
  exact ⟨hq, r, hr, hsql, compile_closes (fun _ => rfl) hq hr⟩

end Compiler

end SqlDialects
