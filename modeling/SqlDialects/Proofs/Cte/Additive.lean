import SqlDialects.Proofs.Aggregate.Over
import SqlDialects.Proofs.Cte.Prologue
import SqlDialects.Proofs.Placeholder.Fill
import SqlDialects.Proofs.Placeholder.Order

/-!
What a statement declares is put in front of it and changes nothing in it. The body of a statement
is rendered without looking at its expressions, also where an aggregate is put around its rows; and
arrays in a definition are expanded as they would be if it stood alone.
-/

namespace SqlDialects

namespace Query

variable {e : Engine} (q : Query)

theorem withoutCtes_addColumns (names : List String) :
    (q.addColumns names).withoutCtes = q.withoutCtes.addColumns names := by
  induction names generalizing q with
  | nil => rfl
  | cons name names ih =>
    refine (ih _).trans (congrArg (Statement.addColumns · names) ?_)
    exact q.withoutCtes_add (by decide) _

theorem withoutCtes_nullTests (columns : List String) :
    (columns.foldl (fun q name => q.notNext.addCondition .filter (.isNull name)) q).withoutCtes =
      columns.foldl (fun q name => q.notNext.addCondition .filter (.isNull name))
        q.withoutCtes := by
  induction columns generalizing q with
  | nil => rfl
  | cons name columns ih =>
    refine (ih _).trans (congrArg (List.foldl _ · columns) ?_)
    have hfilter : Component.filter ≠ .cte := by decide
    have hadd := q.withoutCtes_add hfilter (.condition ⟨.isNull name, q.pendingOr, !q.pendingNot⟩)
    exact congrArg (fun p : Query => { p with pendingOr := false, pendingNot := false }) hadd

theorem withoutCtes_counted (columns : List String) :
    (q.counted e columns).withoutCtes = Query.counted e columns q.withoutCtes := by
  have hinner : Statement.withoutCtes { q.clear .aggregate (some e) with method := .select } =
      { q.withoutCtes.clear .aggregate (some e) with method := .select } :=
    congrArg (fun p : Query => { p with method := .select }) q.withoutCtes_clear
  unfold counted
  rw [← hinner]
  generalize ({ q.clear .aggregate (some e) with method := .select } : Query) = inner
  have hdistinct : inner.withoutCtes.distinct = inner.distinct := rfl
  dsimp only
  rw [hdistinct]
  split
  · exact (withoutCtes_addColumns _ _).trans
      (congrArg (Statement.select · columns) inner.withoutCtes_clear)
  · exact withoutCtes_nullTests _ _

theorem withoutCtes_unpaged : q.unpaged.withoutCtes = Query.unpaged q.withoutCtes := by
  simp only [unpaged, Statement.withoutCtes_clear]

end Query

namespace Compiler

variable {c : Compiler} (q : Query)

theorem prepare_withoutCtes : c.prepare q.withoutCtes = (c.prepare q).withoutCtes := by
  simp only [prepare, Statement.withoutCtes, Statement.map, List.filter_map]
  rfl

theorem select_prepare_withoutCtes (outer : Scopes) :
    c.select (c.prepare q.withoutCtes) outer = c.select (c.prepare q) outer := by
  rw [prepare_withoutCtes, select_withoutCtes]

theorem aggregateSelect_withoutCtes (a : Aggregate) :
    c.aggregateSelect q.withoutCtes a = c.aggregateSelect q a := by
  have hdistinct : q.withoutCtes.distinct = q.distinct := rfl
  rw [aggregateSelect, hdistinct, ← q.withoutCtes_counted, select_prepare_withoutCtes,
    select_prepare_withoutCtes, aggregateSelect]

section Rendered

variable (p : Statement Rendering) (ss : Scopes)

theorem target_withoutCtes (operation : Operation) :
    c.target operation p.withoutCtes = c.target operation p := by
  rw [target, sourceFor_congr (p.bucket_withoutCtes (by decide)), target]

theorem whereSuffix_withoutCtes : c.whereSuffix ss p.withoutCtes = c.whereSuffix ss p := by
  rw [whereSuffix, wheres_congr (p.bucket_withoutCtes (by decide))
    (p.bucket_withoutCtes (by decide)), whereSuffix]

theorem insertText_withoutCtes : c.insertText ss p.withoutCtes = c.insertText ss p := by
  rw [insertText, target_withoutCtes, Statement.getAll_congr (p.bucket_withoutCtes (by decide)),
    insertText]

theorem updateText_withoutCtes {component : Component} (h : component ≠ .cte) :
    c.updateText ss component p.withoutCtes = c.updateText ss component p := by
  rw [updateText, target_withoutCtes, assignments,
    Statement.getOne_congr (p.bucket_withoutCtes h), whereSuffix_withoutCtes, updateText,
    assignments]

theorem deleteText_withoutCtes : c.deleteText ss p.withoutCtes = c.deleteText ss p := by
  rw [deleteText, target_withoutCtes, whereSuffix_withoutCtes, deleteText]

end Rendered

theorem body_withoutCtes : c.body q.withoutCtes = c.body q := by
  have hmethod : q.withoutCtes.method = q.method := rfl
  by_cases hm : q.method = .aggregate
  · rw [body_aggregate hm, body_aggregate (hmethod.trans hm),
      Statement.getOne_congr (q.bucket_withoutCtes (by decide)), ← q.withoutCtes_unpaged]
    refine bind_congr fun a => ?_
    cases a with
    | none => exact select_prepare_withoutCtes _ _
    | some a => exact aggregateSelect_withoutCtes _ _
  · have hvars : q.withoutCtes.vars = q.vars := rfl
    unfold body
    rw [hmethod, hvars, prepare_withoutCtes]
    cases hq : q.method with
    | aggregate => exact absurd hq hm
    | select => exact select_withoutCtes _ _
    | insert => exact congrArg Emit.toFragment (insertText_withoutCtes _ _)
    | update => exact congrArg Emit.toFragment (updateText_withoutCtes _ _ (by decide))
    | assign => exact congrArg Emit.toFragment (updateText_withoutCtes _ _ (by decide))
    | delete => exact congrArg Emit.toFragment (deleteText_withoutCtes _ _)

theorem assemble_withoutCtes : c.assemble q.withoutCtes = c.body q := by
  have hnone : q.withoutCtes.has .cte (some c.engine) = false := by
    have hcte (d : Clause Subquery) (hd : d ∈ q.withoutCtes.clauses) :
        d.visible .cte (some c.engine) = false := by
      have hne : (d.component != .cte) = true := (List.mem_filter.mp hd).2
      simp [Clause.visible, bne_iff_ne.mp hne]
    simpa [Statement.has] using hcte
  rw [assemble, body_withoutCtes, hnone]
  exact bind_pure _

theorem trim_cteDefinition {q : Query} {s : Source Subquery} {d : Fragment}
    (h : c.cteDefinition q s = .ok d) : Text.trim d.sql = d.sql := by
  obtain ⟨body, hbody⟩ := definition_of_cteDefinition h
  rw [hbody, Engine.trim_definition]

theorem exists_expanded {q : Query} {found : List (Source Subquery)}
    (h : ∀ s ∈ found, ∃ d, c.cteDefinition q s = .ok d ∧ Text.marks d.sql = d.bindings.length) :
    ∃ definitions expanded,
      List.Forall₂ (fun s d => c.cteDefinition q s = .ok d) found definitions ∧
      List.Forall₂ (fun d t => expandMarkers c.marker d.bindings d.sql = .ok t)
        definitions expanded := by
  induction found with
  | nil => exact ⟨[], [], .nil, .nil⟩
  | cons s found ih =>
    obtain ⟨d, hd, hm⟩ := h s List.mem_cons_self
    obtain ⟨t, ht⟩ := expandMarkers_of_marks hm
    obtain ⟨definitions, expanded, hds, hts⟩ := ih fun s hs => h s (List.mem_cons_of_mem _ hs)
    exact ⟨d :: definitions, t :: expanded, .cons hd hds, .cons (c.marker_eq ▸ ht) hts⟩

variable {q}

theorem assemble_of_definitions {f : Fragment} {found : List (Source Subquery)}
    {definitions : List Fragment} (hf : c.body q = .ok f)
    (hfound : q.ctes c.engine = .ok found) (hne : found ≠ [])
    (hds : List.Forall₂ (fun s d => c.cteDefinition q s = .ok d) found definitions) :
    c.assemble q = .ok ⟨"WITH " ++ ",\n".intercalate (definitions.map (·.sql)) ++ "\n" ++ f.sql,
      definitions.flatMap (·.bindings) ++ f.bindings⟩ := by
  have htrim : definitions.map (fun d => Text.trim d.sql) = definitions.map (·.sql) := by
    refine List.map_congr_left fun d hd => ?_
    obtain ⟨s, -, hs⟩ := forall₂_mem_right hds hd
    exact trim_cteDefinition hs
  have hempty : definitions.isEmpty = false := by
    rw [List.isEmpty_eq_false_iff, ← List.length_pos_iff, ← hds.length_eq]
    exact List.length_pos_iff.mpr hne
  have hfront : c.front q = .ok (Fragment.defining definitions) :=
    front_eq_ok.mpr ⟨found, definitions, hfound, mapM_eq_ok.mpr hds, rfl⟩
  refine assemble_eq_ok.mpr ⟨_, f, hfront, hf, ?_⟩
  rw [Fragment.defining, hempty, htrim]
  rfl

variable (c q) in
/-- The expressions of a statement are additive. If it compiles without them, and each that is
found has the values of its placeholders, then the whole compiles to their definitions, in the
order found, in front of what it compiles to without them. If none is found, as is the case if none
is visible, they make no difference. -/
theorem compile_additive :
    (∀ r₀ found, c.compile q.withoutCtes = .ok r₀ → q.ctes c.engine = .ok found → found ≠ [] →
      (∀ s ∈ found, ∃ d, c.cteDefinition q s = .ok d ∧ Text.marks d.sql = d.bindings.length) →
      ∃ r definitions expanded, c.compile q = .ok r ∧
        List.Forall₂ (fun s d => c.cteDefinition q s = .ok d) found definitions ∧
        List.Forall₂ (fun d t => expandMarkers c.marker d.bindings d.sql = .ok t)
          definitions expanded ∧
        r.rawSql = "WITH " ++ ",\n".intercalate expanded ++ "\n" ++ r₀.rawSql ∧
        r.bindings = definitions.flatMap (·.bindings) ++ r₀.bindings) ∧
    (q.has .cte (some c.engine) = false → q.ctes c.engine = .ok []) ∧
    (q.ctes c.engine = .ok [] → c.output q = c.output q.withoutCtes) := by
  refine ⟨fun r₀ found h₀ hfound hne hdefs => ?_, Query.ctes_of_none, fun hfound => ?_⟩
  · obtain ⟨raw, hraw, h₀⟩ := bind_eq_ok h₀
    obtain ⟨f, hf, hraw⟩ := bind_eq_ok hraw
    obtain ⟨sql, hsql, hraw⟩ := bind_eq_ok hraw
    cases hraw
    cases h₀
    rw [assemble_withoutCtes] at hf
    obtain ⟨definitions, expanded, hds, hts⟩ := exists_expanded hdefs
    have hwhole := assemble_of_definitions hf hfound hne hds
    refine ⟨c.nameMarkers (some q) ⟨"WITH " ++ ",\n".intercalate expanded ++ "\n" ++ sql,
      definitions.flatMap (·.bindings) ++ f.bindings⟩, definitions, expanded, ?_, hds, hts, rfl,
    rfl⟩
    have hexpanded : expandMarkers c.marker (definitions.flatMap (·.bindings) ++ f.bindings)
        ("WITH " ++ ",\n".intercalate (definitions.map (·.sql)) ++ "\n" ++ f.sql) =
          .ok ("WITH " ++ ",\n".intercalate expanded ++ "\n" ++ sql) := by
      rw [marker_eq] at hsql hts ⊢
      have hwith : expandMarkers "?" [] "WITH " = .ok "WITH " :=
        expandMarkers_of_unmarked (by decide)
      have hline : expandMarkers "?" [] "\n" = .ok "\n" := expandMarkers_of_unmarked (by decide)
      have hcomma : Text.Unmarked ",\n" := by decide
      have hmiddle := expandMarkers_intercalate hcomma hts
      have hall := expandMarkers_append (expandMarkers_append (expandMarkers_append hwith hmiddle)
        hline) hsql
      rwa [List.nil_append, List.append_nil] at hall
    simp only [compile, compileRaw, hwhole, bind, Except.bind, hexpanded]
    rfl
  · have hassemble : c.assemble q = c.assemble q.withoutCtes := by
      rw [assemble_withoutCtes, assemble]
      refine (bind_congr fun f => ?_).trans (bind_pure _)
      split
      · rw [prependCtes, hfound]
        rfl
      · rfl
    rw [output_eq, output_eq, hassemble]

def recentOrders : Query where
  method := .aggregate
  clauses := [⟨.source, none, .source (.table "recent")⟩,
    ⟨.filter, none, .condition ⟨.compare "state" "=" (.string "open"), false, false⟩⟩,
    ⟨.aggregate, none, .aggregate ⟨"count", ["a", "b"]⟩⟩,
    ⟨.cte, none, .source (.query (.of {
      clauses := [⟨.source, none, .source (.table "orders")⟩,
        ⟨.filter, none, .condition ⟨.raw "id IN (?)" [.array [.int 1, .int 2]], false, false⟩⟩] })
      (some "recent"))⟩]

theorem compile_additive_recentOrders :
    ∃ r₀ r, (ofEngine .sqlServer).compile recentOrders.withoutCtes = .ok r₀ ∧
      (ofEngine .sqlServer).compile recentOrders = .ok r ∧
      r₀.rawSql = "SELECT COUNT(*) AS [count] FROM (SELECT * FROM [recent] WHERE [state] = ? " ++
        "AND [a] IS NOT NULL AND [b] IS NOT NULL) AS [countQuery]" ∧
      r.rawSql = "WITH [recent] AS (SELECT * FROM [orders] WHERE id IN (?,?))\n" ++ r₀.rawSql ∧
      r.bindings = .array [.int 1, .int 2] :: r₀.bindings := by
  have h₀ : ((ofEngine .sqlServer).compile recentOrders.withoutCtes).toOption.map (·.rawSql) =
      some ("SELECT COUNT(*) AS [count] FROM (SELECT * FROM [recent] WHERE [state] = ? " ++
        "AND [a] IS NOT NULL AND [b] IS NOT NULL) AS [countQuery]") := by decide +kernel
  obtain ⟨r₀, h₀, hsql⟩ := exists_compiled h₀
  obtain ⟨hadd, -⟩ := compile_additive (ofEngine .sqlServer) recentOrders
  obtain ⟨r, ds, ts, hr, hds, hts, hraw, hbindings⟩ := hadd r₀ _ h₀ rfl (by simp) (by
    intro s hs
    obtain rfl := List.mem_singleton.mp hs
    exact ⟨⟨"[recent] AS (SELECT * FROM [orders] WHERE id IN (?))", [.array [.int 1, .int 2]]⟩,
      rfl, rfl⟩)
  cases hds with
  | cons hd hds =>
    cases hds
    cases hts with
    | cons ht hts =>
      cases hts
      cases hd
      cases ht
      exact ⟨r₀, r, h₀, hr, hsql, hraw, hbindings⟩

end Compiler

end SqlDialects
