import SqlDialects.Proofs.Cte.Prologue
import SqlDialects.Proofs.Engines.Rows

/-!
Engines that differ from the generic one in nothing but their quotes, as long as a statement leaves
nothing to them. What is nested, the expressions in front and the faults are the same then.
-/

namespace SqlDialects

open Text

variable {e : Engine}

/-- The statement leaves nothing, at any depth, to what the engine does in its own way. -/
structure Query.Common (e : Engine) (q : Query) : Prop where
  unscoped : ∀ d, q.Contains d → d.engine = none
  shares : ∀ d, q.Contains d → e.shares d.kind = true
  terms : q.Obeys (Terms.neutral e)
  paged : e ≠ .postgres → ∀ component n, q.Nests component .select n → n.Paged

theorem ClauseKind.obeys_neutral {σ : Type} (ho : e.dialect.opening = '"') (k : ClauseKind σ) :
    k.Obeys (Terms.neutral e) fun _ => True := by
  have hall (text : List Char) : e.Neutral text := .inl ho
  cases k with
  | source s => cases s <;> simp [Obeys, Source.Obeys, Terms.neutral, hall]
  | column x => cases x <;> simp [Obeys, Column.Obeys, Terms.neutral, hall]
  | condition x =>
    obtain ⟨p, isOr, isNot⟩ := x
    cases p <;> simp [Obeys, Condition.Obeys, Predicate.Obeys, Terms.neutral, hall]
  | join j => trivial
  | order o => cases o <;> simp [Obeys, Order.Obeys, Terms.neutral, hall]
  | combine x => cases x <;> simp [Obeys, Combine.Obeys, Terms.neutral, hall]
  | insert i => cases i <;> simp [Obeys, Insert.Obeys, Terms.neutral, hall]
  | aggregate a => simp [Obeys, Aggregate.Obeys, Terms.neutral, hall]
  | limit n => trivial
  | offset n => trivial

theorem Query.obeys_neutral (ho : e.dialect.opening = '"') (q : Query) :
    q.Obeys (Terms.neutral e) := by
  have hall (n : Subquery) : n.Obeys (Terms.neutral e) := by
    induction n using Subquery.induction with
    | step q ih =>
      refine Subquery.obeys_of.mpr ⟨fun _ _ => .inl ho, fun d hd => ?_⟩
      exact (d.kind.obeys_neutral ho).imp fun n hn _ => ih n (Statement.mem_nested.mpr ⟨d, hd, hn⟩)
  exact Subquery.obeys_of.mp (hall (.of q))

namespace Query.Common

variable {q : Query} (h : q.Common e)

include h

theorem nested {n : Query} (hn : Subquery.of n ∈ q.nested) : n.Common e where
  unscoped d hd := h.unscoped d (.inside hn hd)
  shares d hd := h.shares d (.inside hn hd)
  terms := by
    obtain ⟨d, hd, hm⟩ := Statement.mem_nested.mp hn
    exact Subquery.obeys_of.mp (ClauseKind.Obeys.nested (h.terms.2 d hd) _ hm)
  paged hne component m hm := h.paged hne component m (.inside hn hm)

theorem shared {f g : Subquery → Rendering}
    (hfg : ∀ n ∈ q.nested, ∀ place, (place = .select → e ≠ .postgres → n.statement.Paged) →
      (f n).Mirrors e place (g n)) : q.Shared e f g where
  unscoped d hd := h.unscoped d (.here hd)
  kinds d hd := by
    refine ⟨h.shares d (.here hd), (h.terms.2 d hd).imp fun _ _ _ => trivial, ?_⟩
    rintro ⟨place, ⟨n⟩⟩ hm
    refine hfg _ (Statement.mem_nested_of_part hd hm) place ?_
    rintro rfl hne
    exact h.paged hne d.component n (.here hd hm)

end Query.Common

namespace Fragment

theorem requote_append (a b : Fragment) : (a ++ b).requote e = a.requote e ++ b.requote e :=
  congrArg (Fragment.mk · _) (Engine.requote_append a.sql b.sql)

theorem defining_requote (he : e ∈ Engine.kin) (definitions : List Fragment) :
    defining (definitions.map (requote e)) = (defining definitions).requote e := by
  have htrim : (definitions.map (requote e)).map (fun d => trim d.sql) =
      (definitions.map fun d => trim d.sql).map e.requote := by
    rw [List.map_map, List.map_map]
    exact List.map_congr_left fun d _ => (Engine.requote_trim he d.sql).symm
  have hbound : (definitions.map (requote e)).flatMap (·.bindings) =
      definitions.flatMap (·.bindings) := List.flatMap_map ..
  have hlist := Engine.requote_intercalate (e := e) (show '"' ∉ (",\n").toList by decide)
    (definitions.map fun d => trim d.sql)
  have hwith : e.requote "WITH " = "WITH " := Engine.requote_unquoted (by decide)
  have hline : e.requote "\n" = "\n" := Engine.requote_unquoted (by decide)
  refine congrArg₂ Fragment.mk ?_ hbound
  rw [List.isEmpty_map, htrim, defining]
  split
  · exact (Engine.requote_unquoted (by decide)).symm
  · rw [Engine.requote_append, Engine.requote_append, hwith, hline, hlist]

end Fragment

namespace Compiler

variable {c : Compiler} (he : e ∈ Engine.kin)

section Nested

include he

theorem mirrors_rendering (n : Subquery) (h : n.statement.Common e) (place : Place)
    (hp : place = .select → e ≠ .postgres → n.statement.Paged) :
    ((c.on .generic).rendering n).Mirrors e place ((c.on e).rendering n) := by
  induction n using Subquery.induction generalizing place with
  | step q ih =>
    have hq : q.Shared e (c.on .generic).rendering (c.on e).rendering :=
      h.shared fun ⟨n⟩ hn place => ih _ hn (h.nested hn) place
    rw [rendering_of, rendering_of]
    exact {
      aliasName := rfl
      neutral := h.terms.1
      select := fun hplace ss => select_requote he hq (hp hplace) ss
      conditions := fun _ ss => mirrors_filterText he ss hq
      joined := fun _ ss => mirrors_joinedTable he ss hq }

theorem shared_of_common {q : Query} (h : q.Common e) :
    q.Shared e (c.on .generic).rendering (c.on e).rendering :=
  h.shared fun ⟨n⟩ hn place hp => mirrors_rendering he (.of n) (h.nested hn) place hp

end Nested

section Definitions

theorem walkCtes_unscoped {cs : List (Clause Subquery)} (hcs : ∀ d ∈ cs, d.engine = none)
    (ih : ∀ d ∈ cs, ∀ n ∈ d.kind.nested, ∀ seen,
      Subquery.findCtes e seen n = Subquery.findCtes .generic seen n) (seen : List String) :
    walkCtes e seen cs = walkCtes .generic seen cs := by
  induction cs generalizing seen with
  | nil => rfl
  | cons d cs ihcs =>
    have hrest := ihcs (fun d hd => hcs d (List.mem_cons_of_mem _ hd))
      fun d hd => ih d (List.mem_cons_of_mem _ hd)
    have hnested := ih d List.mem_cons_self
    have hscope := hcs d List.mem_cons_self
    obtain ⟨component, scope, kind⟩ := d
    obtain rfl : scope = none := hscope
    by_cases hk : ∃ s, kind = .source s
    · obtain ⟨s, rfl⟩ := hk
      have hcte : isCte e ⟨component, none, .source s⟩ =
          isCte .generic ⟨component, none, .source s⟩ := rfl
      have hinner (seen : List String) : s.innerCtes e seen = s.innerCtes .generic seen := by
        cases s with
        | query body aliasName => exact hnested body (List.mem_singleton.mpr rfl) seen
        | _ => rfl
      rw [walkCtes_source, walkCtes_source, hcte]
      simp only [hinner, hrest]
    · have hk : ∀ s, kind ≠ .source s := fun s hs => hk ⟨s, hs⟩
      rw [walkCtes_other hk, walkCtes_other hk, hrest]

theorem findCtes_unscoped (n : Subquery)
    (h : ∀ d, Query.Contains n.statement d → d.engine = none) (seen : List String) :
    Subquery.findCtes e seen n = Subquery.findCtes .generic seen n := by
  induction n using Subquery.induction generalizing seen with
  | step q ih =>
    have hq : Statement.Unscoped q := fun d hd => h d (.here hd)
    rw [findCtes_of, findCtes_of, hq.bucket, hq.bucket]
    refine bind_congr fun _ => walkCtes_unscoped hq (fun d hd n hn seen => ?_) seen
    have hmem := Statement.mem_nested.mpr ⟨d, hd, hn⟩
    obtain ⟨n⟩ := n
    exact ih _ hmem (fun d hd => h d (.inside hmem hd)) seen

variable {q : Query}

include he

theorem shared_of_defines {s : Source Subquery} {d : Engine} (h : Defines d q s)
    (hq : q.Common e) :
    (ClauseKind.source s).Shared e (c.on .generic).rendering (c.on e).rendering := by
  induction h with
  | here hc hs => exact hs ▸ (shared_of_common he hq).kinds _ (Statement.mem_bucket.mp hc).1
  | inside hc hb _ ih =>
    refine ih (hq.nested ?_)
    exact Statement.mem_nested_of_part (Statement.mem_bucket.mp hc).1 (ClauseKind.part_of_source hb)

theorem cteDefinition_requote {s : Source Subquery}
    (hs : (ClauseKind.source s).Shared e (c.on .generic).rendering (c.on e).rendering) :
    (c.on e).cteDefinition q s =
      ((c.on .generic).cteDefinition q s).map (Fragment.requote e) := by
  cases s with
  | table name =>
    unfold cteDefinition
    split
    · rfl
    · split <;> rfl
  | raw sql bindings aliasName =>
    obtain ⟨hsql, hnames⟩ := hs.terms
    have htext : (c.on e).engine.wrapIdentifiers sql =
        e.requote ((c.on .generic).engine.wrapIdentifiers sql) :=
      Engine.wrapIdentifiers_requote he hsql
    cases aliasName with
    | none => rfl
    | some name =>
      unfold cteDefinition
      dsimp only [Source.alias?, Source.aliasBy]
      split
      · rfl
      · refine congrArg (fun sql => Except.ok (Fragment.mk sql bindings)) ?_
        rw [wrapValue_on he (hnames name rfl), htext]
        simp +decide [Engine.requote_append, Engine.requote_unquoted]
  | query body aliasName =>
    have hbody := hs.parts _ (.head _)
    have hselect := hbody.select rfl [q.vars]
    have hnames := hbody.names hs.terms.2
    obtain ⟨n⟩ := body
    have halias : ((c.on .generic).rendering (.of n)).aliasName = (Subquery.of n).aliasName := by
      rw [rendering_of]
      rfl
    rw [halias] at hnames
    unfold cteDefinition
    dsimp only [Source.alias?, Source.aliasBy]
    generalize aliasName.or (Subquery.of n).aliasName = names at hnames
    cases names with
    | none => rfl
    | some name =>
      dsimp only
      split
      · rfl
      · rw [hselect]
        cases ((c.on .generic).rendering (.of n)).select [q.vars] with
        | error e => rfl
        | ok sub =>
          refine congrArg (fun sql => Except.ok (Fragment.mk sql sub.bindings)) ?_
          rw [wrapValue_on he (hnames name rfl)]
          simp +decide [Fragment.requote, Engine.requote_append, Engine.requote_unquoted]

variable (hq : q.Common e)

include hq

theorem front_requote :
    (c.on e).front q = ((c.on .generic).front q).map (Fragment.requote e) := by
  have hctes : q.ctes (c.on e).engine = q.ctes (c.on .generic).engine :=
    congrArg (Except.map Prod.fst) (findCtes_unscoped (.of q) hq.unscoped [])
  unfold front
  rw [hctes]
  cases hfound : q.ctes (c.on .generic).engine with
  | error e => rfl
  | ok found =>
    have hdefs : found.mapM ((c.on e).cteDefinition q) =
        (found.mapM ((c.on .generic).cteDefinition q)).map (List.map (Fragment.requote e)) := by
      rw [← mapM_map_result]
      refine mapM_congr fun s hs => ?_
      exact cteDefinition_requote he (shared_of_defines he (defines_of_mem_ctes hfound hs) hq)
    simp only [bind, Except.bind, hdefs]
    cases found.mapM ((c.on .generic).cteDefinition q) with
    | error e => rfl
    | ok definitions => exact congrArg Except.ok (Fragment.defining_requote he definitions)

end Definitions

section Compiled

variable {q : Query} (hq : q.Common e) (hs : q.method = .aggregate → q.scope = none)
  (hl : e ≠ .postgres → q.Limited)

include he hq hs hl

theorem assemble_requote :
    (c.on e).assemble q = ((c.on .generic).assemble q).map (Fragment.requote e) := by
  have hshared := shared_of_common (c := c) he hq
  rw [assemble_eq, assemble_eq, body_requote he hshared hs hl, front_requote he hq]
  cases (c.on .generic).body q with
  | error e => rfl
  | ok body =>
    cases (c.on .generic).front q with
    | error e => rfl
    | ok front => exact congrArg Except.ok (Fragment.requote_append front body).symm

theorem compileRaw_requote :
    (c.on e).compileRaw q = ((c.on .generic).compileRaw q).map (Fragment.requote e) := by
  unfold compileRaw
  rw [assemble_requote he hq hs hl, marker_eq, marker_eq]
  cases (c.on .generic).assemble q with
  | error e => rfl
  | ok f =>
    simp only [bind, Except.bind, Except.map, Fragment.requote]
    rw [Engine.expandMarkers_requote he]
    cases expandMarkers "?" f.bindings f.sql <;> rfl

theorem compile_eq_of_opening (ho : e.dialect.opening = '"') :
    (c.on e).compile q = (c.on .generic).compile q := by
  have hrequote : Fragment.requote e = id :=
    funext fun f => congrArg (Fragment.mk · f.bindings) (Engine.requote_of_opening ho f.sql)
  have hname (f : Fragment) : (c.on e).nameMarkers (some q) f =
      (c.on .generic).nameMarkers (some q) f := by
    rw [nameMarkers, marker_eq, nameMarkers, marker_eq]
    rfl
  unfold compile
  rw [compileRaw_requote he hq hs hl, hrequote]
  cases (c.on .generic).compileRaw q with
  | error e => rfl
  | ok f => exact congrArg Except.ok (hname f)

end Compiled

theorem on_ofConfig (e : Engine) (config : Config) :
    (ofConfig .generic config).on e = ofConfig e config := by
  cases e <;> rfl

/-- What engines do besides their own rendering of a few clauses is to quote. Without clauses for
one engine alone, and without those that an engine renders in its own way, a statement compiles for
PostgreSQL as for the generic engine, result or fault. So it does for SQLite, if no offset is
without a limit. For MySQL, if moreover no text of it has quotes, it compiles to the same SQL in
backticks with the same bindings, or fails with the same fault. -/
theorem compile_shared (c : Compiler) (q : Query)
    (hunscoped : ∀ d, q.Contains d → d.engine = none)
    (hscope : q.method = .aggregate → q.scope = none) :
    ((∀ d, q.Contains d → Engine.postgres.shares d.kind = true) →
      (c.on .postgres).compile q = (c.on .generic).compile q) ∧
    ((∀ d, q.Contains d → Engine.sqlite.shares d.kind = true) → q.Limited →
      (c.on .sqlite).compile q = (c.on .generic).compile q) ∧
    ((∀ d, q.Contains d → Engine.mySql.shares d.kind = true) → q.Limited →
      q.Obeys (Terms.neutral .mySql) →
      ((c.on .mySql).compile q).map (fun r => (r.rawSql, r.bindings)) =
        ((c.on .generic).compile q).map
          fun r => (Engine.mySql.requote r.rawSql, r.bindings)) := by
  refine ⟨fun hshares => ?_, fun hshares hl => ?_, fun hshares hl hterms => ?_⟩
  · have hq : q.Common .postgres :=
      ⟨hunscoped, hshares, q.obeys_neutral rfl, fun h => absurd rfl h⟩
    exact compile_eq_of_opening (by decide) hq hscope (fun h => absurd rfl h) rfl
  · have hq : q.Common .sqlite := ⟨hunscoped, hshares, q.obeys_neutral rfl, fun _ => hl.nested⟩
    exact compile_eq_of_opening (by decide) hq hscope (fun _ => hl) rfl
  · have hq : q.Common .mySql := ⟨hunscoped, hshares, hterms, fun _ => hl.nested⟩
    unfold compile
    rw [compileRaw_requote (by decide) hq hscope fun _ => hl]
    cases (c.on .generic).compileRaw q <;> rfl

def pagedOrders : Query where
  method := .aggregate
  clauses := [
    ⟨.cte, none, .source (.query (.of {
      clauses := [⟨.source, none, .source (.table "orders")⟩, ⟨.limit, none, .limit 10⟩,
        ⟨.offset, none, .offset 20⟩] }) (some "page"))⟩,
    ⟨.source, none, .source (.table "page as p")⟩,
    ⟨.aggregate, none, .aggregate ⟨"count", ["p.id"]⟩⟩,
    ⟨.filter, none, .condition ⟨.compare "p.state" "=" (.string "\"new\""), false, false⟩⟩,
    ⟨.filter, none, .condition ⟨.raw "[p].[total] IN (?)" [.array [.int 1, .int 2]], false, true⟩⟩]

theorem compile_shared_pagedOrders :
    (∀ d, pagedOrders.Contains d → d.engine = none) ∧
    (∀ e ∈ Engine.kin, ∀ d, pagedOrders.Contains d → e.shares d.kind = true) ∧
    pagedOrders.Limited ∧ pagedOrders.Obeys (Terms.neutral .mySql) ∧
    ∃ r m, (ofEngine .generic).compile pagedOrders = .ok r ∧
      (ofEngine .postgres).compile pagedOrders = .ok r ∧
      (ofEngine .sqlite).compile pagedOrders = .ok r ∧
      (ofEngine .mySql).compile pagedOrders = .ok m ∧
      r.rawSql = "WITH \"page\" AS (SELECT * FROM \"orders\" LIMIT ? OFFSET ?)\n" ++
        "SELECT COUNT(\"p\".\"id\") AS \"count\" FROM \"page\" AS \"p\" " ++
        "WHERE \"p\".\"state\" = ? AND NOT (\"p\".\"total\" IN (?,?))" ∧
      m.rawSql = Engine.mySql.requote r.rawSql ∧ m.bindings = r.bindings := by
  have hclauses : ∀ d, pagedOrders.Contains d →
      d.engine = none ∧ ∀ e ∈ Engine.kin, e.shares d.kind = true := by
    refine Query.forall_contains.mpr ?_
    simp only [List.forall_mem_cons, ClauseKind.nested, ClauseKind.parts,
      Source.parts, Predicate.parts, List.map_cons, List.map_nil,
      ↓Query.forall_contains]
    simp +decide [Engine.shares]
  have hlimited : pagedOrders.Limited := by
    refine ⟨by rintro ⟨⟩, fun _ => ?_, ?_⟩
    · rintro n ⟨⟩
      rfl
    · have hall : ∀ component place n, pagedOrders.Nests component place n → n.Paged := by
        refine Query.forall_nests.mpr fun d hd m hm => ?_
        rcases List.mem_cons.mp hd with rfl | hd
        · obtain rfl := List.mem_singleton.mp hm
          refine ⟨?_, fun _ _ _ hn => (Query.not_nests rfl hn).elim⟩
          rintro w ⟨⟩
          decide
        · have hnone : ∀ d ∈ pagedOrders.clauses.tail, d.kind.parts = [] := by
            simp [pagedOrders, ClauseKind.parts, Source.parts, Predicate.parts]
          rw [hnone d hd] at hm
          cases hm
      exact fun component n hn => hall component .select n hn
  have hterms : pagedOrders.Obeys (Terms.neutral .mySql) := by
    refine ⟨by rintro _ ⟨⟩, ?_⟩
    simp only [pagedOrders, List.forall_mem_cons, ClauseKind.Obeys, Source.Obeys,
      Aggregate.Obeys, Condition.Obeys, Predicate.Obeys, Subquery.obeys_of, Query.Obeys,
      Statement.Obeys]
    simp +decide [Terms.neutral, Engine.Neutral]
  have hsql : ((ofEngine .generic).compile pagedOrders).toOption.map (·.rawSql) =
      some ("WITH \"page\" AS (SELECT * FROM \"orders\" LIMIT ? OFFSET ?)\n" ++
        "SELECT COUNT(\"p\".\"id\") AS \"count\" FROM \"page\" AS \"p\" " ++
        "WHERE \"p\".\"state\" = ? AND NOT (\"p\".\"total\" IN (?,?))") := by decide +kernel
  obtain ⟨r, hr, hsql⟩ := exists_compiled hsql
  obtain ⟨hpostgres, hsqlite, hmySql⟩ := compile_shared (ofEngine .generic) pagedOrders
    (fun d hd => (hclauses d hd).1) fun _ => rfl
  have hshares (e : Engine) (he : e ∈ Engine.kin) (d : Clause Subquery)
      (hd : pagedOrders.Contains d) : e.shares d.kind = true := (hclauses d hd).2 e he
  have hmySql := hmySql (hshares _ (by decide)) hlimited hterms
  have hgeneric : ((ofEngine .generic).on .generic).compile pagedOrders = .ok r := hr
  rw [hgeneric] at hpostgres hsqlite hmySql
  have hon (e : Engine) : (ofEngine .generic).on e = ofEngine e := on_ofConfig e {}
  rw [hon] at hpostgres hsqlite hmySql
  refine ⟨fun d hd => (hclauses d hd).1, hshares, hlimited, hterms, ?_⟩
  cases hm : (ofEngine .mySql).compile pagedOrders with
  | error e =>
    rw [hm] at hmySql
    cases hmySql
  | ok m =>
    rw [hm] at hmySql
    obtain ⟨hraw, hbindings⟩ := Prod.mk.inj (Except.ok.inj hmySql)
    exact ⟨r, m, hr, hpostgres (hshares _ (by decide)), hsqlite (hshares _ (by decide)) hlimited,
      rfl, hsql, hraw, hbindings⟩

def countedPage : Query where
  method := .aggregate
  clauses := [⟨.source, none, .source (.table "t")⟩, ⟨.limit, none, .limit 10⟩,
    ⟨.offset, none, .offset 10⟩, ⟨.aggregate, none, .aggregate ⟨"count", ["*"]⟩⟩]

/-- Though the page has a limit, its count has an offset without one. -/
theorem count_of_page_differs :
    ¬∀ (c : Compiler) (q : Query), q.scope = none → (∀ d, q.Contains d → d.engine = none) →
      (∀ d, q.Contains d → Engine.sqlite.shares d.kind = true) → q.Paged →
      (∀ component n, q.Nests component .select n → n.Paged) →
      (c.on .sqlite).compile q = (c.on .generic).compile q := by
  intro hall
  have hcontains (d : Clause Subquery) (h : countedPage.Contains d) : d ∈ countedPage.clauses := by
    cases h with
    | here hd => exact hd
    | inside hb _ => cases hb
  have hclauses : ∀ d ∈ countedPage.clauses,
      d.engine = none ∧ Engine.sqlite.shares d.kind = true := by
    simp [countedPage, Engine.shares]
  have hpaged : countedPage.Paged := by
    rintro w ⟨⟩
    decide
  have heq := hall (ofEngine .generic) countedPage rfl (fun d hd => (hclauses d (hcontains d hd)).1)
    (fun d hd => (hclauses d (hcontains d hd)).2) hpaged
    fun _ _ hn => (Query.not_nests rfl hn).elim
  exact absurd (congrArg (fun x => x.toOption.map (·.rawSql)) heq) (by decide +kernel)

end Compiler

end SqlDialects
