import SqlDialects.Proofs.Placeholder.Alignment
import SqlDialects.Proofs.Placeholder.Rows
import SqlDialects.Proofs.Statement.Aggregated
import SqlDialects.Proofs.Statement.Ctes

/-!
The bindings of a whole statement are in the order of its placeholders, and there is one for each.
-/

namespace SqlDialects

open Script Text

theorem ordinary_walkCtes {engine : Engine} {q : Query} {cs : List (Clause Subquery)}
    (hcs : ∀ c ∈ cs, c ∈ q.clauses)
    (ih : ∀ n ∈ q.nested, ∀ seen, Ordinary (Subquery.findCtes engine seen n))
    (seen : List String) : Ordinary (walkCtes engine seen cs) := by
  induction cs generalizing seen with
  | nil => exact ordinary_ok _
  | cons c cs ihcs =>
    have hc := hcs c List.mem_cons_self
    have hrest := ihcs fun c hm => hcs c (List.mem_cons_of_mem _ hm)
    obtain ⟨component, scope, kind⟩ := c
    by_cases hk : ∃ s, kind = .source s
    · obtain ⟨s, rfl⟩ := hk
      have hinner (seen : List String) : Ordinary (s.innerCtes engine seen) := by
        cases s with
        | query body aliasName =>
          exact ih body (Statement.mem_nested.mpr ⟨_, hc, List.mem_singleton.mpr rfl⟩) seen
        | table name => exact ordinary_ok _
        | raw sql bindings aliasName => exact ordinary_ok _
      rw [walkCtes_source]
      split
      · exact hrest seen
      · exact (hinner _).bind fun inner _ => (hrest inner.2).bind fun _ _ => ordinary_ok _
    · rw [walkCtes_other fun s hs => hk ⟨s, hs⟩]
      exact hrest seen

theorem ordinary_findCtes (engine : Engine) (n : Subquery) :
    ∀ seen, Ordinary (Subquery.findCtes engine seen n) := by
  induction n using Subquery.induction with
  | step q ih =>
    intro seen
    rw [findCtes_of]
    refine (ordinary_mapM fun c _ => c.ordinary_view _ _).bind fun _ _ => ?_
    exact ordinary_walkCtes (fun c hc => hc) ih seen

theorem ordinary_ctes (engine : Engine) (q : Query) : Ordinary (q.ctes engine) :=
  (ordinary_findCtes engine (.of q) []).map _

theorem ordinary_aggregated (engine : Engine) (q : Query) : Ordinary (q.aggregated engine) := by
  refine (Statement.ordinary_getOne _ _ _ _).bind fun o _ => ?_
  cases o with
  | none => exact ordinary_ok _
  | some a =>
    dsimp only
    split <;> exact ordinary_ok _

theorem aggregates_unmarked : Terms.unmarked.Aggregates where
  braces _ hn _ hc := Unmarked.expandBraces hn hc
  rows _ hf := hf.append (by decide)
  star := by
    show Unmarked "*"
    decide

theorem transcribes_mapM {α : Type} {xs : List α} {f : α → Except Fault Fragment}
    {g : α → Except Fault Script} (h : ∀ x ∈ xs, Transcribes (f x) (g x))
    {k : List Fragment → Except Fault Fragment} {k' : List Script → Except Fault Script}
    (hk : ∀ ss : List Script, (∀ s ∈ ss, s.Aligned) → Transcribes (k (ss.map fragment)) (k' ss)) :
    Transcribes (xs.mapM f >>= k) (xs.mapM g >>= k') := by
  induction xs generalizing k k' with
  | nil => exact hk [] (by simp)
  | cons x xs ih =>
    rw [List.mapM_cons, List.mapM_cons, bind_assoc, bind_assoc]
    refine (h x List.mem_cons_self).bind fun s ha => ?_
    rw [bind_assoc, bind_assoc]
    refine ih (fun x hx => h x (List.mem_cons_of_mem _ hx)) fun ss has => ?_
    rw [pure_bind, pure_bind]
    refine hk (s :: ss) fun t ht => ?_
    rcases List.mem_cons.mp ht with rfl | ht
    · exact ha
    · exact has t ht

namespace Compiler

variable {c : Compiler} (hc : ∀ op ∈ c.operators, Unmarked op) {q : Query}
  (hq : q.Obeys Terms.unmarked)

include hc

theorem transcribes_cteDefinition (root : Query) {s : Source Subquery}
    (hs : s.Obeys Terms.unmarked (Subquery.Obeys Terms.unmarked)) :
    Transcribes (c.cteDefinition root s) (Spell.cteDefinition c root s) := by
  unfold cteDefinition Spell.cteDefinition
  cases hn : s.alias? with
  | none => exact transcribes_error (by rintro _ _ ⟨⟩)
  | some name =>
    dsimp only
    split
    · exact transcribes_error (by rintro _ _ ⟨⟩)
    cases s with
    | table _ => exact transcribes_error (by rintro _ _ ⟨⟩)
    | raw sql bindings aliasName =>
      obtain ⟨hraw, ha⟩ := hs
      have hname := c.engine.unmarked_wrapValue (ha name hn)
      obtain ⟨ht, hv, hra⟩ := writes_rawText (c := c) hraw
      refine transcribes_ok ⟨?_, by simp [hv], ?_⟩
      · simp [ht, String.append_assoc]
      · simp +decide [hname, hra]
    | query body aliasName =>
      obtain ⟨p⟩ := body
      obtain ⟨hb, ha⟩ := hs
      have hname : Unmarked name := by
        rcases Option.or_eq_some_iff.mp hn with h | ⟨-, h⟩
        · exact ha name h
        · exact (Subquery.obeys_of.mp hb).1 name h
      have hw := c.engine.unmarked_wrapValue hname
      refine ((faithful_rendering hc _ hb).select [root.vars]).bind fun sub hsub => ?_
      refine transcribes_ok ⟨?_, by simp [fragment], ?_⟩
      · simp [fragment, String.append_assoc]
      · simp +decide [hw, hsub]

include hq

theorem transcribes_prologue {b : Script} (ha : b.Aligned) :
    Transcribes (c.prependCtes q b.fragment) (do
      let prologue ← Spell.prologue c q
      return prologue ++ b) := by
  unfold prependCtes Spell.prologue
  rw [bind_assoc]
  refine transcribes_bind (ordinary_ctes c.engine q) fun sources hs => ?_
  cases sources with
  | nil => exact transcribes_ok ⟨rfl, rfl, ha⟩
  | cons s sources =>
    have hobeys (s' : Source Subquery) (hm : s' ∈ s :: sources) :=
      (defines_of_mem_ctes hs hm).obeys hq
    simp only [List.isEmpty_cons, Bool.false_eq_true, if_false]
    rw [bind_assoc]
    refine transcribes_mapM (fun s' hm => transcribes_cteDefinition hc q (hobeys s' hm))
      fun ss has => ?_
    have hj : (Script.join ",\n" (ss.map Script.trim)).Aligned := by
      refine aligned_join (by decide) fun s hs => ?_
      obtain ⟨s, hm, rfl⟩ := List.mem_map.mp hs
      exact (has s hm).trim
    refine transcribes_ok ⟨?_, ?_, ?_⟩
    · simp [fragment, sql_join, String.append_assoc, Function.comp_def]
    · simp [fragment, values_join, List.flatMap_map]
    · simp +decide [hj, ha]

theorem transcribes_body : Transcribes (c.body q) (Spell.body c q) := by
  have hn := obeys_faithful hc hq
  unfold body Spell.body
  cases q.method with
  | select => exact transcribes_select hc hn []
  | aggregate =>
    refine transcribes_bind (ordinary_aggregated c.engine q) fun p hp => ?_
    exact transcribes_select hc (obeys_faithful hc (obeys_aggregated aggregates_unmarked hq hp)) []
  | insert => exact (agrees_insertText hn).toFragment
  | update => exact (agrees_updateText hc hn .update).toFragment
  | assign => exact (agrees_updateText hc hn .assign).toFragment
  | delete => exact (agrees_deleteText hc hn).toFragment

theorem transcribes_assemble : Transcribes (c.assemble q) (Spell.statement c q) := by
  refine (transcribes_body hc hq).bind fun b ha => ?_
  split
  · exact transcribes_prologue hc hq ha
  · exact transcribes_ok ⟨rfl, rfl, ha⟩

omit hc hq

theorem expandMarkers_of_marks {sql : String} {bindings : List Value}
    (h : marks sql = bindings.length) :
    ∃ t, expandMarkers "?" bindings sql = .ok t := by
  unfold expandMarkers
  rw [length_indexesOf_mark, h]
  simp [pure, Except.pure]

theorem compile_of_assemble {f : Fragment} (h : c.assemble q = .ok f)
    (hm : marks f.sql = f.bindings.length) :
    ∃ r, c.compile q = .ok r ∧ r.bindings = f.bindings := by
  obtain ⟨t, ht⟩ := expandMarkers_of_marks hm
  have hexpand : f.expand = .ok ⟨t, f.bindings⟩ := Fragment.expand_eq_ok.mpr ⟨ht, rfl⟩
  exact ⟨_, compile_eq_ok.mpr ⟨_, compileRaw_eq_ok.mpr ⟨f, h, hexpand⟩, rfl⟩, rfl⟩

/-- Where only values put placeholders into a statement, compiling it finds a binding for each of
them: the fragment is read off a script, and the placeholder with `k` placeholders before it
stands for the `k`-th binding. -/
theorem bindings_in_textual_order (c : Compiler) (q : Query)
    (hc : ∀ op ∈ c.operators, Unmarked op) (hq : q.Obeys Terms.unmarked) :
    (∀ markers bindings, c.compile q ≠ .error (.markerMismatch markers bindings)) ∧
    c.assemble q = (Spell.statement c q).map Script.fragment ∧
    ∀ f, c.assemble q = .ok f →
      (∃ r, c.compile q = .ok r ∧ r.bindings = f.bindings) ∧
      marks f.sql = f.bindings.length ∧
      ∃ s, Spell.statement c q = .ok s ∧ f = s.fragment ∧
        ∀ i, f.sql.toList[i]? = some '?' →
          ∃ v, s[i]? = some (.value v) ∧ f.bindings[(f.sql.toList.take i).count '?']? = some v := by
  obtain ⟨heq, ha, ho⟩ := transcribes_assemble hc hq
  have hok (s : Script) (hs : Spell.statement c q = .ok s) :
      c.assemble q = .ok s.fragment ∧ marks s.fragment.sql = s.fragment.bindings.length := by
    refine ⟨by rw [heq, hs]; rfl, ?_⟩
    rw [fragment, count_sql (ha s hs)]
  refine ⟨?_, heq, ?_⟩
  · intro markers bindings hmismatch
    cases hs : Spell.statement c q with
    | error e =>
      have hassemble : c.assemble q = .error e := by rw [heq, hs]; rfl
      have he : c.compile q = .error e := by
        simp only [compile, compileRaw, hassemble, bind, Except.bind]
      rw [he] at hmismatch
      cases hmismatch
      exact ho _ hs markers bindings rfl
    | ok s =>
      obtain ⟨hassemble, hm⟩ := hok s hs
      obtain ⟨r, hr, -⟩ := compile_of_assemble hassemble hm
      rw [hr] at hmismatch
      cases hmismatch
  · intro f hf
    cases hs : Spell.statement c q with
    | error e =>
      rw [heq, hs] at hf
      cases hf
    | ok s =>
      obtain ⟨hassemble, hm⟩ := hok s hs
      rw [hassemble] at hf
      cases hf
      exact ⟨compile_of_assemble hassemble hm, hm, s, rfl, rfl, fun i hi => (ha s hs).value_at hi⟩

def pageOfRows : Query where
  clauses := [
    ⟨.source, none, .source (.table "t")⟩,
    ⟨.select, none, .column (.raw "a + ?" [.int 1])⟩,
    ⟨.filter, none, .condition { predicate := .oneOfQuery "x" (.of {
      clauses := [⟨.source, none, .source (.table "u")⟩, ⟨.limit, none, .limit 9⟩] }) }⟩,
    ⟨.order, none, .order (.raw "b = ?" [.int 2])⟩,
    ⟨.offset, none, .offset 5⟩]

set_option maxRecDepth 20000 in
theorem bindings_in_textual_order_page :
    (∀ op ∈ (ofEngine .sqlServer).operators, Unmarked op) ∧
    pageOfRows.Obeys Terms.unmarked ∧
    ∃ f, (ofEngine .sqlServer).assemble pageOfRows = .ok f ∧
      f.sql = "SELECT * FROM (SELECT a + ?, ROW_NUMBER() OVER (ORDER BY b = ?) AS [row_num] " ++
        "FROM [t] WHERE [x] IN (SELECT TOP (?) * FROM [u])) AS [results_wrapper] " ++
        "WHERE [row_num] >= ?" ∧
      f.bindings = [.int 1, .int 2, .uint 9, .uint 6] ∧
      marks f.sql = f.bindings.length := by
  have hc : ∀ op ∈ (ofEngine .sqlServer).operators, Unmarked op := by decide
  have hq : pageOfRows.Obeys Terms.unmarked := by
    refine ⟨by rintro _ ⟨⟩, ?_⟩
    simp only [pageOfRows, List.forall_mem_cons, ClauseKind.Obeys, Source.Obeys, Column.Obeys,
      Condition.Obeys, Predicate.Obeys, Order.Obeys, Subquery.obeys_of, Query.Obeys,
      Statement.Obeys]
    simp +decide [Terms.unmarked]
  obtain ⟨-, -, hf⟩ := bindings_in_textual_order (ofEngine .sqlServer) pageOfRows hc hq
  exact ⟨hc, hq, _, rfl, rfl, rfl, (hf _ rfl).2.1⟩

end Compiler

end SqlDialects
