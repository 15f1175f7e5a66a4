import SqlDialects.Proofs.Scope.Rows
import SqlDialects.Proofs.Visibility.Foreign

/-!
Whole statements and the same ones rewritten. The bodies of common table expressions are rewritten
in one way at any depth, so that the search for them finds the rewritten ones in the same order.
-/

namespace SqlDialects

theorem Query.held_rewrite {P : Value → Prop} {f : Value → Value}
    {g : Component → Place → Subquery → Subquery} {vars : Variables} {q : Query}
    (hf : ∀ v, P (f v))
    (hg : ∀ d ∈ q.clauses, ∀ n ∈ d.kind.parts, ∀ d',
      Query.Contains (g d.component n.1 n.2).statement d' → ∀ v ∈ d'.kind.held, P v) :
    ∀ d', Query.Contains (q.rewrite f g vars) d' → ∀ v ∈ d'.kind.held, P v := by
  intro d' h
  cases h with
  | here h =>
    obtain ⟨d, -, rfl⟩ := List.mem_map.mp h
    intro v hv
    rw [Clause.rewrite, ClauseKind.held_rewrite] at hv
    obtain ⟨w, -, rfl⟩ := List.mem_map.mp hv
    exact hf w
  | @inside _ body _ hb h =>
    obtain ⟨_, hmem, place, hpart⟩ := Statement.exists_part hb
    obtain ⟨d, hd, rfl⟩ := List.mem_map.mp hmem
    rw [Clause.rewrite, ClauseKind.parts_rewrite] at hpart
    obtain ⟨n, hn, heq⟩ := List.mem_map.mp hpart
    have hbody : g d.component n.1 n.2 = .of body := congrArg Prod.snd heq
    refine hg d hd n hn d' ?_
    rw [hbody]
    exact h

/-- Each statement is rewritten clause by clause, and expressions declared in it in the same way. -/
def Hereditary (into : Subquery → Subquery) : Prop :=
  ∀ q : Query, ∃ f g vars, into (.of q) = .of (q.rewrite f g vars) ∧ g .cte .select = into

variable {e : Engine} {into : Subquery → Subquery}

theorem Hereditary.aliasName (hh : Hereditary into) (n : Subquery) :
    (into n).aliasName = n.aliasName := by
  obtain ⟨q⟩ := n
  obtain ⟨f, g, vars, hq, -⟩ := hh q
  rw [hq]
  rfl

theorem Source.alias?_map (ha : ∀ n, (into n).aliasName = n.aliasName) (s : Source Subquery) :
    (s.map into).alias? = s.alias? := by
  cases s with
  | query n aliasName =>
    exact congrArg aliasName.or (ha n)
  | _ => rfl

def Source.FoundBoth (into : Subquery → Subquery) (a b : List (Source Subquery) × List String) :
    Prop :=
  b = (a.1.map (Source.map into), a.2)

theorem walkCtes_rewrite {t : Tie} {f : Value → Value}
    {g : Component → Place → Subquery → Subquery}
    (ha : ∀ n, (g .cte .select n).aliasName = n.aliasName) {cs : List (Clause Subquery)}
    (ih : ∀ d ∈ cs, ∀ n ∈ d.kind.nested, ∀ seen, t.Yields (Source.FoundBoth (g .cte .select))
      (n.findCtes e seen) ((g .cte .select n).findCtes e seen)) (seen : List String) :
    t.Yields (Source.FoundBoth (g .cte .select)) (walkCtes e seen cs)
      (walkCtes e seen (cs.map (·.rewrite f g))) := by
  induction cs generalizing seen with
  | nil => exact .ok rfl
  | cons d cs ihcs =>
    have hrest := ihcs fun d hd => ih d (List.mem_cons_of_mem _ hd)
    have hhead := ih d List.mem_cons_self
    obtain ⟨component, scope, kind⟩ := d
    rw [List.map_cons, Clause.rewrite]
    by_cases hk : ∃ s, kind = .source s
    · obtain ⟨s, rfl⟩ := hk
      dsimp only [ClauseKind.rewrite]
      rw [walkCtes_source, walkCtes_source]
      have hv : isCte e ⟨component, scope, .source (s.map (g component .select))⟩ =
          isCte e ⟨component, scope, .source s⟩ := rfl
      rw [hv]
      by_cases hc : isCte e ⟨component, scope, .source s⟩ = true
      · obtain rfl : component = .cte := by
          simp only [isCte, Clause.visible, Bool.and_eq_true, beq_iff_eq] at hc
          exact hc.1
        have hinner (seen : List String) : t.Yields (Source.FoundBoth (g .cte .select))
            (s.innerCtes e seen) ((s.map (g .cte .select)).innerCtes e seen) := by
          cases s with
          | query n aliasName => exact hhead n (List.mem_singleton.mpr rfl) seen
          | _ => exact .ok rfl
        rw [Source.alias?_map ha]
        split
        · exact hrest seen
        · refine (hinner _).bind ?_
          rintro ⟨inner, seen⟩ _ rfl
          refine (hrest seen).bind ?_
          rintro ⟨later, seen⟩ _ rfl
          refine .ok ?_
          simp [Source.FoundBoth]
      · rw [Bool.not_eq_true] at hc
        simp only [hc, Bool.not_false, Bool.true_or, if_true]
        exact hrest seen
    · have hk : ∀ s, kind ≠ .source s := fun s hs => hk ⟨s, hs⟩
      rw [walkCtes_other hk, walkCtes_other]
      · exact hrest seen
      · intro s hs
        cases kind with
        | source s => exact hk s rfl
        | _ => cases hs

theorem findCtes_rewrite {t : Tie} (ht : t.Plain) {q : Query} {f : Value → Value}
    {g : Component → Place → Subquery → Subquery} {vars : Variables}
    (ha : ∀ n, (g .cte .select n).aliasName = n.aliasName)
    (ih : ∀ n ∈ q.nested, ∀ seen, t.Yields (Source.FoundBoth (g .cte .select))
      (n.findCtes e seen) ((g .cte .select n).findCtes e seen)) (seen : List String) :
    t.Yields (Source.FoundBoth (g .cte .select)) ((Subquery.of q).findCtes e seen)
      ((Subquery.of (q.rewrite f g vars)).findCtes e seen) := by
  have hviews : t.Yields (fun _ _ => True) (q.getAll .cte ClauseKind.source? (some e))
      ((q.rewrite f g vars).getAll .cte ClauseKind.source? (some e)) := by
    rw [q.getAll_rewrite _ (ClauseKind.source?_rewrite f _)]
    have hself : t.Yields Eq (q.getAll .cte ClauseKind.source? (some e))
        (q.getAll .cte ClauseKind.source? (some e)) := ht.yields fun _ => Statement.fixed_getAll
    generalize q.getAll .cte ClauseKind.source? (some e) = x at hself ⊢
    cases hself with
    | ok _ => exact .ok trivial
    | error he => exact .error he
    | spared he _ => exact .spared he _
  rw [findCtes_of, findCtes_of]
  refine hviews.bind fun _ _ _ => ?_
  refine walkCtes_rewrite ha (fun d hd n hn => ih n ?_) seen
  exact Statement.mem_nested.mpr ⟨d, hd, hn⟩

theorem Hereditary.findCtes {t : Tie} (ht : t.Plain) (hh : Hereditary into) (n : Subquery) :
    ∀ seen, t.Yields (Source.FoundBoth into) (n.findCtes e seen) ((into n).findCtes e seen) := by
  induction n using Subquery.induction with
  | step q ih =>
    intro seen
    obtain ⟨f, g, vars, hq, hg⟩ := hh q
    subst hg
    rw [hq]
    exact findCtes_rewrite ht hh.aliasName ih seen

section Aggregates

variable (f : Value → Value) (g : Component → Place → Subquery → Subquery) (vars : Variables)

theorem Query.unpaged_rewrite (q : Query) :
    Query.unpaged (q.rewrite f g vars) = (Query.unpaged q).rewrite f g vars := by
  simp only [Query.unpaged, Statement.rewrite_clear]

def Query.notNull (q : Query) (columns : List String) : Query :=
  columns.foldl (fun q name => q.notNext.addCondition .filter (.isNull name)) q

theorem Query.notNull_rewrite (q : Query) (columns : List String) :
    Query.notNull (q.rewrite f g vars) columns = (Query.notNull q columns).rewrite f g vars := by
  induction columns generalizing q with
  | nil => rfl
  | cons name columns ih =>
    have hone : (q.rewrite f g vars).notNext.addCondition .filter (.isNull name) =
        (q.notNext.addCondition .filter (.isNull name)).rewrite f g vars := by
      unfold Statement.addCondition
      simp only [Statement.add, Statement.notNext, Statement.rewrite, List.map_append]
      rfl
    show Query.notNull ((q.rewrite f g vars).notNext.addCondition .filter (.isNull name))
      columns = _
    rw [hone, ih]
    rfl

theorem Query.counted_rewrite (e : Engine) (columns : List String) (q : Query) :
    Query.counted e columns (q.rewrite f g vars) =
      (Query.counted e columns q).rewrite f g vars := by
  have hinner :
      ({ (q.rewrite f g vars).clear .aggregate (some e) with method := .select } : Query) =
        Statement.rewrite f g vars { q.clear .aggregate (some e) with method := .select } := by
    rw [← Statement.rewrite_clear]
    rfl
  unfold Query.counted
  rw [hinner]
  generalize ({ q.clear .aggregate (some e) with method := .select } : Query) = inner
  have hdistinct : (inner.rewrite f g vars).distinct = inner.distinct := rfl
  dsimp only
  rw [hdistinct]
  split
  · rw [← Statement.rewrite_clear, ← Statement.rewrite_select]
  · exact Query.notNull_rewrite f g vars inner columns

end Aggregates

variable {c : Compiler} {t : Tie} {q : Query} {f : Value → Value}
  {g : Component → Place → Subquery → Subquery} {vars : Variables}

/-- What stands in the clauses is read alike when a statement is rewritten that nothing is defined
around. An aggregate may put one more statement around it. -/
def Query.Enters (c : Compiler) (t : Tie) (f : Value → Value)
    (g : Component → Place → Subquery → Subquery) (vars : Variables) (q : Query) : Prop :=
  ∀ outer ∈ ([[], [[]]] : List Scopes),
    q.Carried c t (q.vars :: outer) (vars :: outer) c.rendering f fun component place n =>
      c.rendering (g component place n)

theorem Query.enters_of_rendering {g : Component → Place → Subquery → Subquery}
    (h : ∀ component place, ∀ n ∈ q.nested, c.rendering (g component place n) = c.rendering n) :
    q.Enters c agreement id g q.vars := by
  intro outer _ d hd _
  refine ⟨fun v _ => ⟨Compiler.agreement_refl _, fun _ _ _ _ _ => Compiler.agreement_refl _⟩,
    fun n hn => ?_⟩
  dsimp only
  rw [h d.component n.1 n.2 (Statement.mem_nested_of_part hd hn)]
  cases n.1 with
  | select => exact ⟨rfl, Compiler.agreement_fragments_refl _⟩
  | group => exact Compiler.agreement_refl _
  | joined => exact Compiler.agreement_refl _

namespace Query.Enters

open Compiler

variable (h : Query.Enters c t f g vars q)

include h

theorem clear (component : Component) (engine : Option Engine) :
    Query.Enters c t f g vars (q.clear component engine) :=
  fun outer ho => (h outer ho).clear component engine

theorem notNull (columns : List String) :
    Query.Enters c t f g vars (Query.notNull q columns) := by
  induction columns generalizing q with
  | nil => exact h
  | cons name columns ih =>
    have hone : Query.Enters c t f g vars (q.notNext.addCondition .filter (.isNull name)) :=
      fun outer ho => (h outer ho).add (.of_empty rfl rfl)
    exact ih hone

theorem counted (e : Engine) (columns : List String) :
    Query.Enters c t f g vars (Query.counted e columns q) := by
  have hinner : Query.Enters c t f g vars
      { q.clear .aggregate (some e) with method := .select } := h.clear .aggregate (some e)
  unfold Query.counted
  generalize ({ q.clear .aggregate (some e) with method := .select } : Query) = inner at hinner ⊢
  dsimp only
  split
  · intro outer ho
    rw [Statement.vars_select]
    exact ((hinner outer ho).clear .select (some e)).select columns
  · exact hinner.notNull columns

theorem select (ht : t.Plain) {outer : Scopes} (ho : outer ∈ ([[], [[]]] : List Scopes)) :
    t.Yields t.Fragments (c.select (c.prepare q) outer)
      (c.select (c.prepare (q.rewrite f g vars)) outer) := by
  unfold prepare
  rw [Statement.rewrite_map]
  exact ht.select (h outer ho)

theorem aggregateOver (ht : t.Plain) (function : String) :
    t.Yields t.Fragments (c.select (c.prepare (Query.aggregateOver function q)) [])
      (c.select (c.prepare (Query.aggregateOver function (q.rewrite f g vars))) []) := by
  have hrenamed : Query.Enters c t f g vars (q.rename (function ++ "Query")) := h
  have hinner := hrenamed.select ht (.tail _ (.head _))
  let into (_ : Subquery) : Subquery := .of ((q.rewrite f g vars).rename (function ++ "Query"))
  have houter : (Query.aggregateOver function q).Carried c t [[]] [[]] c.rendering id
      fun _ _ n => c.rendering (into n) := by
    intro d hd _
    rcases List.mem_cons.mp hd with rfl | hd
    · exact .of_empty rfl rfl
    obtain rfl := List.mem_singleton.mp hd
    refine ⟨nofun, fun n hn => ?_⟩
    obtain rfl := List.mem_singleton.mp hn
    dsimp only [into]
    rw [rendering_of, rendering_of]
    exact ⟨rfl, hinner⟩
  have hsame : c.prepare (Query.aggregateOver function (q.rewrite f g vars)) =
      (Query.aggregateOver function q).rewrite id (fun _ _ n => c.rendering (into n)) [] := rfl
  rw [hsame]
  exact ht.select houter

theorem aggregated (ht : t.Plain) :
    t.Yields t.Fragments (Query.aggregated c.engine q >>= fun p => c.select (c.prepare p) [])
      (Query.aggregated c.engine (q.rewrite f g vars) >>= fun p => c.select (c.prepare p) []) := by
  have hunpaged : Query.Enters c t f g vars (Query.unpaged q) :=
    ((h.clear .limit none).clear .order none).clear .group none
  unfold Query.aggregated
  dsimp only
  rw [Query.unpaged_rewrite]
  generalize Query.unpaged q = p at hunpaged ⊢
  have hself : t.Yields Eq (p.getOne .aggregate ClauseKind.aggregate? (some c.engine))
      (p.getOne .aggregate ClauseKind.aggregate? (some c.engine)) :=
    ht.yields fun _ => Statement.fixed_getOne
  have hdistinct : (p.rewrite f g vars).distinct = p.distinct := rfl
  rw [p.getOne_rewrite _ (ClauseKind.aggregate?_rewrite f _), hdistinct]
  generalize p.getOne .aggregate ClauseKind.aggregate? (some c.engine) = x at hself ⊢
  cases hself with
  | error he => exact .error he
  | spared he _ => exact .spared he _
  | @ok a =>
    cases a with
    | none => exact hunpaged.select ht (.head _)
    | some a =>
      dsimp only [Except.map, Option.map, bind, Except.bind, id_eq]
      by_cases hone : a.columns.length = 1 ∧ (!p.distinct) = true
      · rw [if_pos hone, if_pos hone]
        exact hunpaged.select ht (.head _)
      · rw [if_neg hone, if_neg hone, Query.counted_rewrite]
        exact (hunpaged.counted c.engine a.columns).aggregateOver ht a.function

theorem body (ht : t.Plain) : t.Yields t.Fragments (c.body q) (c.body (q.rewrite f g vars)) := by
  have hcarried := h [] (.head _)
  have hprepare : c.prepare (q.rewrite f g vars) =
      q.rewrite f (fun component place n => c.rendering (g component place n)) vars :=
    q.rewrite_map f g vars c.rendering
  have hmethod : (q.rewrite f g vars).method = q.method := rfl
  unfold Compiler.body
  rw [hmethod]
  cases q.method with
  | select => exact h.select ht (.head _)
  | aggregate => exact h.aggregated ht
  | insert =>
    dsimp only
    rw [hprepare]
    exact (ht.insertText hcarried).toFragment
  | update =>
    dsimp only
    rw [hprepare]
    exact (ht.updateText hcarried (by decide)).toFragment
  | assign =>
    dsimp only
    rw [hprepare]
    exact (ht.updateText hcarried (by decide)).toFragment
  | delete =>
    dsimp only
    rw [hprepare]
    exact (ht.deleteText hcarried).toFragment

end Query.Enters

/-- A whole statement and the expressions in it are read alike when it is rewritten. -/
structure Query.Passes (c : Compiler) (t : Tie) (f : Value → Value)
    (g : Component → Place → Subquery → Subquery) (vars : Variables) (q : Query) : Prop where
  clauses : Query.Enters c t f g vars q
  hereditary : Hereditary (g .cte .select)
  expressions : ∀ body aliasName, Defines c.engine q (.query body aliasName) →
    t.Yields t.Fragments ((c.rendering body).select [q.vars])
      ((c.rendering (g .cte .select body)).select [vars])

namespace Query.Passes

open Compiler

variable (h : Query.Passes c t f g vars q) (ht : t.Plain)

include h ht

theorem cteDefinition {s : Source Subquery} (hs : Defines c.engine q s) :
    t.Yields t.Fragments (c.cteDefinition q s)
      (c.cteDefinition (q.rewrite f g vars) (s.map (g .cte .select))) := by
  unfold Compiler.cteDefinition
  rw [Source.alias?_map h.hereditary.aliasName]
  cases s.alias? with
  | none => exact .error (ht.fault _ nofun)
  | some name =>
    dsimp only
    split
    · exact .error (ht.fault _ nofun)
    · cases s with
      | table name => exact .error (ht.fault _ nofun)
      | raw sql bindings aliasName =>
        exact .ok ⟨rfl, List.forall₂_same.mpr fun v _ => ht.bound v⟩
      | query body aliasName =>
        refine (h.expressions body aliasName hs).bind fun a b hab => ?_
        rw [hab.1]
        exact .ok ⟨rfl, hab.2⟩

theorem ctes : t.Yields
    (List.Forall₂ fun s s' => Defines c.engine q s ∧ s' = s.map (g .cte .select))
    (Query.ctes c.engine q) (Query.ctes c.engine (q.rewrite f g vars)) := by
  have hfound : t.Yields (Source.FoundBoth (g .cte .select)) ((Subquery.of q).findCtes c.engine [])
      ((Subquery.of (q.rewrite f g vars)).findCtes c.engine []) :=
    findCtes_rewrite ht h.hereditary.aliasName (fun n _ => h.hereditary.findCtes ht n) []
  have hdefines := defines_of_findCtes (e := c.engine) (.of q) []
  unfold Query.ctes
  generalize (Subquery.of q).findCtes c.engine [] = x at hfound hdefines ⊢
  generalize (Subquery.of (q.rewrite f g vars)).findCtes c.engine [] = y at hfound ⊢
  cases hfound with
  | error he => exact .error he
  | spared he _ => exact .spared he _
  | @ok a b hab =>
    subst hab
    refine .ok ?_
    rw [List.forall₂_map_right_iff, List.forall₂_same]
    exact fun s hs => ⟨hdefines a rfl s hs, rfl⟩

theorem front : t.Yields t.Fragments (c.front q) (c.front (q.rewrite f g vars)) := by
  unfold Compiler.front
  refine (h.ctes ht).bind fun xs ys hxy => ?_
  have hdefinitions : t.Yields (List.Forall₂ t.Fragments) (xs.mapM (c.cteDefinition q))
      (ys.mapM (c.cteDefinition (q.rewrite f g vars))) := by
    refine Tie.Yields.mapM hxy ?_
    rintro s _ ⟨hs, rfl⟩
    exact h.cteDefinition ht hs
  exact hdefinitions.bind fun fs gs hfs => .ok (.defining hfs)

theorem assemble : t.Yields t.Fragments (c.assemble q) (c.assemble (q.rewrite f g vars)) := by
  rw [Compiler.assemble_eq, Compiler.assemble_eq]
  refine (h.clauses.body ht).bind fun a b hab => ?_
  exact (h.front ht).bind fun a' b' hfront => .ok (hfront.append hab)

end Query.Passes

def Compiler.output (c : Compiler) (q : Query) :
    Except Fault (String × String × List Value × List (String × Value)) :=
  (c.compile q).map fun r => (r.rawSql, r.sql, r.bindings, r.named)

theorem Compiler.output_eq (c : Compiler) (q : Query) :
    c.output q = (do
      let f ← c.assemble q
      let sql ← expandMarkers c.marker f.bindings f.sql
      let r := c.nameMarkers none ⟨sql, f.bindings⟩
      return (r.rawSql, r.sql, r.bindings, r.named)) := by
  unfold output compile compileRaw
  cases c.assemble q with
  | error e => rfl
  | ok f =>
    simp only [bind, Except.bind]
    cases expandMarkers c.marker f.bindings f.sql <;> rfl

end SqlDialects
