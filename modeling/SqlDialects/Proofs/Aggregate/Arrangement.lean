import SqlDialects.Proofs.Aggregate.Over
import SqlDialects.Proofs.Outcome.Phases
import SqlDialects.Proofs.Paging.Offset
import SqlDialects.Proofs.Scope.Whole
import SqlDialects.Proofs.Statement.Steps

/-!
Aggregates of rows that are arranged: in groups, in an order, or in pages. All of that is left out
of an aggregate but for the offset, which passes over rows of the aggregate itself or of those it is
taken over.
-/

namespace SqlDialects

def arrangement : List Component := [.limit, .offset, .group, .order]

namespace Statement

variable {σ : Type}

def bare (q : Statement σ) : Statement σ :=
  { q with clauses := q.clauses.filter fun c => !arrangement.contains c.component }

variable (q : Statement σ) {component : Component}

theorem bucket_bare (h : component ∉ arrangement) (engine : Option Engine) :
    q.bare.bucket component engine = q.bucket component engine := by
  rw [bucket, bare, List.filter_filter, bucket]
  refine List.filter_congr fun c _ => ?_
  by_cases hc : c.component = component
  · simp [hc, h]
  · simp [Clause.visible, hc]

theorem bucket_bare_eq_nil (h : component ∈ arrangement) (engine : Option Engine) :
    q.bare.bucket component engine = [] := by
  rw [bucket, bare, List.filter_filter, List.filter_eq_nil_iff]
  intro c _ hc
  simp only [Clause.visible, Bool.and_eq_true, beq_iff_eq, Bool.not_eq_true',
    List.contains_eq_mem, decide_eq_false_iff_not] at hc
  exact hc.2 (hc.1.1 ▸ h)

theorem bare_bare : q.bare.bare = q.bare := by
  simp [bare, List.filter_filter]

section Arranged

variable (h : component ∈ arrangement)

include h

theorem bare_add (kind : ClauseKind σ) : (q.add component kind).bare = q.bare := by
  simp [bare, add, List.filter_append, h]

theorem bare_addOrReplace (kind : ClauseKind σ) :
    (q.addOrReplace component kind).bare = q.bare := by
  have hfilter : (replaceFirst component q.scope kind q.clauses).filter
        (fun c => !arrangement.contains c.component) =
      q.clauses.filter fun c => !arrangement.contains c.component :=
    filter_replaceFirst (fun c hc _ => by simp [hc, h]) q.clauses
  simp only [bare, addOrReplace, hfilter]

theorem bare_clear (cleared : Option Engine) : (q.clear component cleared).bare = q.bare := by
  have hfilter : (q.clauses.filter (!·.visible component (cleared.or q.scope))).filter
        (fun c => !arrangement.contains c.component) =
      q.clauses.filter fun c => !arrangement.contains c.component := by
    rw [List.filter_filter]
    refine List.filter_congr fun c _ => ?_
    by_cases hc : c.component = component
    · simp [hc, h]
    · simp [Clause.visible, hc]
  simp only [bare, clear, hfilter]

theorem bare_foldl_add {α : Type} (kind : α → ClauseKind σ) (xs : List α) :
    (xs.foldl (fun q x => q.add component (kind x)) q).bare = q.bare := by
  induction xs generalizing q with
  | nil => rfl
  | cons x xs ih => exact (ih _).trans (q.bare_add h (kind x))

end Arranged

theorem bare_aggregate (function : String) (columns : List String) :
    (q.aggregate function columns).bare = q.bare.aggregate function columns := by
  have hcomponent : Component.aggregate ∉ arrangement := by decide
  simp only [aggregate, add, clear, bare, List.filter_append, List.filter_filter]
  simp [Bool.and_comm, hcomponent]

end Statement

inductive Step.Arranges : Step → Prop
  | limit (n : UInt64) : Arranges (.limit n)
  | offset (n : UInt64) : Arranges (.offset n)
  | forPage (page perPage : UInt64) : Arranges (.forPage page perPage)
  | groupBy (names : List String) : Arranges (.groupBy names)
  | group (x : Column Subquery) : Arranges (.group x)
  | orderBy (names : List String) (ascending : Bool) : Arranges (.orderBy names ascending)
  | order (o : Order) : Arranges (.order o)
  | add {component : Component} (h : component ∈ arrangement) (kind : ClauseKind Subquery) :
      Arranges (.add component kind)
  | addOrReplace {component : Component} (h : component ∈ arrangement)
      (kind : ClauseKind Subquery) : Arranges (.addOrReplace component kind)
  | clear {component : Component} (h : component ∈ arrangement) (engine : Option Engine) :
      Arranges (.clear component engine)
  | forEngine (e : Engine) {steps : List Step} (h : ∀ s ∈ steps, Arranges s) :
      Arranges (.forEngine e steps)

theorem Query.run_bare {steps : List Step} (h : ∀ s ∈ steps, ∀ q : Query, (q.apply s).bare = q.bare)
    (q : Query) : (q.run steps).bare = q.bare :=
  run_induction (I := fun r => r.bare = q.bare) (fun s hs r hr => (h s hs r).trans hr) rfl

theorem Step.Arranges.apply_bare {s : Step} (h : s.Arranges) (q : Query) :
    (q.apply s).bare = q.bare := by
  induction h generalizing q with
  | limit n => exact q.bare_addOrReplace (by decide) (.limit n)
  | offset n => exact q.bare_addOrReplace (by decide) (.offset n)
  | forPage page perPage =>
    exact (Statement.bare_addOrReplace _ (by decide) _).trans (q.bare_addOrReplace (by decide) _)
  | groupBy names => exact q.bare_foldl_add (by decide) _ names
  | group x => exact q.bare_add (by decide) (.column x)
  | orderBy names ascending => exact q.bare_foldl_add (by decide) _ names
  | order o => exact q.bare_add (by decide) (.order o)
  | add h kind => exact q.bare_add h kind
  | addOrReplace h kind => exact q.bare_addOrReplace h kind
  | clear h engine => exact q.bare_clear h engine
  | forEngine e h ih =>
    have hrun := Query.run_bare ih { q with scope := some e }
    exact congrArg (fun r : Query => { r with scope := q.scope }) hrun

namespace Query

variable {e : Engine} {p q : Query}

theorem bucket_unpaged_eq_nil (h : q.addsFor e = true) {component : Component}
    (hc : component = .limit ∨ component = .order ∨ component = .group) :
    q.unpaged.bucket component (some e) = [] := by
  let ordered : Query := q.clear .limit none
  let grouped : Query := ordered.clear .order none
  have hlimit : ordered.bucket .limit (some e) = [] := Statement.bucket_clear_self h .limit
  have hordered : ordered.addsFor e = true := h
  have horder : grouped.bucket .order (some e) = [] := Statement.bucket_clear_self hordered .order
  have hgrouped : grouped.addsFor e = true := h
  have hgroup : q.unpaged.bucket .group (some e) = [] := Statement.bucket_clear_self hgrouped .group
  rcases hc with rfl | rfl | rfl
  · rw [unpaged, Statement.bucket_clear_of_ne _ (by decide), Statement.bucket_clear_of_ne _
      (by decide), hlimit]
  · rw [unpaged, Statement.bucket_clear_of_ne _ (by decide), horder]
  · exact hgroup

theorem limitFor_unpaged (h : q.addsFor e = true) : q.unpaged.limitFor (some e) = .ok 0 := by
  rw [Statement.limitFor, Statement.getOne, bucket_unpaged_eq_nil h (.inl rfl)]
  rfl

theorem offsetFor_unpaged (q : Query) (engine : Option Engine) :
    q.unpaged.offsetFor engine = q.offsetFor engine := by
  have hbucket : q.unpaged.bucket .offset engine = q.bucket .offset engine :=
    q.bucket_unpaged_of_ne (by decide) (by decide) (by decide) engine
  rw [Statement.offsetFor, Statement.getOne_congr hbucket, Statement.offsetFor]

variable (h : p.bare = q.bare)

include h

theorem bucket_of_bare {component : Component} (hc : component ∉ arrangement)
    (engine : Option Engine) : p.bucket component engine = q.bucket component engine := by
  rw [← p.bucket_bare hc, h, q.bucket_bare hc]

theorem fields_of_bare : p.method = q.method ∧ p.vars = q.vars ∧ p.scope = q.scope ∧
    p.pendingOr = q.pendingOr ∧ p.pendingNot = q.pendingNot := by
  unfold Statement.bare at h
  simp only [Statement.mk.injEq] at h
  obtain ⟨hmethod, -, -, -, hvars, hscope, hor, hnot⟩ := h
  exact ⟨hmethod, hvars, hscope, hor, hnot⟩

theorem addsFor_of_bare : p.addsFor e = q.addsFor e := by
  rw [Statement.addsFor, (fields_of_bare h).2.2.1, Statement.addsFor]

theorem sameRows_unpaged (ha : p.addsFor e = true) : p.unpaged.SameRows e q.unpaged where
  distinct := by have hdistinct := congrArg Statement.distinct h; exact hdistinct
  vars := (fields_of_bare h).2.1
  scope := (fields_of_bare h).2.2.1
  bucket component hl ho := by
    have hq : q.addsFor e = true := (addsFor_of_bare h).symm.trans ha
    by_cases hc : component = .order ∨ component = .group
    · rw [bucket_unpaged_eq_nil ha (.inr hc), bucket_unpaged_eq_nil hq (.inr hc)]
    · obtain ⟨hord, hgroup⟩ := not_or.mp hc
      have hbare : component ∉ arrangement := by simp [arrangement, hl, ho, hord, hgroup]
      rw [bucket_unpaged_of_ne _ hl hord hgroup, bucket_unpaged_of_ne _ hl hord hgroup,
        bucket_of_bare h hbare]

theorem samePage_unpaged (ha : p.addsFor e = true)
    (ho : p.offsetFor (some e) = q.offsetFor (some e)) : p.unpaged.SamePage e q.unpaged where
  limit := by
    have hq : q.addsFor e = true := (addsFor_of_bare h).symm.trans ha
    rw [limitFor_unpaged ha, limitFor_unpaged hq]
  offset := by rw [offsetFor_unpaged, offsetFor_unpaged, ho]

end Query

namespace Compiler

variable {c : Compiler} {p q : Query}

/-- Of the arrangement of the rows, an aggregate keeps the offset alone. -/
theorem body_congr_of_bare (h : p.bare = q.bare) (hm : p.method = .aggregate)
    (ha : p.addsFor c.engine = true)
    (ho : p.offsetFor (some c.engine) = q.offsetFor (some c.engine)) : c.body p = c.body q := by
  obtain ⟨hmethod, -, -, hor, hnot⟩ := Query.fields_of_bare h
  have hbucket : p.bucket .aggregate (some c.engine) = q.bucket .aggregate (some c.engine) :=
    Query.bucket_of_bare h (by decide) _
  have hfound := Statement.getOne_congr hbucket ClauseKind.aggregate?
  have hrows := Query.sameRows_unpaged h ha
  have hpage := Query.samePage_unpaged h ha ho
  have hselect := select_congr hrows hpage []
  rw [body_aggregate hm, body_aggregate (hmethod.symm.trans hm), hfound, hselect]
  refine congrArg (_ >>= ·) (funext fun found => ?_)
  cases found with
  | none => rfl
  | some a => exact aggregateSelect_congr hrows hpage fun _ _ => ⟨hor, hnot⟩

theorem output_congr_of_bare (h : p.bare = q.bare) (hm : p.method = .aggregate)
    (ha : p.addsFor c.engine = true)
    (ho : p.offsetFor (some c.engine) = q.offsetFor (some c.engine)) :
    c.output p = c.output q := by
  have hctes : p.bucket .cte (some c.engine) = q.bucket .cte (some c.engine) :=
    Query.bucket_of_bare h (by decide) _
  obtain ⟨-, hvars, -⟩ := Query.fields_of_bare h
  have hassemble : c.assemble p = c.assemble q := by
    rw [assemble_eq, assemble_eq, body_congr_of_bare h hm ha ho, front_congr hvars hctes]
  rw [output_eq, hassemble, ← output_eq]

theorem passesOver_counted {offset : UInt64} (h : p.PassesOver c.engine offset q)
    (ho : p.pendingOr = q.pendingOr) (hn : p.pendingNot = q.pendingNot) (columns : List String) :
    (p.counted c.engine columns).PassesOver c.engine offset (q.counted c.engine columns) := by
  have hwindow (q : Query) : (q.counted c.engine columns).window (some c.engine) =
      q.window (some c.engine) :=
    Statement.window_congr
      (q.bucket_counted_of_ne columns (by decide) (by decide) (by decide) _)
      (q.bucket_counted_of_ne columns (by decide) (by decide) (by decide) _)
  have hadds : (q.counted c.engine columns).addsFor c.engine = true := by
    rw [Statement.addsFor, q.scope_counted columns]
    exact h.adds
  have hunordered : (q.counted c.engine columns).bucket .order (some c.engine) = [] :=
    (q.bucket_counted_of_ne columns (by decide) (by decide) (by decide) _).trans h.unordered
  exact ⟨Query.sameRows_counted h.rows fun _ _ => ⟨ho, hn⟩, hadds, h.offset_ne,
    (hwindow p).trans h.window, (hwindow q).trans h.whole, hunordered⟩

theorem length_bindings_aggregateSelect {offset : UInt64} {f g : Fragment}
    (h : p.PassesOver c.engine offset q) (ho : p.pendingOr = q.pendingOr)
    (hn : p.pendingNot = q.pendingNot) (a : Aggregate) (hf : c.aggregateSelect p a = .ok f)
    (hg : c.aggregateSelect q a = .ok g) : f.bindings.length = g.bindings.length + 1 := by
  have hdistinct : p.distinct = q.distinct := h.rows.distinct
  unfold aggregateSelect at hf hg
  rw [hdistinct] at hf
  split at hf
  · next hone =>
    rw [if_pos hone] at hg
    exact length_bindings_offset (h.map c.rendering) hf hg
  · next hone =>
    rw [if_neg hone] at hg
    have hrows := (passesOver_counted h ho hn a.columns).map c.rendering
    cases hp : c.select (c.prepare (p.counted c.engine a.columns)) [[]] with
    | error e => rw [hp] at hf; cases hf
    | ok rows =>
      cases hq : c.select (c.prepare (q.counted c.engine a.columns)) [[]] with
      | error e => rw [hq] at hg; cases hg
      | ok rows' =>
        rw [hp] at hf
        rw [hq] at hg
        cases hf
        cases hg
        have hlength := length_bindings_offset hrows hp hq
        exact hlength

theorem exists_offset_of_body {f : Fragment} (hm : q.method = .aggregate) (hf : c.body q = .ok f) :
    ∃ offset, q.offsetFor (some c.engine) = .ok offset := by
  have hselect {outer : Scopes} {r : Query} {f : Fragment}
      (hr : r.bucket .offset (some c.engine) = q.bucket .offset (some c.engine))
      (hf : c.select (c.prepare r) outer = .ok f) :
      ∃ offset, q.offsetFor (some c.engine) = .ok offset := by
    obtain ⟨offset, hoffset⟩ := exists_offset_of_select hf
    rw [prepare, Statement.offsetFor_map, Statement.offsetFor, Statement.getOne_congr hr] at hoffset
    exact ⟨offset, hoffset⟩
  have hunpaged : q.unpaged.bucket .offset (some c.engine) = q.bucket .offset (some c.engine) :=
    q.bucket_unpaged_of_ne (by decide) (by decide) (by decide) _
  rw [body_aggregate hm] at hf
  obtain ⟨found, -, hf⟩ := bind_eq_ok hf
  cases found with
  | none => exact hselect hunpaged hf
  | some a =>
    change c.aggregateSelect q.unpaged a = _ at hf
    unfold aggregateSelect at hf
    split at hf
    · exact hselect hunpaged hf
    · obtain ⟨rows, hrows⟩ : ∃ rows,
          c.select (c.prepare (q.unpaged.counted c.engine a.columns)) [[]] = .ok rows := by
        cases hrows : c.select (c.prepare (q.unpaged.counted c.engine a.columns)) [[]] with
        | ok rows => exact ⟨rows, rfl⟩
        | error e => rw [hrows] at hf; cases hf
      have hcounted := q.unpaged.bucket_counted_of_ne (e := c.engine) a.columns
        (by decide : Component.offset ≠ _) (by decide) (by decide) (some c.engine)
      exact hselect (hcounted.trans hunpaged) hrows

theorem length_bindings_body {f g : Fragment} (h : p.bare = q.bare) (hm : p.method = .aggregate)
    (ha : p.addsFor c.engine = true) (hp : p.offsetFor (some c.engine) ≠ .ok 0)
    (hq : q.offsetFor (some c.engine) = .ok 0) (hf : c.body p = .ok f) (hg : c.body q = .ok g) :
    f.bindings.length = g.bindings.length + 1 := by
  obtain ⟨hmethod, -, -, hor, hnot⟩ := Query.fields_of_bare h
  have hqadds : q.addsFor c.engine = true := (Query.addsFor_of_bare h).symm.trans ha
  have hqm : q.method = .aggregate := hmethod.symm.trans hm
  obtain ⟨offset, hoffset⟩ := exists_offset_of_body hm hf
  have hne : offset ≠ 0 := by
    rintro rfl
    exact hp hoffset
  have hwindow {r : Query} {offset : UInt64} (hr : r.addsFor c.engine = true)
      (ho : r.offsetFor (some c.engine) = .ok offset) :
      r.unpaged.window (some c.engine) = .ok ⟨0, offset⟩ := by
    rw [Statement.window, Query.limitFor_unpaged hr, Query.offsetFor_unpaged, ho]
    rfl
  have hpasses : p.unpaged.PassesOver c.engine offset q.unpaged :=
    ⟨Query.sameRows_unpaged h ha, hqadds, hne, hwindow ha hoffset, hwindow hqadds hq,
      Query.bucket_unpaged_eq_nil hqadds (.inr (.inl rfl))⟩
  have hbucket : p.bucket .aggregate (some c.engine) = q.bucket .aggregate (some c.engine) :=
    Query.bucket_of_bare h (by decide) _
  rw [body_aggregate hm, Statement.getOne_congr hbucket] at hf
  rw [body_aggregate hqm] at hg
  obtain ⟨found, hfound, hf⟩ := bind_eq_ok hf
  rw [hfound] at hg
  cases found with
  | none => exact length_bindings_offset (hpasses.map c.rendering) hf hg
  | some a => exact length_bindings_aggregateSelect hpasses hor hnot a hf hg

theorem bindings_of_compile {r : Compiled} (h : c.compile q = .ok r) :
    ∃ f, c.assemble q = .ok f ∧ r.bindings = f.bindings := by
  obtain ⟨f, hf, hexpand⟩ := assembled_of_compile h
  exact ⟨f, hf, (Fragment.expand_eq_ok.mp hexpand).2.symm⟩

theorem length_bindings_compile {r s : Compiled} (h : p.bare = q.bare) (hm : p.method = .aggregate)
    (ha : p.addsFor c.engine = true) (hp : p.offsetFor (some c.engine) ≠ .ok 0)
    (hq : q.offsetFor (some c.engine) = .ok 0) (hr : c.compile p = .ok r)
    (hs : c.compile q = .ok s) : r.bindings.length = s.bindings.length + 1 := by
  have hctes : p.bucket .cte (some c.engine) = q.bucket .cte (some c.engine) :=
    Query.bucket_of_bare h (by decide) _
  obtain ⟨-, hvars, -⟩ := Query.fields_of_bare h
  obtain ⟨f, hf, hrbound⟩ := bindings_of_compile hr
  obtain ⟨g, hg, hsbound⟩ := bindings_of_compile hs
  rw [hrbound, hsbound]
  obtain ⟨front, f', hfront, hf', rfl⟩ := assemble_eq_ok.mp hf
  obtain ⟨front', g', hfront', hg', rfl⟩ := assemble_eq_ok.mp hg
  have hlength := length_bindings_body h hm ha hp hq hf' hg'
  rw [front_congr hvars hctes, hfront'] at hfront
  obtain rfl := Except.ok.inj hfront
  rw [Fragment.bindings_append, Fragment.bindings_append, List.length_append, List.length_append,
    hlength, Nat.add_assoc]

end Compiler

namespace Query

variable {e : Engine}

theorem offsetFor_aggregate (q : Query) (function : String) (columns : List String)
    (engine : Option Engine) :
    (q.aggregate function columns).offsetFor engine = q.offsetFor engine := by
  have hbucket :
      (q.aggregate function columns).bucket .offset engine = q.bucket .offset engine := by
    rw [Statement.aggregate, Statement.bucket_add_of_ne _ (by decide),
      Statement.bucket_clear_of_ne _ (by decide)]
    rfl
  rw [Statement.offsetFor, Statement.getOne_congr hbucket, Statement.offsetFor]

theorem offsetFor_bare (q : Query) (engine : Option Engine) : q.bare.offsetFor engine = .ok 0 := by
  rw [Statement.offsetFor, Statement.getOne, q.bucket_bare_eq_nil (by decide)]
  rfl

theorem offsetFor_bare_offset (q : Query) (h : q.addsFor e = true) (offset : UInt64) :
    (q.bare.offset offset).offsetFor (some e) = .ok offset := by
  have hnone : ∀ x ∈ q.bare.clauses, x.component = .offset → x.engine ≠ some e := by
    intro x hx hc
    have hkept := (List.mem_filter.mp hx).2
    simp [hc, arrangement] at hkept
  have hgoverns : q.bare.Governs .offset e := by
    simp only [Statement.addsFor, Bool.or_eq_true, Option.isNone_iff_eq_none, beq_iff_eq] at h
    exact h.symm.imp id fun hscope => ⟨hscope, hnone⟩
  exact hgoverns.offsetFor_eq offset

end Query

namespace Compiler

/-- Of all that arranges the rows of a statement, its aggregate keeps the offset alone. It is the
aggregate of the statement without any arrangement if no rows are passed over, and otherwise one
value more is bound. -/
theorem aggregate_keeps_offset_alone (c : Compiler) (q : Query) (ha : q.addsFor c.engine = true)
    (steps : List Step) (hs : ∀ s ∈ steps, s.Arranges) (function : String) (columns : List String) :
    (∀ offset, (q.run steps).offsetFor (some c.engine) = .ok offset →
      c.output ((q.run steps).aggregate function columns) =
        c.output ((q.bare.offset offset).aggregate function columns)) ∧
    ((q.run steps).offsetFor (some c.engine) = .ok 0 →
      c.output ((q.run steps).aggregate function columns) =
        c.output (q.bare.aggregate function columns)) ∧
    ((q.run steps).offsetFor (some c.engine) ≠ .ok 0 →
      ∀ r s, c.compile ((q.run steps).aggregate function columns) = .ok r →
        c.compile (q.bare.aggregate function columns) = .ok s →
        r.bindings.length = s.bindings.length + 1) := by
  let arranged : Query := (q.run steps).aggregate function columns
  let whole : Query := q.bare.aggregate function columns
  have hrun : (q.run steps).bare = q.bare := Query.run_bare (fun s h => (hs s h).apply_bare) q
  have hbare : arranged.bare = whole := by
    show Statement.bare _ = _
    rw [Statement.bare_aggregate, hrun]
  have hwhole : whole.bare = whole := by
    show Statement.bare _ = _
    rw [Statement.bare_aggregate, Statement.bare_bare]
  have hsame : arranged.bare = whole.bare := hbare.trans hwhole.symm
  have hadds : arranged.addsFor c.engine = true := (Query.addsFor_of_bare hrun).trans ha
  have hoffset : arranged.offsetFor (some c.engine) = (q.run steps).offsetFor (some c.engine) :=
    Query.offsetFor_aggregate _ function columns _
  have hnone : whole.offsetFor (some c.engine) = .ok 0 :=
    (Query.offsetFor_aggregate _ function columns _).trans (q.offsetFor_bare _)
  refine ⟨fun offset ho => ?_, fun ho => ?_, fun ho r s hr hs => ?_⟩
  · let skipping : Query := (q.bare.offset offset).aggregate function columns
    have hskipping : skipping.bare = whole := by
      show Statement.bare _ = _
      rw [Statement.bare_aggregate, Statement.offset, Statement.bare_addOrReplace _ (by decide),
        Statement.bare_bare]
    have hfound : skipping.offsetFor (some c.engine) = .ok offset :=
      (Query.offsetFor_aggregate _ function columns _).trans (q.offsetFor_bare_offset ha offset)
    exact output_congr_of_bare (hbare.trans hskipping.symm) rfl hadds
      ((hoffset.trans ho).trans hfound.symm)
  · exact output_congr_of_bare hsame rfl hadds ((hoffset.trans ho).trans hnone.symm)
  · have hne : arranged.offsetFor (some c.engine) ≠ .ok 0 :=
      fun hzero => ho (hoffset.symm.trans hzero)
    exact length_bindings_compile hsame rfl hadds hne hnone hr hs

def pageSteps : List Step :=
  [.groupBy ["region"], .forEngine .sqlServer [.orderBy ["id"] true], .forPage 3 10]

theorem aggregate_keeps_offset_alone_page :
    (Query.table "orders").addsFor .sqlServer = true ∧ (∀ s ∈ pageSteps, s.Arranges) ∧
    ((Query.table "orders").run pageSteps).offsetFor (some .sqlServer) = .ok 20 ∧
    (ofEngine .sqlServer).output
        (((Query.table "orders").run pageSteps).aggregate "sum" ["total"]) =
      (ofEngine .sqlServer).output
        (((Query.table "orders").bare.offset 20).aggregate "sum" ["total"]) := by
  have harranges : ∀ s ∈ pageSteps, s.Arranges := by
    simp only [pageSteps, List.forall_mem_cons]
    refine ⟨.groupBy _, .forEngine _ ?_, .forPage _ _, by simp⟩
    simp only [List.forall_mem_cons]
    exact ⟨.orderBy _ _, by simp⟩
  have hoffset : ((Query.table "orders").run pageSteps).offsetFor (some .sqlServer) = .ok 20 := by
    rfl
  obtain ⟨hsame, -⟩ := aggregate_keeps_offset_alone (ofEngine .sqlServer) (Query.table "orders")
    (by decide) pageSteps harranges "sum" ["total"]
  exact ⟨by decide, harranges, hoffset, hsame 20 hoffset⟩

theorem count_passes_over :
    ((ofEngine .generic).output (((Query.table "t").run [.offset 10]).aggregate "count" ["*"])
      ).toOption.map (·.1) = some "SELECT COUNT(*) AS \"count\" FROM \"t\" OFFSET ?" ∧
    ((ofEngine .generic).output ((Query.table "t").bare.aggregate "count" ["*"])).toOption.map
      (·.1) = some "SELECT COUNT(*) AS \"count\" FROM \"t\"" ∧
    (ofEngine .generic).output (((Query.table "t").run [.offset 10]).aggregate "count" ["*"]) ≠
      (ofEngine .generic).output ((Query.table "t").bare.aggregate "count" ["*"]) := by
  have hrest : ((ofEngine .generic).output
      (((Query.table "t").run [.offset 10]).aggregate "count" ["*"])).toOption.map (·.1) =
        some "SELECT COUNT(*) AS \"count\" FROM \"t\" OFFSET ?" := by decide +kernel
  have hall : ((ofEngine .generic).output
      ((Query.table "t").bare.aggregate "count" ["*"])).toOption.map (·.1) =
        some "SELECT COUNT(*) AS \"count\" FROM \"t\"" := by decide +kernel
  refine ⟨hrest, hall, fun h => ?_⟩
  rw [h, hall] at hrest
  exact absurd (Option.some.inj hrest) (by decide)

end Compiler

end SqlDialects
