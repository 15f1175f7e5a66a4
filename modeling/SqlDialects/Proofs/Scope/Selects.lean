import SqlDialects.Proofs.Paging.Clauses
import SqlDialects.Proofs.Paging.Numbered
import SqlDialects.Proofs.Scope.Conditions

/-!
Selects and the same selects rewritten. Each part has the same text and the same bindings on both
sides, if what the clauses hold is read alike. Common table expressions are no part of a select, so
nothing is asked of them here.
-/

namespace SqlDialects

def Statement.Carried {σ : Type} (c : Compiler) (t : Tie) (ss ss' : Scopes) (r : σ → Rendering)
    (f : Value → Value) (g : Component → Place → σ → Rendering) (q : Statement σ) : Prop :=
  ∀ d ∈ q.clauses, d.component ≠ .cte → d.kind.Carried c t ss ss' r f (g d.component)

namespace Statement.Carried

variable {c : Compiler} {t : Tie} {ss ss' : Scopes} {σ : Type} {r : σ → Rendering}
  {f : Value → Value} {g : Component → Place → σ → Rendering} {q : Statement σ}

theorem add (hq : q.Carried c t ss ss' r f g) {component : Component} {kind : ClauseKind σ}
    (hk : kind.Carried c t ss ss' r f (g component)) :
    (q.add component kind).Carried c t ss ss' r f g := by
  intro d hd hc
  rcases List.mem_append.mp hd with hd | hd
  · exact hq d hd hc
  · obtain rfl := List.mem_singleton.mp hd
    exact hk

theorem clear (hq : q.Carried c t ss ss' r f g) (component : Component)
    (engine : Option Engine) : (q.clear component engine).Carried c t ss ss' r f g :=
  fun d hd => hq d (List.mem_of_mem_filter hd)

theorem select (hq : q.Carried c t ss ss' r f g) (names : List String) :
    (q.select names).Carried c t ss ss' r f g := by
  have hcolumns (columns : List String) (p : Statement σ) (hp : p.Carried c t ss ss' r f g) :
      (p.addColumns columns).Carried c t ss ss' r f g := by
    induction columns generalizing p with
    | nil => exact hp
    | cons name columns ih => exact ih _ (hp.add (.of_empty rfl rfl))
  exact hcolumns _ q hq

end Statement.Carried

namespace Tie.Plain

open Compiler

variable {t : Tie} (ht : t.Plain) {c : Compiler} {ss ss' : Scopes} {σ : Type} {r : σ → Rendering}
  {f : Value → Value}

section Clauses

variable {g : Place → σ → Rendering}

include ht

theorem column {x : Column σ} (hx : (ClauseKind.column x).Carried c t ss ss' r f g) :
    t.Emits Eq (c.column ss (x.map r)) (c.column ss' (x.map (g .select))) := by
  cases x with
  | named name => exact .pure rfl
  | raw sql bindings => exact ht.rawText c sql bindings
  | query q aliasName =>
    obtain ⟨hname, hselect⟩ := hx.parts (.select, q) (.head _)
    rw [Column.map, Column.map, Compiler.column, Compiler.column, hname]
    exact hselect.embed.andThen fun sub => .pure rfl

theorem tableExpression {s : Source σ}
    (hs : (ClauseKind.source s).Carried c t ss ss' r f g) :
    t.Emits Eq (c.tableExpression ss (s.map r)) (c.tableExpression ss' (s.map (g .select))) := by
  cases s with
  | table name => exact .pure rfl
  | raw sql bindings aliasName => exact ht.rawText c sql bindings
  | query q aliasName =>
    obtain ⟨hname, hselect⟩ := hs.parts (.select, q) (.head _)
    rw [Source.map, Source.map, Compiler.tableExpression, Compiler.tableExpression,
      Source.aliasBy, Source.aliasBy, hname]
    exact hselect.embed.andThen fun sub => .pure rfl

omit ht in
theorem join {j : Join σ} (hj : (ClauseKind.join j).Carried c t ss ss' r f g) :
    t.Emits Eq (Compiler.join ss (j.map r)) (Compiler.join ss' (j.map (g .joined))) := by
  have htarget : t.Emits Eq ((r j.target).joined ss) ((g .joined j.target).joined ss') :=
    hj.parts (.joined, j.target) (.head _)
  exact htarget.andThen fun text => .pure rfl

theorem combination {x : Combine σ} (hx : (ClauseKind.combine x).Carried c t ss ss' r f g) :
    t.Emits Eq (c.combination ss (x.map r)) (c.combination ss' (x.map (g .select))) := by
  cases x with
  | query operation all q =>
    exact (hx.parts (.select, q) (.head _)).2.embed.andThen fun sub => .pure rfl
  | raw sql bindings => exact ht.rawText c sql bindings

theorem orderTerm (c : Compiler) (o : Order) : t.Emits Eq (c.orderTerm o) (c.orderTerm o) := by
  cases o with
  | column name ascending => exact .pure rfl
  | raw sql bindings => exact ht.rawText c sql bindings
  | random seed => exact .pure rfl

end Clauses

variable {g : Component → Place → σ → Rendering} {vars : Variables} {q : Statement σ}
  {α β γ : Type} {component : Component}

section Lookup

variable {as? : ClauseKind σ → Option α} {bs? : ClauseKind Rendering → Option β}
  {ds? : ClauseKind Rendering → Option γ} {l : α → β} {m : α → γ} {wrap : α → ClauseKind σ}

include ht

variable (vars)

theorem getAll (hq : q.Carried c t ss ss' r f g) (hc : component ≠ .cte)
    (hl : ∀ k, bs? (k.map r) = (as? k).map l)
    (hm : ∀ k, ds? (k.rewrite f (g component)) = (as? k).map m)
    (hw : ∀ k x, as? k = some x → k = wrap x) (engine : Option Engine) :
    t.Yields (List.Forall₂
        (Both (ClauseKind.Carried c t ss ss' r f (g component)) wrap l m))
      ((q.map r).getAll component bs? engine)
      ((q.rewrite f g vars).getAll component ds? engine) := by
  rw [q.getAll_map component engine hl, q.getAll_rewrite engine hm]
  cases hx : q.getAll component as? engine with
  | error e => exact .error (ht.fault e (Statement.fixed_getAll hx))
  | ok xs =>
    refine .ok ?_
    rw [List.forall₂_map_left_iff, List.forall₂_map_right_iff, List.forall₂_same]
    intro x hxs
    obtain ⟨d, hd, hdx⟩ := Statement.mem_of_getAll hx hxs
    have hcarried := hq d (Statement.mem_bucket.mp hd).1
    rw [q.component_of_mem_bucket engine hd, hw _ _ hdx] at hcarried
    exact ⟨x, hcarried hc, rfl, rfl⟩

theorem getOne (hq : q.Carried c t ss ss' r f g) (hc : component ≠ .cte)
    (hl : ∀ k, bs? (k.map r) = (as? k).map l)
    (hm : ∀ k, ds? (k.rewrite f (g component)) = (as? k).map m)
    (hw : ∀ k x, as? k = some x → k = wrap x) (engine : Option Engine) :
    t.Yields (Option.Rel
        (Both (ClauseKind.Carried c t ss ss' r f (g component)) wrap l m))
      ((q.map r).getOne component bs? engine)
      ((q.rewrite f g vars).getOne component ds? engine) := by
  rw [q.getOne_map component engine hl, q.getOne_rewrite engine hm]
  cases hx : q.getOne component as? engine with
  | error e => exact .error (ht.fault e (Statement.fixed_getOne hx))
  | ok x =>
    refine .ok ?_
    cases x with
    | none => exact .none
    | some x =>
      obtain ⟨d, hd, hdx⟩ := Statement.getOne_eq_some.mp hx
      have hd := Statement.mem_of_choose hd
      have hcarried := hq d (Statement.mem_bucket.mp hd).1
      rw [q.component_of_mem_bucket engine hd, hw _ _ hdx] at hcarried
      exact .some ⟨x, hcarried hc, rfl, rfl⟩

end Lookup

theorem optional {R : β → γ → Prop} {x : Except Fault (List β)} {y : Except Fault (List γ)}
    (h : t.Yields (List.Forall₂ R) x y) {k : List β → Emit (Option String)}
    {k' : List γ → Emit (Option String)}
    (hk : ∀ xs ys, List.Forall₂ R xs ys → t.Emits Eq (k xs) (k' ys)) :
    t.Emits Eq
      (do
        let xs ← Emit.lift x
        if xs.isEmpty then pure none else k xs)
      (do
        let ys ← Emit.lift y
        if ys.isEmpty then pure none else k' ys) := by
  refine h.lift.bind fun xs ys hxy => ?_
  cases hxy with
  | nil => exact .pure rfl
  | cons hx hxs => exact hk _ _ (.cons hx hxs)

include ht

theorem basicColumns (hq : q.Carried c t ss ss' r f g) :
    t.Emits Eq (c.basicColumns ss (q.map r)) (c.basicColumns ss' (q.rewrite f g vars)) := by
  unfold Compiler.basicColumns
  rw [q.getOne_map _ _ (ClauseKind.aggregate?_map r),
    q.getOne_rewrite _ (ClauseKind.aggregate?_rewrite f _)]
  have haggregate : t.Yields Eq (q.getOne .aggregate ClauseKind.aggregate? (some c.engine))
      (q.getOne .aggregate ClauseKind.aggregate? (some c.engine)) :=
    ht.yields fun _ => Statement.fixed_getOne
  have hmapped := haggregate.map (f := Option.map id) (g := Option.map id) (Q := Eq)
    fun a b hab => congrArg _ hab
  refine hmapped.lift.andThen fun a => ?_
  cases a with
  | some a => exact .pure rfl
  | none =>
    have hcolumns := ht.getAll vars hq (by decide) (ClauseKind.column?_map r)
      (ClauseKind.column?_rewrite f (g .select)) ClauseKind.column?_eq_some (some c.engine)
    refine hcolumns.lift.bind fun xs ys hxs => ?_
    exact (texts hxs fun x hx => ht.column hx).andThen fun texts => .pure rfl

theorem columns (hq : q.Carried c t ss ss' r f g) :
    t.Emits Eq (c.columns ss (q.map r)) (c.columns ss' (q.rewrite f g vars)) := by
  have hbasic : t.Emits Eq (c.basicColumns ss (q.map r))
      (c.basicColumns ss' (q.rewrite f g vars)) := ht.basicColumns hq
  have hwindow : t.Yields Eq (q.window (some c.engine)) (q.window (some c.engine)) :=
    ht.yields fun _ => Statement.fixed_window
  unfold Compiler.columns
  rw [Statement.window_map, Statement.window_rewrite]
  generalize c.basicColumns ss (q.map r) = x at hbasic ⊢
  generalize c.basicColumns ss' (q.rewrite f g vars) = y at hbasic ⊢
  by_cases hold : c.engine = .sqlServer ∧ c.legacyPaging = true
  · rw [if_pos hold, if_pos hold]
    generalize q.window (some c.engine) = w at hwindow ⊢
    cases hbasic with
    | error he => exact .error he
    | spared he y => exact .spared he _
    | ok hb he =>
      subst he
      cases w with
      | error e =>
        cases hwindow with
        | error he => exact .error he
        | spared he y => exact .spared he _
      | ok w =>
        by_cases hw : w.limit ≠ 0 ∧ w.offset = 0
        · simp only [if_pos hw]
          exact .ok (.cons (ht.bound _) hb) rfl
        · simp only [if_neg hw]
          exact .ok hb rfl
  · rw [if_neg hold, if_neg hold]
    exact hbasic

theorem sourceFor (hq : q.Carried c t ss ss' r f g) (operation : Operation) :
    t.Yields (Both (ClauseKind.Carried c t ss ss' r f (g .source)) ClauseKind.source
        (Source.map r) (Source.map (g .source .select)))
      (c.sourceFor operation (q.map r)) (c.sourceFor operation (q.rewrite f g vars)) := by
  have hsource := ht.getOne vars hq (by decide) (ClauseKind.source?_map r)
    (ClauseKind.source?_rewrite f (g .source)) ClauseKind.source?_eq_some (some c.engine)
  refine hsource.bind fun s s' hx => ?_
  cases hx with
  | none => exact .error (ht.fault _ nofun)
  | some hx => exact .ok hx

theorem table (hq : q.Carried c t ss ss' r f g) :
    t.Emits Eq (c.table ss (q.map r)) (c.table ss' (q.rewrite f g vars)) := by
  refine (ht.sourceFor hq .select).lift.bind ?_
  rintro _ _ ⟨s, hs, rfl, rfl⟩
  exact (ht.tableExpression hs).andThen fun text => .pure rfl

theorem filterText (hq : q.Carried c t ss ss' r f g) :
    t.Emits Eq (c.filterText ss (q.map r)) (c.filterText ss' (q.rewrite f g vars)) := by
  have hfilter := ht.getAll vars hq (by decide) (ClauseKind.condition?_map r)
    (ClauseKind.condition?_rewrite f (g .filter)) ClauseKind.condition?_eq_some (some c.engine)
  exact hfilter.lift.bind fun xs ys hxs => ht.conditions hxs

theorem joinedTable (hq : q.Carried c t ss ss' r f g) :
    t.Emits Eq (c.joinedTable ss (q.map r)) (c.joinedTable ss' (q.rewrite f g vars)) := by
  have hfilter := ht.getAll vars hq (by decide) (ClauseKind.condition?_map r)
    (ClauseKind.condition?_rewrite f (g .filter)) ClauseKind.condition?_eq_some (some c.engine)
  refine (ht.sourceFor hq .join).lift.bind ?_
  rintro _ _ ⟨s, hs, rfl, rfl⟩
  refine hfilter.lift.bind fun xs ys hxs => ?_
  refine (ht.tableExpression hs).andThen fun text => ?_
  exact (ht.conditions hxs).andThen fun constraints => .pure rfl

theorem joins (hq : q.Carried c t ss ss' r f g) :
    t.Emits Eq (c.joins ss (q.map r)) (c.joins ss' (q.rewrite f g vars)) := by
  have hjoins := ht.getAll vars hq (by decide) (ClauseKind.join?_map r)
    (ClauseKind.join?_rewrite f (g .join)) ClauseKind.join?_eq_some (some c.engine)
  refine optional hjoins fun xs ys hxs => ?_
  exact (texts hxs fun j hj => join hj).andThen fun texts => .pure rfl

theorem wheres (hq : q.Carried c t ss ss' r f g) :
    t.Emits Eq (c.wheres ss (q.map r)) (c.wheres ss' (q.rewrite f g vars)) := by
  unfold Compiler.wheres
  rw [Statement.has_map, Statement.has_map, Statement.has_rewrite, Statement.has_rewrite]
  split
  · exact (ht.filterText hq).andThen fun sql => .pure rfl
  · exact .pure rfl

theorem groups (hq : q.Carried c t ss ss' r f g) :
    t.Emits Eq (c.groups ss (q.map r)) (c.groups ss' (q.rewrite f g vars)) := by
  have hgroups := ht.getAll vars hq (by decide) (ClauseKind.column?_map r)
    (ClauseKind.column?_rewrite f (g .group)) ClauseKind.column?_eq_some (some c.engine)
  refine optional hgroups fun xs ys hxs => ?_
  exact (texts hxs fun x hx => ht.column hx).andThen fun texts => .pure rfl

theorem having (hq : q.Carried c t ss ss' r f g) :
    t.Emits Eq (c.having ss (q.map r)) (c.having ss' (q.rewrite f g vars)) := by
  have hhaving := ht.getAll vars hq (by decide) (ClauseKind.condition?_map r)
    (ClauseKind.condition?_rewrite f (g .having)) ClauseKind.condition?_eq_some (some c.engine)
  refine optional hhaving fun xs ys hxs => ?_
  exact (ht.conditions hxs).andThen fun sql => .pure rfl

omit ht in
theorem orders_rewrite (c : Compiler) (q : Statement σ) :
    c.orders (q.rewrite f g vars) = c.orders (q.map r) := by
  rw [Compiler.orders, Compiler.orders, q.getAll_map _ _ (ClauseKind.order?_map r),
    q.getAll_rewrite _ (ClauseKind.order?_rewrite f _)]

theorem orders (c : Compiler) (q : Statement Rendering) :
    t.Emits Eq (c.orders q) (c.orders q) := by
  have horders : t.Yields Eq (q.getAll .order ClauseKind.order? (some c.engine))
      (q.getAll .order ClauseKind.order? (some c.engine)) :=
    ht.yields fun _ => Statement.fixed_getAll
  refine horders.lift.andThen fun os => ?_
  split
  · exact .pure rfl
  · have hterms : t.Emits Eq (os.mapM c.orderTerm) (os.mapM c.orderTerm) := by
      refine Emits.texts (P := Eq) (List.forall₂_eq_eq_eq ▸ rfl) ?_
      rintro o _ rfl
      exact ht.orderTerm c o
    exact hterms.andThen fun texts => .pure rfl

omit ht in
theorem page_rewrite (c : Compiler) (q : Statement σ) :
    c.page (q.rewrite f g vars) = c.page (q.map r) := by
  unfold Compiler.page basicPage
  simp only [Statement.window_map, Statement.window_rewrite, Statement.has_map,
    Statement.has_rewrite]

theorem page (c : Compiler) {τ : Type} (q : Statement τ) :
    t.Emits Eq (c.page q) (c.page q) := by
  have hok {x : Emit (Option String)} {bound : List Value} {part : Option String}
      (hx : x = ⟨bound, .ok part⟩) : t.Emits Eq x x := by
    rw [hx]
    exact .ok (List.forall₂_same.mpr fun v _ => ht.bound v) rfl
  by_cases hold : c.engine = .sqlServer ∧ c.legacyPaging = true
  · have hnone : c.page q = ⟨[], .ok none⟩ := by
      simp only [Compiler.page, hold.1, hold.2, if_true]
      rfl
    exact hok hnone
  · cases hw : q.window (some c.engine) with
    | ok w =>
      have hp := c.page_writes hw hold
      generalize c.page q = x at hp ⊢
      cases hp with
      | nothing hl ho => exact .pure rfl
      | clause hr hk => exact hok rfl
    | error e =>
      have hfault : c.page q = ⟨[], .error e⟩ := by
        have hbind {k : Window → Emit (Option String)} :
            Emit.lift (q.window (some c.engine)) >>= k = ⟨[], .error e⟩ := by
          rw [hw]
          rfl
        unfold Compiler.page
        cases he : c.engine with
        | sqlServer =>
          have hl : c.legacyPaging = false := by simpa [he] using hold
          simp only [← he, hbind, hl]
          rfl
        | mySql => simp only [← he, hbind]
        | sqlite => simp only [← he, hbind]
        | _ => simp only [basicPage, hbind]
      rw [hfault]
      exact .error (ht.fault e (Statement.fixed_window hw))

theorem combinations (hq : q.Carried c t ss ss' r f g) :
    t.Emits Eq (c.combinations ss (q.map r)) (c.combinations ss' (q.rewrite f g vars)) := by
  have hcombine := ht.getAll vars hq (by decide) (ClauseKind.combine?_map r)
    (ClauseKind.combine?_rewrite f (g .combine)) ClauseKind.combine?_eq_some (some c.engine)
  refine optional hcombine fun xs ys hxs => ?_
  exact (texts hxs fun x hx => ht.combination hx).andThen fun texts => .pure rfl

theorem selectText (hq : q.Carried c t ss ss' r f g) :
    t.Emits Eq (c.selectText ss (q.map r)) (c.selectText ss' (q.rewrite f g vars)) := by
  refine (ht.columns hq).andThen fun columns => ?_
  refine (ht.table hq).andThen fun table => ?_
  refine (ht.joins hq).andThen fun joins => ?_
  refine (ht.wheres hq).andThen fun wheres => ?_
  refine (ht.groups hq).andThen fun groups => ?_
  refine (ht.having hq).andThen fun having => ?_
  rw [orders_rewrite (r := r), page_rewrite (r := r)]
  refine (ht.orders c (q.map r)).andThen fun orders => ?_
  refine (ht.page c (q.map r)).andThen fun page => ?_
  exact (ht.combinations hq).andThen fun combinations => .pure rfl

theorem basicSelect (hq : q.Carried c t (q.vars :: ss) (vars :: ss') r f g) :
    t.Yields t.Fragments (c.basicSelect (q.map r) ss) (c.basicSelect (q.rewrite f g vars) ss') :=
  (ht.selectText hq).toFragment

theorem numberedSelect (hq : q.Carried c t (q.vars :: ss) (vars :: ss') r f g) :
    t.Yields t.Fragments (c.numberedSelect (q.map r) ss)
      (c.numberedSelect (q.rewrite f g vars) ss') := by
  have hmap : (if (q.map r).has .select (some c.engine) then q.map r
      else (q.map r).select ["*"]) = (q.starred c.engine).map r := by
    rw [Statement.starred, Statement.has_map]
    split
    · rfl
    · exact (q.map_select r ["*"]).symm
  have hrewrite : (if (q.rewrite f g vars).has .select (some c.engine) then q.rewrite f g vars
      else (q.rewrite f g vars).select ["*"]) = (q.starred c.engine).rewrite f g vars := by
    rw [Statement.starred, Statement.has_rewrite]
    split
    · rfl
    · exact (q.rewrite_select f g vars ["*"]).symm
  have hstarred : (q.starred c.engine).Carried c t (q.vars :: ss) (vars :: ss') r f g := by
    unfold Statement.starred
    split
    · exact hq
    · exact hq.select ["*"]
  have hinner (order : Fragment) : t.Yields t.Fragments
      (c.basicSelect (numberRows ((q.starred c.engine).map r) order) ss)
      (c.basicSelect (numberRows ((q.starred c.engine).rewrite f g vars) order) ss') := by
    have hnumbered : (numberRows (q.starred c.engine) order).Carried c t (q.vars :: ss)
        (vars :: ss') r f g := (hstarred.add (.of_empty rfl rfl)).clear .order none
    rw [← q.vars_numberRows c.engine order] at hnumbered
    rw [← Statement.map_numberRows, ← Statement.rewrite_numberRows]
    exact ht.basicSelect hnumbered
  have horders := ht.orders c ((q.starred c.engine).map r)
  unfold Compiler.numberedSelect
  rw [Statement.window_map, Statement.window_rewrite]
  refine (ht.yields fun _ => Statement.fixed_window).andThen fun w => ?_
  dsimp only
  rw [hmap, hrewrite, orders_rewrite (r := r)]
  generalize c.orders ((q.starred c.engine).map r) = x at horders ⊢
  cases horders with
  | error he => exact .error he
  | spared he y => exact .spared he _
  | @ok bound _ text =>
    refine (hinner ⟨text.getD anyOrder, bound⟩).bind fun a b hab => ?_
    rw [hab.1]
    split
    · exact .ok ⟨rfl, List.rel_append hab.2 (.cons (ht.bound _) .nil)⟩
    · exact .ok ⟨rfl, List.rel_append hab.2 (.cons (ht.bound _) (.cons (ht.bound _) .nil))⟩

theorem select (hq : q.Carried c t (q.vars :: ss) (vars :: ss') r f g) :
    t.Yields t.Fragments (c.select (q.map r) ss) (c.select (q.rewrite f g vars) ss') := by
  unfold Compiler.select
  rw [Statement.offsetFor_map, Statement.offsetFor_rewrite]
  split
  · refine (ht.yields fun _ => Statement.fixed_offsetFor).andThen fun offset => ?_
    split
    · exact ht.basicSelect hq
    · exact ht.numberedSelect hq
  · exact ht.basicSelect hq

end Tie.Plain

end SqlDialects
