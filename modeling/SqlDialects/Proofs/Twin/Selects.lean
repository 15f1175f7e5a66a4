import SqlDialects.Proofs.Statement.Nested
import SqlDialects.Proofs.Twin.Conditions
import SqlDialects.Render.Select

/-!
Selects of statements that are alike. Each part has the same text on both sides and binds what
corresponds, so that the selects of nested statements correspond at any depth.
-/

namespace SqlDialects

namespace Window

theorem basic_numbers (w : Window) : ∀ v ∈ w.basic.bound, ∃ n, v = .uint n := by
  intro v hv
  unfold basic at hv
  split at hv
  · split at hv
    · cases hv
    · exact ⟨w.offset, List.mem_singleton.mp hv⟩
  · split at hv
    · exact ⟨w.limit, List.mem_singleton.mp hv⟩
    · rcases List.mem_cons.mp hv with rfl | hv
      · exact ⟨w.limit, rfl⟩
      · exact ⟨w.offset, List.mem_singleton.mp hv⟩

theorem withLimit_numbers (all : String) (w : Window) :
    ∀ v ∈ (w.withLimit all).bound, ∃ n, v = .uint n := by
  intro v hv
  unfold withLimit at hv
  split at hv
  · exact ⟨w.offset, List.mem_singleton.mp hv⟩
  · exact w.basic_numbers v hv

theorem fetch_numbers (ordered : Bool) (w : Window) :
    ∀ v ∈ (w.fetch ordered).bound, ∃ n, v = .uint n := by
  intro v hv
  unfold fetch at hv
  dsimp only at hv
  split at hv
  · cases hv
  · split at hv
    · exact ⟨w.offset, List.mem_singleton.mp hv⟩
    · rcases List.mem_cons.mp hv with rfl | hv
      · exact ⟨w.offset, rfl⟩
      · exact ⟨w.limit, List.mem_singleton.mp hv⟩

end Window

namespace Tie.Holds

open Compiler

variable {t : Tie} {c d : Compiler} (h : t.Holds c d) {ss ss' : Scopes} (hs : t.scopes ss ss')
  {p q : Statement Rendering} (hp : p.Alike t d.engine (Rendering.Alike t) q)

include h

theorem dialect : c.dialect = d.dialect := congrArg Engine.dialect h.engine

omit h in
theorem aliasBy {s s' : Source Rendering} (hx : s.Alike t (Rendering.Alike t) s') :
    s.aliasBy Rendering.aliasName = s'.aliasBy Rendering.aliasName := by
  cases hx with
  | table name => rfl
  | raw sql h aliasName => rfl
  | query h aliasName => rw [Source.aliasBy, Source.aliasBy, h.aliasName]

include hs in
theorem column {x y : Column Rendering} (hx : x.Alike t (Rendering.Alike t) y) :
    t.Emits Eq (c.column ss x) (d.column ss' y) := by
  cases hx with
  | named name =>
    rw [Compiler.column, Compiler.column, h.engine]
    exact .pure rfl
  | raw sql hb => exact h.rawText sql hb
  | query hq aliasName =>
    rw [Compiler.column, Compiler.column, h.engine, h.dialect, hq.aliasName]
    refine (hq.select hs).embed.andThen fun sub => ?_
    exact .pure rfl

theorem aggregateCall (distinct : Bool) (a : Aggregate) :
    c.aggregateCall distinct a = d.aggregateCall distinct a := by
  unfold Compiler.aggregateCall
  rw [h.engine, h.dialect]

include hs hp

theorem basicColumns : t.Emits Eq (c.basicColumns ss p) (d.basicColumns ss' q) := by
  unfold Compiler.basicColumns
  rw [h.engine, hp.distinct]
  have haggregate := Statement.Alike.getOne h.fault hp ClauseKind.Alike.aggregate? .aggregate
  refine haggregate.lift.bind fun a b hab => ?_
  cases hab with
  | some he =>
    subst he
    exact .pure (h.aggregateCall q.distinct _)
  | none =>
    have hcolumns := Statement.Alike.getAll h.fault hp ClauseKind.Alike.column? .select
    refine hcolumns.lift.bind fun xs ys hxy => ?_
    refine (Emits.texts hxy fun x y hx => h.column hs hx).andThen fun texts => ?_
    exact .pure rfl

theorem columns : t.Emits Eq (c.columns ss p) (d.columns ss' q) := by
  have hbasic := h.basicColumns hs hp
  have hwindow := Statement.Alike.window h.fault hp
  unfold Compiler.columns
  rw [h.engine, h.paging]
  by_cases hold : d.engine = .sqlServer ∧ d.legacyPaging = true
  · simp only [hold.1, hold.2, and_self, if_true]
    rw [hold.1] at hwindow
    generalize c.basicColumns ss p = x at hbasic ⊢
    generalize d.basicColumns ss' q = y at hbasic ⊢
    generalize p.window (some .sqlServer) = w at hwindow ⊢
    generalize q.window (some .sqlServer) = w' at hwindow ⊢
    cases hbasic with
    | error he => exact .error he
    | spared he y => exact .spared he _
    | ok hb he =>
      subst he
      cases hwindow with
      | error he => exact .error he
      | spared he y => exact .spared he _
      | @ok w _ he =>
        subst he
        by_cases hw : w.limit ≠ 0 ∧ w.offset = 0
        · simp only [if_pos hw]
          exact .ok (.cons (h.uint w.limit) hb) rfl
        · simp only [if_neg hw]
          exact .ok hb rfl
  · rw [if_neg hold, if_neg hold]
    exact hbasic

omit hp in
theorem tableExpression {s s' : Source Rendering} (hx : s.Alike t (Rendering.Alike t) s') :
    t.Emits Eq (c.tableExpression ss s) (d.tableExpression ss' s') := by
  have hname := aliasBy hx
  cases hx with
  | table name =>
    rw [Compiler.tableExpression, Compiler.tableExpression, h.engine]
    exact .pure rfl
  | raw sql hb aliasName => exact h.rawText sql hb
  | query hq aliasName =>
    rw [Compiler.tableExpression, Compiler.tableExpression, hname, h.engine, h.dialect]
    refine (hq.select hs).embed.andThen fun sub => ?_
    exact .pure rfl

omit hs in
theorem sourceFor (operation : Operation) :
    t.Yields (Source.Alike t (Rendering.Alike t)) (c.sourceFor operation p)
      (d.sourceFor operation q) := by
  unfold Compiler.sourceFor
  rw [h.engine]
  have hsource := Statement.Alike.getOne h.fault hp ClauseKind.Alike.source? .source
  refine hsource.bind fun s s' hx => ?_
  cases hx with
  | none => exact .error (h.fault _)
  | some hx => exact .ok hx

theorem table : t.Emits Eq (c.table ss p) (d.table ss' q) := by
  refine (h.sourceFor hp .select).lift.bind fun s s' hx => ?_
  refine (h.tableExpression hs hx).andThen fun text => ?_
  exact .pure rfl

theorem filterText : t.Emits Eq (c.filterText ss p) (d.filterText ss' q) := by
  unfold Compiler.filterText
  rw [h.engine]
  have hfilter := Statement.Alike.getAll h.fault hp ClauseKind.Alike.condition? .filter
  exact hfilter.lift.bind fun xs ys hxy => h.conditions hs hxy

theorem joinedTable : t.Emits Eq (c.joinedTable ss p) (d.joinedTable ss' q) := by
  unfold Compiler.joinedTable
  rw [h.engine]
  have hfilter := Statement.Alike.getAll h.fault hp ClauseKind.Alike.condition? .filter
  refine (h.sourceFor hp .join).lift.bind fun s s' hx => ?_
  refine hfilter.lift.bind fun xs ys hxy => ?_
  refine (h.tableExpression hs hx).andThen fun text => ?_
  refine (h.conditions hs hxy).andThen fun constraints => ?_
  exact .pure rfl

omit hs in
theorem optional {α : Type} {A : α → α → Prop} {as? : ClauseKind Rendering → Option α}
    (hA : ∀ {k l}, ClauseKind.Alike t (Rendering.Alike t) k l → Option.Rel A (as? k) (as? l))
    (component : Component) {f g : List α → Emit (Option String)}
    (hf : ∀ xs ys, List.Forall₂ A xs ys → t.Emits Eq (f xs) (g ys)) :
    t.Emits Eq
      (do
        let xs ← Emit.lift (p.getAll component as? (some d.engine))
        if xs.isEmpty then pure none else f xs)
      (do
        let ys ← Emit.lift (q.getAll component as? (some d.engine))
        if ys.isEmpty then pure none else g ys) := by
  have hall := Statement.Alike.getAll h.fault hp hA component
  refine hall.lift.bind fun xs ys hxy => ?_
  cases hxy with
  | nil => exact .pure rfl
  | cons hx hxs => exact hf _ _ (.cons hx hxs)

theorem joins : t.Emits Eq (c.joins ss p) (d.joins ss' q) := by
  have hjoin (x y : Join Rendering) (hx : x.Alike (Rendering.Alike t) y) :
      t.Emits Eq (Compiler.join ss x) (Compiler.join ss' y) := by
    obtain ⟨kind, hq⟩ := hx
    exact (hq.joined hs).andThen fun text => .pure rfl
  unfold Compiler.joins
  rw [h.engine]
  refine h.optional hp ClauseKind.Alike.join? .join fun xs ys hxy => ?_
  exact (Emits.texts hxy hjoin).andThen fun texts => .pure rfl

theorem wheres : t.Emits Eq (c.wheres ss p) (d.wheres ss' q) := by
  unfold Compiler.wheres
  rw [h.engine, hp.has, hp.has]
  split
  · refine (h.filterText hs hp).andThen fun sql => ?_
    exact .pure rfl
  · exact .pure rfl

theorem groups : t.Emits Eq (c.groups ss p) (d.groups ss' q) := by
  unfold Compiler.groups
  rw [h.engine]
  refine h.optional hp ClauseKind.Alike.column? .group fun xs ys hxy => ?_
  exact (Emits.texts hxy fun x y hx => h.column hs hx).andThen fun texts => .pure rfl

theorem having : t.Emits Eq (c.having ss p) (d.having ss' q) := by
  unfold Compiler.having
  rw [h.engine]
  refine h.optional hp ClauseKind.Alike.condition? .having fun xs ys hxy => ?_
  exact (h.conditions hs hxy).andThen fun sql => .pure rfl

omit hs

theorem orders : t.Emits Eq (c.orders p) (d.orders q) := by
  have hterm (x y : Order) (hx : x.Alike t y) : t.Emits Eq (c.orderTerm x) (d.orderTerm y) := by
    cases hx with
    | column name ascending =>
      rw [orderTerm, orderTerm, h.engine]
      exact .pure rfl
    | raw sql hb => exact h.rawText sql hb
    | random seed =>
      rw [orderTerm, orderTerm, h.engine]
      exact .pure rfl
  unfold Compiler.orders
  rw [h.engine]
  refine h.optional hp ClauseKind.Alike.order? .order fun xs ys hxy => ?_
  exact (Emits.texts hxy hterm).andThen fun texts => .pure rfl

theorem page : t.Emits Eq (c.page p) (d.page q) := by
  unfold Compiler.page basicPage
  rw [h.engine, h.paging, hp.has]
  have hwindow := Statement.Alike.window h.fault hp
  have hpage {f : Window → Emit (Option String)} (hf : ∀ w, ∀ v ∈ (f w).bound, ∃ n, v = .uint n) :
      t.Emits Eq (Emit.lift (p.window (some d.engine)) >>= f)
        (Emit.lift (q.window (some d.engine)) >>= f) := by
    refine hwindow.lift.andThen fun w => ?_
    refine Emits.refl h.fault fun v hv => ?_
    obtain ⟨n, rfl⟩ := hf w v hv
    exact h.uint n
  generalize d.engine = e at hpage ⊢
  cases e with
  | mySql => exact hpage (Window.withLimit_numbers _)
  | sqlite => exact hpage (Window.withLimit_numbers _)
  | sqlServer =>
    dsimp only
    split
    · exact .pure rfl
    · exact hpage (Window.fetch_numbers _)
  | generic => exact hpage Window.basic_numbers
  | firebird => exact hpage Window.basic_numbers
  | postgres => exact hpage Window.basic_numbers

include hs

theorem combinations : t.Emits Eq (c.combinations ss p) (d.combinations ss' q) := by
  have hone (x y : Combine Rendering) (hx : x.Alike t (Rendering.Alike t) y) :
      t.Emits Eq (c.combination ss x) (d.combination ss' y) := by
    cases hx with
    | query operation all hq => exact (hq.select hs).embed.andThen fun sub => .pure rfl
    | raw sql hb => exact h.rawText sql hb
  unfold Compiler.combinations
  rw [h.engine]
  refine h.optional hp ClauseKind.Alike.combine? .combine fun xs ys hxy => ?_
  exact (Emits.texts hxy hone).andThen fun texts => .pure rfl

theorem selectText : t.Emits Eq (c.selectText ss p) (d.selectText ss' q) := by
  refine (h.columns hs hp).andThen fun columns => ?_
  refine (h.table hs hp).andThen fun table => ?_
  refine (h.joins hs hp).andThen fun joins => ?_
  refine (h.wheres hs hp).andThen fun wheres => ?_
  refine (h.groups hs hp).andThen fun groups => ?_
  refine (h.having hs hp).andThen fun having => ?_
  refine (h.orders hp).andThen fun orders => ?_
  refine (h.page hp).andThen fun page => ?_
  refine (h.combinations hs hp).andThen fun combinations => ?_
  exact .pure rfl

theorem basicSelect : t.Yields t.Fragments (c.basicSelect p ss) (d.basicSelect q ss') :=
  (h.selectText (h.push hp.vars hs) hp).toFragment

omit h hs in
theorem numberRows {f g : Fragment} (hf : t.Fragments f g) :
    (Compiler.numberRows p f).Alike t d.engine (Rendering.Alike t) (Compiler.numberRows q g) := by
  unfold Compiler.numberRows Statement.addColumn
  rw [hf.1]
  exact (hp.add .select (.column (.raw _ hf.2))).clear .order none

theorem numberedSelect :
    t.Yields t.Fragments (c.numberedSelect p ss) (d.numberedSelect q ss') := by
  unfold Compiler.numberedSelect
  rw [h.engine, hp.has]
  refine (Statement.Alike.window h.fault hp).andThen fun w => ?_
  have hall : (if q.has .select (some d.engine) then p else p.select ["*"]).Alike t d.engine
      (Rendering.Alike t) (if q.has .select (some d.engine) then q else q.select ["*"]) := by
    split
    · exact hp
    · exact hp.select ["*"]
  revert hall
  generalize (if q.has .select (some d.engine) then p else p.select ["*"]) = p'
  generalize (if q.has .select (some d.engine) then q else q.select ["*"]) = q'
  intro hall
  have horders := h.orders hall
  dsimp only
  generalize c.orders p' = x at horders ⊢
  generalize d.orders q' = y at horders ⊢
  cases horders with
  | error he => exact .error he
  | spared he y => exact .spared he _
  | @ok bs cs text _ hb he =>
    subst he
    have hnumbered := numberRows hall
      (show t.Fragments ⟨text.getD anyOrder, bs⟩ ⟨text.getD anyOrder, cs⟩ from ⟨rfl, hb⟩)
    refine (h.basicSelect hs hnumbered).bind fun f g hfg => ?_
    rw [hfg.1]
    split
    · exact .ok ⟨rfl, List.rel_append hfg.2 (.cons (h.uint _) .nil)⟩
    · exact .ok ⟨rfl, List.rel_append hfg.2 (.cons (h.uint _) (.cons (h.uint _) .nil))⟩

theorem select : t.Yields t.Fragments (c.select p ss) (d.select q ss') := by
  unfold Compiler.select
  rw [h.engine, h.paging]
  split
  · refine (Statement.Alike.offsetFor h.fault hp).andThen fun offset => ?_
    split
    · exact h.basicSelect hs hp
    · exact h.numberedSelect hs hp
  · exact h.basicSelect hs hp

end Tie.Holds

theorem Tie.Holds.rendering {t : Tie} {c d : Compiler} (h : t.Holds c d) (m : Subquery) :
    ∀ n, Subquery.Alike t d.engine m n → Rendering.Alike t (c.rendering m) (d.rendering n) := by
  induction m using Subquery.induction with
  | _ p ih =>
    intro n hn
    obtain ⟨hp⟩ := hn
    have hprepared := hp.map (f := c.rendering) (g := d.rendering) ih
    rw [Compiler.rendering_of, Compiler.rendering_of]
    constructor
    · exact hp.aliasName
    · intro ss ss' hs
      exact h.select hs hprepared
    · intro ss ss' hs
      exact h.filterText hs hprepared
    · intro ss ss' hs
      exact h.joinedTable hs hprepared

theorem Tie.Holds.prepare {t : Tie} {c d : Compiler} (h : t.Holds c d) {p q : Query}
    (hp : p.Alike t d.engine (Subquery.Alike t d.engine) q) :
    (c.prepare p).Alike t d.engine (Rendering.Alike t) (d.prepare q) :=
  hp.map fun m _ => h.rendering m

end SqlDialects
