import SqlDialects.Proofs.Aggregate.Over
import SqlDialects.Proofs.Engines.Selects
import SqlDialects.Proofs.Placeholder.Rows

/-!
Inserts, updates, deletes and aggregates that leave nothing to what an engine does in its own way.
The select that computes an aggregate is made alike for every engine; its page has no limit, so it
may have no offset either.
-/

namespace SqlDialects

open Text

variable {σ : Type} {e : Engine}

section Building

variable {q : Statement σ} {f g : σ → Rendering}

theorem ClauseKind.shared_column {name : String} (hn : e.Neutral name.toList) :
    (ClauseKind.column (.named name)).Shared e f g :=
  ⟨rfl, hn, nofun⟩

theorem ClauseKind.shared_isNull {name : String} (hn : e.Neutral name.toList) (isOr isNot : Bool) :
    (ClauseKind.condition ⟨.isNull name, isOr, isNot⟩).Shared e f g :=
  ⟨rfl, hn, nofun⟩

namespace Statement

theorem Shared.clear (h : q.Shared e f g) (component : Component) (engine : Option Engine) :
    (q.clear component engine).Shared e f g :=
  ⟨fun d hd => h.unscoped d (List.mem_of_mem_filter hd),
    fun d hd => h.kinds d (List.mem_of_mem_filter hd)⟩

theorem Shared.add (h : q.Shared e f g) (hs : q.scope = none) (component : Component)
    {kind : ClauseKind σ} (hk : kind.Shared e f g) : (q.add component kind).Shared e f g := by
  constructor
  · intro d hd
    rcases List.mem_append.mp hd with hd | hd
    · exact h.unscoped d hd
    · exact List.mem_singleton.mp hd ▸ hs
  · intro d hd
    rcases List.mem_append.mp hd with hd | hd
    · exact h.kinds d hd
    · exact List.mem_singleton.mp hd ▸ hk

theorem Shared.addColumns (h : q.Shared e f g) (hs : q.scope = none) {names : List String}
    (hn : ∀ name ∈ names, e.Neutral name.toList) : (q.addColumns names).Shared e f g := by
  induction names generalizing q with
  | nil => exact h
  | cons name names ih =>
    have hcolumn := ClauseKind.shared_column (f := f) (g := g) (hn name List.mem_cons_self)
    have hadd : (q.addColumn (.named name)).Shared e f g := h.add hs .select hcolumn
    exact ih hadd hs fun name hm => hn name (List.mem_cons_of_mem _ hm)

theorem Unscoped.clear (h : q.Unscoped) (component : Component) :
    q.clear component (some e) = q.clear component none := by
  refine congrArg (fun clauses => { q with clauses }) (List.filter_congr fun d hd => ?_)
  simp [Clause.visible, h d hd]

end Statement

end Building

namespace Query

/-- No select has an offset without a limit. An aggregate, which drops its limit, has no offset. -/
structure Limited (q : Query) : Prop where
  select : q.method = .select → q.Paged
  aggregate : q.method = .aggregate → ∀ n, q.offsetFor none = .ok n → n = 0
  nested : ∀ component n, q.Nests component .select n → n.Paged

variable {q : Query} {f g : Subquery → Rendering}

theorem paged_of_bucket {p : Query} (hb : p.bucket .offset none = q.bucket .offset none)
    (h : ∀ n, q.offsetFor none = .ok n → n = 0) : p.Paged := by
  intro w hw _
  have hoffset := (Statement.window_eq_ok hw).2
  rw [Statement.offsetFor, Statement.getOne_congr hb] at hoffset
  exact h _ hoffset

theorem shared_unpaged (h : q.Shared e f g) : Statement.Shared e f g q.unpaged :=
  ((h.clear .limit none).clear .order none).clear .group none

theorem shared_nullTests {columns : List String} (hn : ∀ name ∈ columns, e.Neutral name.toList)
    (h : q.Shared e f g) (hs : q.scope = none) : Statement.Shared e f g (columns.foldl
      (fun q name => q.notNext.addCondition .filter (.isNull name)) q) := by
  induction columns generalizing q with
  | nil => exact h
  | cons name columns ih =>
    have hname := hn name List.mem_cons_self
    have htest := ClauseKind.shared_isNull (f := f) (g := g) hname q.pendingOr !q.pendingNot
    have hadd := h.add hs .filter htest
    exact ih (fun name hm => hn name (List.mem_cons_of_mem _ hm))
      ⟨hadd.unscoped, hadd.kinds⟩ hs

theorem shared_counted (he : e ∈ Engine.kin) {columns : List String}
    (hn : ∀ name ∈ columns, e.Neutral name.toList) (h : q.Shared e f g) (hs : q.scope = none)
    (d : Engine) : Statement.Shared e f g (q.counted d columns) := by
  have hbraces (name : String) (hname : e.Neutral name.toList) :
      ∀ column ∈ expandBraces name, e.Neutral column.toList := by
    have hdot : ∀ e ∈ Engine.kin, e.dialect.opening ≠ '.' := by decide
    intro column hc
    refine hname.imp_right fun ⟨hq, ho⟩ => ⟨fun hm => ?_, fun hm => ?_⟩
    · exact (mem_of_mem_expandBraces hc hm).elim (by decide) hq
    · exact (mem_of_mem_expandBraces hc hm).elim (hdot e he) ho
  have hclear := h.clear .aggregate (some d)
  have hinner : Statement.Shared e f g
      { q.clear .aggregate (some d) with method := .select } := ⟨hclear.unscoped, hclear.kinds⟩
  have hscope : Statement.scope { q.clear .aggregate (some d) with method := .select } = none := hs
  unfold counted
  generalize { q.clear .aggregate (some d) with method := .select } = inner at hinner hscope ⊢
  dsimp only
  split
  · refine (hinner.clear .select (some d)).addColumns hscope fun column hc => ?_
    obtain ⟨name, hm, hc⟩ := List.mem_flatMap.mp hc
    exact hbraces name (hn name hm) column hc
  · exact shared_nullTests hn hinner hscope

theorem counted_of_unscoped (h : q.Unscoped) (d : Engine) (columns : List String) :
    q.counted d columns = q.counted .generic columns := by
  have hinner : Statement.Unscoped { q.clear .aggregate none with method := .select } :=
    fun c hc => h c (List.mem_of_mem_filter hc)
  unfold counted
  rw [h.clear, h.clear]
  dsimp only
  rw [hinner.clear, hinner.clear]

end Query

namespace Compiler

variable {c : Compiler} (he : e ∈ Engine.kin) {f g : σ → Rendering} (ss : Scopes)

section Parts

theorem mirrors_row (columns : List String) {values : List Value}
    (hv : ∀ v ∈ values, (Terms.neutral e).value v) :
    ((c.on .generic).row ss columns values).Mirrors e.requote
      ((c.on e).row ss columns values) := by
  refine Emit.mirrors_lift fun _ _ => ?_
  refine (mirrors_parameters ss hv).bind fun markers => Emit.mirrors_pure ?_
  simp +decide [Engine.requote_append, Engine.requote_unquoted]

theorem mirrors_nextRow {i : Insert σ} (hi : (ClauseKind.insert i).Shared e f g) :
    ((c.on .generic).nextRow ss (i.map f)).Mirrors e.requote ((c.on e).nextRow ss (i.map g)) := by
  cases i with
  | values columns values returnId => exact mirrors_row ss columns hi.terms.2
  | query columns q => rfl

include he

theorem columnList_requote {columns : List String} (hn : ∀ name ∈ columns, e.Neutral name.toList) :
    (c.on e).columnList columns = e.requote ((c.on .generic).columnList columns) := by
  rw [columnList, columnList, Engine.requote_intercalate (by decide), List.map_map]
  exact congrArg _ (List.map_congr_left fun name hm => Engine.wrap_requote he (hn name hm))

theorem mirrors_firstRows (table : String) {i : Insert σ}
    (hi : (ClauseKind.insert i).Shared e f g) :
    ((c.on .generic).firstRows ss table (i.map f)).Mirrors e.requote
      ((c.on e).firstRows ss (e.requote table) (i.map g)) := by
  obtain ⟨-, hterms, hparts⟩ := hi
  cases i with
  | values columns values returnId =>
    refine (mirrors_row ss columns hterms.2).bind fun text => Emit.mirrors_pure ?_
    rw [columnList_requote he hterms.1]
    simp +decide [Engine.requote_append, Engine.requote_unquoted]
  | query columns q =>
    refine (Emit.mirrors_embed ((hparts _ (.head _)).select rfl ss)).bind fun sub => ?_
    refine Emit.mirrors_pure ?_
    rw [columnList_requote he hterms.1]
    split <;> simp +decide [Engine.requote_append, Engine.requote_unquoted]

theorem mirrors_assignment {column : String} {v : Value} (hn : e.Neutral column.toList)
    (hv : (Terms.neutral e).value v) :
    ((c.on .generic).assignment ss column v).Mirrors e.requote
      ((c.on e).assignment ss column v) := by
  refine (mirrors_parameter ss hv).bind fun marker => Emit.mirrors_pure ?_
  rw [wrap_on he hn]
  simp +decide [Engine.requote_append, Engine.requote_unquoted]

end Parts

section Writes

variable {q : Statement σ} (hq : q.Shared e f g)

include he hq

theorem mirrors_target (operation : Operation) :
    ((c.on .generic).target operation (q.map f)).Mirrors e.requote
      ((c.on e).target operation (q.map g)) := by
  refine mirrors_sourceFor hq operation fun s hs => ?_
  cases s with
  | table name => exact Emit.mirrors_pure (Engine.wrap_requote he hs.terms)
  | raw sql bindings aliasName => exact mirrors_rawText he hs.terms.1 bindings
  | query n aliasName => rfl

theorem mirrors_whereSuffix :
    ((c.on .generic).whereSuffix ss (q.map f)).Mirrors e.requote
      ((c.on e).whereSuffix ss (q.map g)) := by
  refine (mirrors_wheres he ss hq).bind fun part => ?_
  cases part with
  | none => exact Emit.mirrors_pure rfl
  | some sql =>
    refine Emit.mirrors_pure ?_
    simp +decide [Engine.requote_append, Engine.requote_unquoted]

theorem mirrors_insertText :
    ((c.on .generic).insertText ss (q.map f)).Mirrors e.requote
      ((c.on e).insertText ss (q.map g)) := by
  refine (mirrors_target he hq .insert).bind fun table => ?_
  refine mirrors_getAll hq ClauseKind.insert?_map ClauseKind.insert?_eq_some fun is hi => ?_
  cases is with
  | nil => rfl
  | cons first rest =>
    have hfirst := hi first List.mem_cons_self
    have hid {h : σ → Rendering} : wantsId (first.map h) = false := by
      rw [wantsId_map]
      cases first with
      | values columns values returnId =>
        show returnId = false
        simpa [Engine.shares] using hfirst.shares
      | query columns n => rfl
    refine (mirrors_firstRows he ss table hfirst).bind fun head => ?_
    rw [List.mapM_map, List.mapM_map]
    have hrest := fun i hm => mirrors_nextRow (c := c) ss (hi i (List.mem_cons_of_mem _ hm))
    refine (Emit.Mirrors.mapM hrest).bind fun rows => Emit.mirrors_pure ?_
    rw [hid, hid, Bool.false_and, Bool.false_and]
    exact (Engine.requote_intercalate (by decide) (head :: rows)).symm

theorem mirrors_updateText (component : Component) :
    ((c.on .generic).updateText ss component (q.map f)).Mirrors e.requote
      ((c.on e).updateText ss component (q.map g)) := by
  have hfound (d : Engine) (h : σ → Rendering) : (c.on d).assignments component (q.map h) =
      (c.on .generic).assignments component q := by
    rw [assignments_map, assignments, assignments, hq.unscoped.getOne, hq.unscoped.getOne]
  refine (mirrors_target he hq .update).bind fun table => ?_
  rw [hfound, hfound]
  refine Emit.mirrors_lift fun x hx => ?_
  have hterms : Statement.Obeys (Terms.neutral e) (fun _ => True) { q with aliasName := none } :=
    ⟨nofun, fun d hd => (hq.kinds d hd).terms⟩
  obtain ⟨hn, hv⟩ := obeys_assignments hterms hx
  have hassign (p : String × Value) (hp : p ∈ x.1.zip x.2) :=
    mirrors_assignment (c := c) he ss (hn p.1 (List.of_mem_zip hp).1)
      (hv p.2 (List.of_mem_zip hp).2)
  refine (Emit.Mirrors.mapM hassign).bind fun sets => ?_
  refine (mirrors_whereSuffix he ss hq).bind fun suffix => Emit.mirrors_pure ?_
  have hsets := Engine.requote_intercalate (e := e) (show '"' ∉ (", ").toList by decide) sets
  rw [← hsets]
  simp +decide [Engine.requote_append, Engine.requote_unquoted]

theorem mirrors_deleteText :
    ((c.on .generic).deleteText ss (q.map f)).Mirrors e.requote
      ((c.on e).deleteText ss (q.map g)) := by
  refine (mirrors_target he hq .delete).bind fun table => ?_
  refine (mirrors_whereSuffix he ss hq).bind fun suffix => Emit.mirrors_pure ?_
  simp +decide [Engine.requote_append, Engine.requote_unquoted]

end Writes

section Aggregates

variable {q : Query} (hq : q.Shared e (c.on .generic).rendering (c.on e).rendering)

include he

theorem aroundAggregate_requote {function : String} (hf : e.Neutral function.toList)
    (rows : Fragment) : (c.on e).aroundAggregate function (rows.requote e) =
      ((c.on .generic).aroundAggregate function rows).requote e := by
  have hstar : ∀ name ∈ ["*"], e.Neutral name.toList := by
    intro name hm
    rw [List.mem_singleton.mp hm]
    exact Engine.neutral_of_not_mem he (by decide)
  have hname : e.Neutral (function ++ "Query").toList := by
    have hquery : e.Neutral "Query".toList := Engine.neutral_of_not_mem he (by decide)
    exact String.toList_append ▸ hf.append hquery
  have hcall := aggregateCall_requote (c := c) (a := ⟨function, ["*"]⟩) he hf hstar false
  rw [aroundAggregate, hcall, wrapValue_on he hname, tableAs_on, aroundAggregate, tableAs_on]
  simp +decide [Fragment.requote, Engine.requote_append, Engine.requote_unquoted]

include hq

theorem aggregateSelect_requote (hs : q.scope = none) {a : Aggregate}
    (hf : e.Neutral a.function.toList) (hn : ∀ name ∈ a.columns, e.Neutral name.toList)
    (ho : e ≠ .postgres → ∀ n, q.offsetFor none = .ok n → n = 0) :
    (c.on e).aggregateSelect q a =
      ((c.on .generic).aggregateSelect q a).map (Fragment.requote e) := by
  have hcounted := Query.shared_counted he hn hq hs .generic
  have hpaged (hne : e ≠ .postgres) : (q.counted .generic a.columns).Paged :=
    Query.paged_of_bucket (q.bucket_counted_of_ne _ (by decide) (by decide) (by decide) _) (ho hne)
  have hrows : (c.on e).select ((c.on e).prepare (q.counted e a.columns)) [[]] =
      ((c.on .generic).select ((c.on .generic).prepare (q.counted .generic a.columns)) [[]]).map
        (Fragment.requote e) := by
    rw [Query.counted_of_unscoped hq.unscoped]
    exact select_requote he hcounted hpaged [[]]
  unfold aggregateSelect
  split
  · exact select_requote he hq (fun hne => Query.paged_of_bucket rfl (ho hne)) []
  · refine (congrArg (Except.map _) hrows).trans ?_
    show (Except.map _ _).map _ = (((c.on .generic).select
      ((c.on .generic).prepare (q.counted .generic a.columns)) [[]]).map _).map _
    cases (c.on .generic).select ((c.on .generic).prepare (q.counted .generic a.columns)) [[]] with
    | error e => rfl
    | ok rows => exact congrArg Except.ok (aroundAggregate_requote he hf rows)

theorem body_requote (hs : q.method = .aggregate → q.scope = none)
    (hl : e ≠ .postgres → q.Limited) :
    (c.on e).body q = ((c.on .generic).body q).map (Fragment.requote e) := by
  cases hm : q.method with
  | select =>
    unfold body
    rw [hm]
    exact select_requote he hq (fun hne => (hl hne).select hm) []
  | aggregate =>
    have hunpaged := Query.shared_unpaged hq
    have ho (hne : e ≠ .postgres) : ∀ n, q.unpaged.offsetFor none = .ok n → n = 0 := by
      rw [Statement.offsetFor, Statement.getOne_congr
        (q.bucket_unpaged_of_ne (by decide) (by decide) (by decide) none)]
      exact (hl hne).aggregate hm
    rw [body_aggregate hm, body_aggregate hm, hq.unscoped.getOne, hq.unscoped.getOne]
    cases hfound : q.getOne .aggregate ClauseKind.aggregate? none with
    | error e => rfl
    | ok found =>
      cases found with
      | none =>
        exact select_requote he hunpaged (fun hne => Query.paged_of_bucket rfl (ho hne)) []
      | some a =>
        obtain ⟨d, hd, ha⟩ := Statement.getOne_eq_some.mp hfound
        have hterms := (hq.kinds d (Statement.mem_bucket.mp (Statement.mem_of_choose hd)).1).terms
        rw [ClauseKind.aggregate?_eq_some _ _ ha] at hterms
        exact aggregateSelect_requote he hunpaged (hs hm) hterms.1 hterms.2 ho
  | insert =>
    unfold body
    rw [hm]
    exact (mirrors_insertText he _ hq).toFragment
  | update =>
    unfold body
    rw [hm]
    exact (mirrors_updateText he _ hq .update).toFragment
  | assign =>
    unfold body
    rw [hm]
    exact (mirrors_updateText he _ hq .assign).toFragment
  | delete =>
    unfold body
    rw [hm]
    exact (mirrors_deleteText he _ hq).toFragment

end Aggregates

end Compiler

end SqlDialects
