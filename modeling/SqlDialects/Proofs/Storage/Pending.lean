import SqlDialects.Proofs.Aggregate.Over
import SqlDialects.Proofs.Scope.Early
import SqlDialects.Proofs.Statement.Steps

/-!
What is pending in a statement that was built. Nothing of it is seen where the statement is nested,
and of whole statements only an aggregate takes it up, in the tests for null of its columns.
-/

namespace SqlDialects

variable {σ : Type}

def Statement.idle (q : Statement σ) : Statement σ :=
  { q with scope := none, pendingOr := false, pendingNot := false }

/-- A nested statement with nothing pending and nothing in scope, at any depth. -/
def Subquery.shed : Subquery → Subquery := Subquery.fold fun q => .of q.idle

def Query.shed (q : Query) : Query := Statement.idle (q.map Subquery.shed)

/-- An aggregate tests its columns for null if they are several, and the first test takes up what
is pending. -/
structure Query.TakesPending (e : Engine) (q : Query) : Prop where
  method : q.method = .aggregate
  rows : q.distinct = false
  columns : ∃ a, q.getOne .aggregate ClauseKind.aggregate? (some e) = .ok (some a) ∧
    2 ≤ a.columns.length
  pending : q.pendingOr = true ∨ q.pendingNot = true

theorem Subquery.shed_of (q : Query) : (Subquery.of q).shed = .of (Query.shed q) := by
  rw [shed, fold_of]
  rfl

theorem Subquery.aliasName_shed (n : Subquery) : n.shed.aliasName = n.aliasName := by
  obtain ⟨q⟩ := n
  rw [shed_of]
  rfl

namespace Statement

variable {e : Engine} {q : Statement σ}

theorem sameRows_idle (h : q.scope = none) : q.idle.SameRows e q :=
  ⟨rfl, rfl, h.symm, fun _ _ _ => rfl⟩

theorem bucket_idle (q : Statement σ) (component : Component) (engine : Option Engine) :
    q.idle.bucket component engine = q.bucket component engine := rfl

theorem samePage_idle : q.idle.SamePage e q := ⟨rfl, rfl⟩

end Statement

theorem Query.unpaged_idle {q : Query} (h : q.scope = none) :
    Query.unpaged q.idle = q.unpaged.idle := by
  simp only [unpaged, Statement.clear, Statement.idle, h]

theorem Query.takesPending_map {e : Engine} {q : Query} (f : Subquery → Subquery) :
    Query.TakesPending e (q.map f) ↔ Query.TakesPending e q := by
  have hfound : (q.map f).getOne .aggregate ClauseKind.aggregate? (some e) =
      q.getOne .aggregate ClauseKind.aggregate? (some e) := by
    rw [q.getOne_map _ _ (ClauseKind.aggregate?_map f), Option.map_id]
    cases q.getOne .aggregate ClauseKind.aggregate? (some e) <;> rfl
  constructor
  · rintro ⟨hm, hd, ha, hp⟩
    exact ⟨hm, hd, hfound ▸ ha, hp⟩
  · rintro ⟨hm, hd, ha, hp⟩
    exact ⟨hm, hd, hfound ▸ ha, hp⟩

namespace Compiler

variable {c : Compiler} {q : Query}

theorem select_idle {x : Statement Rendering} (h : x.scope = none) (outer : Scopes) :
    c.select x.idle outer = c.select x outer :=
  (Statement.sameRows_idle h).select Statement.samePage_idle

theorem prepare_shed (h : ∀ n ∈ q.nested, c.rendering n.shed = c.rendering n) :
    c.prepare q.shed = (c.prepare q).idle := by
  have hmap : (q.map Subquery.shed).map c.rendering = q.map c.rendering := by
    rw [Statement.map_map]
    exact Statement.map_congr h
  exact congrArg Statement.idle hmap

theorem rendering_shed (n : Subquery) (hn : n.statement.Reachable) :
    c.rendering n.shed = c.rendering n := by
  induction n using Subquery.induction with
  | step q ih =>
    have hq : Query.Reachable q := hn
    have hprepare := prepare_shed fun n hm => ih n hm (hq.nested hm)
    have hselect : c.select (c.prepare q).idle = c.select (c.prepare q) :=
      funext fun outer => select_idle hq.scope outer
    rw [Subquery.shed_of, rendering_of, rendering_of, hprepare, hselect]
    rfl

section Writes

variable {ss : Scopes} (x : Statement Rendering)

theorem target_idle (operation : Operation) : c.target operation x.idle = c.target operation x := by
  rw [target, sourceFor_congr (x.bucket_idle _ _), target]

theorem whereSuffix_idle : c.whereSuffix ss x.idle = c.whereSuffix ss x := by
  rw [whereSuffix, wheres_congr (x.bucket_idle _ _) (x.bucket_idle _ _), whereSuffix]

theorem insertText_idle : c.insertText ss x.idle = c.insertText ss x := by
  rw [insertText, target_idle, Statement.getAll_congr (x.bucket_idle _ _), insertText]

theorem updateText_idle (component : Component) :
    c.updateText ss component x.idle = c.updateText ss component x := by
  have hassignments : c.assignments component x.idle = c.assignments component x := by
    rw [assignments, Statement.getOne_congr (x.bucket_idle _ _), assignments]
  rw [updateText, target_idle, hassignments, whereSuffix_idle, updateText]

theorem deleteText_idle : c.deleteText ss x.idle = c.deleteText ss x := by
  rw [deleteText, target_idle, whereSuffix_idle, deleteText]

end Writes

/-- Only an aggregate looks at what is pending in a whole statement. -/
theorem body_idle (hs : q.scope = none) (ht : ¬q.TakesPending c.engine) :
    c.body q.idle = c.body q := by
  have hmidle : q.idle.method = q.method := rfl
  have hvars : q.idle.vars = q.vars := rfl
  have hprepare : c.prepare q.idle = (c.prepare q).idle := rfl
  cases hm : q.method with
  | aggregate =>
    have hunpaged : q.unpaged.scope = none := hs
    rw [body_aggregate (hmidle.trans hm), body_aggregate hm,
      Statement.getOne_congr (q.bucket_idle _ _), Query.unpaged_idle hs]
    cases ha : q.getOne .aggregate ClauseKind.aggregate? (some c.engine) with
    | error e =>
      have herror {α β : Type} (f : α → Except Fault β) : (.error e >>= f) = .error e := rfl
      rw [herror, herror]
    | ok found =>
      cases found with
      | none => exact select_congr (Statement.sameRows_idle hunpaged) Statement.samePage_idle []
      | some a =>
        refine aggregateSelect_congr (Statement.sameRows_idle hunpaged) Statement.samePage_idle
          fun hd hmany => ?_
        have hnone : ¬(q.pendingOr = true ∨ q.pendingNot = true) := fun hp =>
          ht ⟨hm, hd, ⟨a, ha, hmany⟩, hp⟩
        obtain ⟨ho, hn⟩ := not_or.mp hnone
        exact ⟨(Bool.eq_false_iff.mpr ho).symm, (Bool.eq_false_iff.mpr hn).symm⟩
  | select => simp only [body, hmidle, hm, hprepare, select_idle (x := c.prepare q) hs]
  | insert => simp only [body, hmidle, hm, hprepare, insertText_idle, hvars]
  | update => simp only [body, hmidle, hm, hprepare, updateText_idle, hvars]
  | assign => simp only [body, hmidle, hm, hprepare, updateText_idle, hvars]
  | delete => simp only [body, hmidle, hm, hprepare, deleteText_idle, hvars]

theorem enters_shed (h : ∀ n ∈ q.nested, c.rendering n.shed = c.rendering n) :
    q.Enters c agreement id (fun _ _ n => n.shed) q.vars :=
  Query.enters_of_rendering fun _ _ n hn => h n hn

theorem findCtes_shed {e : Engine} (n : Subquery) : ∀ seen, agreement.Yields
    (Source.FoundBoth Subquery.shed) (n.findCtes e seen) (n.shed.findCtes e seen) := by
  induction n using Subquery.induction with
  | step q ih =>
    intro seen
    have hmap : agreement.Yields (Source.FoundBoth Subquery.shed)
        ((Subquery.of q).findCtes e seen)
        ((Subquery.of (q.map Subquery.shed)).findCtes e seen) := by
      rw [Statement.map_eq_rewrite]
      exact findCtes_rewrite (g := fun _ _ n => Subquery.shed n) plain_agreement
        Subquery.aliasName_shed ih seen
    rw [Subquery.shed_of]
    exact hmap

theorem ctes_shed (e : Engine) (q : Query) :
    q.shed.ctes e = (q.ctes e).map (List.map (Source.map Subquery.shed)) := by
  have hfound := findCtes_shed (e := e) (.of q) []
  unfold Query.ctes
  rw [← Subquery.shed_of]
  generalize (Subquery.of q).findCtes e [] = x at hfound ⊢
  generalize (Subquery.of q).shed.findCtes e [] = y at hfound ⊢
  cases hfound with
  | ok h => rw [h]; rfl
  | error h => rw [h]; rfl
  | spared h _ => exact h.elim

section Whole

variable (hs : q.scope = none) (hn : ∀ n ∈ q.nested, n.statement.Reachable)

include hn

include hs in
theorem body_shed (ht : ¬q.TakesPending c.engine) : c.body q.shed = c.body q := by
  have hnested : ∀ n ∈ q.nested, c.rendering n.shed = c.rendering n :=
    fun n hm => rendering_shed n (hn n hm)
  have hscope : (q.map Subquery.shed).scope = none := hs
  have hidle : c.body q.shed = c.body (q.map Subquery.shed) :=
    body_idle hscope (mt (Query.takesPending_map _).mp ht)
  have hmap := (enters_shed hnested).body plain_agreement
  rw [← Statement.map_eq_rewrite] at hmap
  exact hidle.trans (agreement_eq hmap).symm

theorem cteDefinition_shed {s : Source Subquery} (hs : Defines c.engine q s) :
    c.cteDefinition q.shed (s.map Subquery.shed) = c.cteDefinition q s := by
  have hvars : (Query.shed q).vars = q.vars := rfl
  unfold cteDefinition
  rw [Source.alias?_map Subquery.aliasName_shed, hvars]
  cases s with
  | query body aliasName =>
    have hbody : body.statement.Reachable :=
      hs.body (P := fun n => n.statement.Reachable) (fun _ hp n hn => hp.nested hn) hn rfl
    simp only [Source.map, rendering_shed body hbody]
  | _ => rfl

theorem front_shed : c.front q.shed = c.front q := by
  unfold front
  rw [ctes_shed]
  cases hs : q.ctes c.engine with
  | error e => rfl
  | ok sources =>
    have hdefinitions : (sources.map (Source.map Subquery.shed)).mapM (c.cteDefinition q.shed) =
        sources.mapM (c.cteDefinition q) := by
      rw [List.mapM_map]
      exact mapM_congr fun s hm => cteDefinition_shed hn (defines_of_mem_ctes hs hm)
    simp only [Except.map, bind, Except.bind, hdefinitions]

include hs in
theorem assemble_shed (ht : ¬q.TakesPending c.engine) : c.assemble q.shed = c.assemble q := by
  rw [assemble_eq, assemble_eq, body_shed hs hn ht, front_shed hn]

end Whole

end Compiler

end SqlDialects
