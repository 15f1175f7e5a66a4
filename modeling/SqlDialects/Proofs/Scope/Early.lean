import SqlDialects.Proofs.Scope.Values
import SqlDialects.Proofs.Scope.Whole

/-!
Binding early and binding late. A variable that only the outermost statement defines may be
replaced everywhere by its value before the statement is compiled.
-/

namespace SqlDialects

def Value.early (name : String) (v : Value) : Value → Value
  | var other => if other = name then v else var other
  | w => w

def Subquery.early (name : String) (v : Value) : Subquery → Subquery :=
  Subquery.fold fun q => .of (q.rewrite (Value.early name v) (fun _ _ n => n) q.vars)

/-- The statement with the value in place of the variable, at any depth. Variables in arrays and
in the bindings of SQL text are left as they are. -/
def Query.early (name : String) (v : Value) (q : Query) : Query :=
  q.rewrite (Value.early name v) (fun _ _ n => n.early name v) q.vars

/-- No statement nested in this one defines the name. -/
def Query.LeavesOut (name : String) (q : Query) : Prop :=
  ∀ component place n, Query.Nests q component place n → n.vars.find? name = none

variable {name : String} {v : Value} {c : Compiler} {q : Query}

theorem Subquery.early_of (q : Query) :
    (Subquery.of q).early name v = .of (Query.early name v q) := by
  rw [early, fold_of, Query.early, Statement.map_rewrite]
  rfl

theorem hereditary_early : Hereditary (Subquery.early name v) :=
  fun q => ⟨_, _, _, Subquery.early_of q, rfl⟩

theorem Query.leavesOut_iff : Query.LeavesOut name q ↔
    ∀ n ∈ q.nested, n.statement.vars.find? name = none ∧ Query.LeavesOut name n.statement := by
  constructor
  · intro h n hn
    obtain ⟨d, hd, place, hm⟩ := Statement.exists_part hn
    exact Query.forall_nests.mp h d hd _ hm
  · intro h
    exact Query.forall_nests.mpr fun d hd m hm => h m.2 (Statement.mem_nested_of_part hd hm)

theorem Query.LeavesOut.defines {e : Engine} {s : Source Subquery} (h : Query.LeavesOut name q)
    (hs : Defines e q s) {n : Subquery} {aliasName : Option String}
    (hn : s = .query n aliasName) :
    n.statement.vars.find? name = none ∧ Query.LeavesOut name n.statement :=
  hs.body (P := fun n => n.statement.vars.find? name = none ∧ Query.LeavesOut name n.statement)
    (fun _ hp => leavesOut_iff.mp hp.2) (leavesOut_iff.mp h) hn

theorem Subquery.held_early (hv : v ≠ .var name) (n : Subquery) :
    ∀ d, Query.Contains (n.early name v).statement d → ∀ w ∈ d.kind.held, w ≠ .var name := by
  have hvalue (w : Value) : Value.early name v w ≠ .var name := by
    cases w with
    | var other =>
      by_cases ho : other = name
      · simpa [Value.early, ho] using hv
      · simp [Value.early, ho]
    | _ => nofun
  induction n using Subquery.induction with
  | step q ih =>
    rw [early_of]
    exact Query.held_rewrite hvalue fun d hd n hn => ih n.2 (Statement.mem_nested_of_part hd hn)

theorem plain_agreement : agreement.Plain where
  bound _ := rfl
  fault _ _ := rfl

namespace Compiler

variable {ss : Scopes}

theorem reads_early (hv : v.isLiteral = true) (hs : ss.find? name = some v) (w : Value) :
    c.Reads agreement ss ss w (Value.early name v w) := by
  have hself : c.Reads agreement ss ss w w :=
    ⟨agreement_refl _, fun _ _ _ _ _ => agreement_refl _⟩
  cases w with
  | var other =>
    by_cases ho : other = name
    · subst ho
      have hearly : Value.early other v (.var other) = v := if_pos rfl
      rw [hearly]
      exact reads_of_resolve plain_agreement nofun (Value.ne_raw hv) (resolve_var hs)
        (resolve_literal hv)
    · have hearly : Value.early name v (.var other) = .var other := if_neg ho
      rw [hearly]
      exact hself
  | _ => exact hself

theorem carried_early (hv : v.isLiteral = true) (hs : ss.find? name = some v)
    (ih : ∀ n ∈ q.nested, ∀ ss : Scopes, ss.find? name = some v → ∀ place,
      (c.rendering n).Follows agreement ss ss (c.rendering (n.early name v)) place) :
    q.Carried c agreement ss ss c.rendering (Value.early name v)
      fun _ _ n => c.rendering (n.early name v) := by
  intro d hd _
  refine ⟨fun w _ => reads_early hv hs w, fun n hn => ih n.2 ?_ ss hs n.1⟩
  exact Statement.mem_nested_of_part hd hn

theorem follows_early (hv : v.isLiteral = true) (n : Subquery) :
    n.statement.vars.find? name = none → Query.LeavesOut name n.statement →
      ∀ ss : Scopes, ss.find? name = some v → ∀ place,
        (c.rendering n).Follows agreement ss ss (c.rendering (n.early name v)) place := by
  induction n using Subquery.induction with
  | step q ih =>
    intro hvars hq ss hs place
    have hleaves := Query.leavesOut_iff.mp hq
    have ih (n : Subquery) (hn : n ∈ q.nested) :=
      ih n hn (hleaves n hn).1 (hleaves n hn).2
    have hprepare : c.prepare (Query.early name v q) =
        q.rewrite (Value.early name v) (fun _ _ n => c.rendering (n.early name v)) q.vars :=
      q.rewrite_map _ _ _ c.rendering
    rw [Subquery.early_of, rendering_of, rendering_of, hprepare]
    cases place with
    | select =>
      have hpush : Scopes.find? (q.vars :: ss) name = some v := by
        have hown : q.vars.find? name = none := hvars
        rw [Scopes.find?_cons, hown]
        exact hs
      exact ⟨rfl, plain_agreement.select (carried_early hv hpush ih)⟩
    | group => exact plain_agreement.filterText (carried_early hv hs ih)
    | joined => exact plain_agreement.joinedTable (carried_early hv hs ih)

theorem assemble_early (hv : v.isLiteral = true) (hx : q.vars.find? name = some v)
    (hq : Query.LeavesOut name q) : c.assemble (Query.early name v q) = c.assemble q := by
  have hroot (outer : Scopes) : Scopes.find? (q.vars :: outer) name = some v := by
    rw [Scopes.find?_cons, hx]
    rfl
  have hleaves := Query.leavesOut_iff.mp hq
  have hnested (n : Subquery) (hn : n ∈ q.nested) :=
    follows_early (c := c) hv n (hleaves n hn).1 (hleaves n hn).2
  have hpasses : Query.Passes c agreement (Value.early name v)
      (fun _ _ n => n.early name v) q.vars q := by
    refine ⟨fun outer _ => carried_early hv (hroot outer) hnested, hereditary_early, ?_⟩
    intro body aliasName hbody
    obtain ⟨hvars, hleaves⟩ := hq.defines hbody rfl
    exact (follows_early hv body hvars hleaves [q.vars] (hroot []) .select).2
  have hassemble : agreement.Yields agreement.Fragments (c.assemble q)
      (c.assemble (Query.early name v q)) := hpasses.assemble plain_agreement
  generalize c.assemble q = x at hassemble ⊢
  generalize c.assemble (Query.early name v q) = y at hassemble ⊢
  cases hassemble with
  | ok hfg => exact congrArg Except.ok (hfg.eq rfl).symm
  | error he => exact congrArg Except.error he.symm
  | spared hs _ => exact hs.elim

/-- Late binding is early binding: a variable that the outermost statement alone defines, as a
literal, may be replaced by it wherever a value stands, and the output is the same, or the fault. -/
theorem compile_early (c : Compiler) {q : Query} {name : String} {v : Value}
    (hv : v.isLiteral = true) (hx : q.vars.find? name = some v) (hq : Query.LeavesOut name q) :
    (∀ d, (Query.early name v q).Contains d → ∀ w ∈ d.kind.held, w ≠ .var name) ∧
      c.output (Query.early name v q) = c.output q := by
  have hheld := (Subquery.of q).held_early (Value.ne_var hv name)
  rw [Subquery.early_of] at hheld
  refine ⟨hheld, ?_⟩
  rw [output_eq, output_eq, assemble_early hv hx hq]

def ordersAbove : Query where
  clauses := [⟨.source, none, .source (.table "orders")⟩,
    ⟨.filter, none, .condition ⟨.compare "total" ">" (.var "floor"), false, false⟩⟩,
    ⟨.filter, none, .condition ⟨.rowsExist (.of {
      clauses := [⟨.source, none, .source (.table "items")⟩,
        ⟨.filter, none,
          .condition ⟨.between "price" (.var "floor") (.int 20), false, false⟩⟩] }), false, false⟩⟩,
    ⟨.cte, none, .source (.query (.of {
      clauses := [⟨.source, none, .source (.table "sales")⟩,
        ⟨.filter, none,
          .condition ⟨.oneOf "amount" [.var "floor", .int 7], false, false⟩⟩] }) (some "big"))⟩]
  vars := [("floor", .int 10)]

theorem compile_early_ordersAbove :
    (Value.int 10).isLiteral = true ∧ ordersAbove.vars.find? "floor" = some (.int 10) ∧
      Query.LeavesOut "floor" ordersAbove ∧
      ((ofEngine .postgres).assemble ordersAbove).toOption.map (·.bindings) =
        some [.int 10, .int 7, .int 10, .int 10, .int 20] ∧
      (∀ d, (Query.early "floor" (.int 10) ordersAbove).Contains d →
        ∀ w ∈ d.kind.held, w ≠ .var "floor") ∧
      (ofEngine .postgres).output (Query.early "floor" (.int 10) ordersAbove) =
        (ofEngine .postgres).output ordersAbove := by
  have hq : Query.LeavesOut "floor" ordersAbove := by
    have hnone (n : Query) (h : n.nested = []) : Query.LeavesOut "floor" n :=
      fun _ _ _ hn => absurd hn (Query.not_nests h)
    rw [Query.leavesOut_iff]
    intro n hn
    rcases List.mem_cons.mp hn with rfl | hn
    · exact ⟨rfl, hnone _ rfl⟩
    · obtain rfl := List.mem_singleton.mp hn
      exact ⟨rfl, hnone _ rfl⟩
  exact ⟨rfl, rfl, hq, rfl, (ofEngine .postgres).compile_early rfl rfl hq⟩

end Compiler

end SqlDialects
