import SqlDialects.Proofs.Scope.Values

/-!
Which definitions are in force in a nested statement. By the lexical rule they are its own and
those of the statements around it. What is rendered departs from the rule in two ways. A condition
group and the target of a join are rendered in the scopes around them, without definitions of their
own. The body of an expression is rendered in the scope of the statement that the whole list of
expressions stands in front of, even if another body declares it.
-/

namespace SqlDialects

variable {α : Type}

def Variables.Literal (vars : Variables) : Prop :=
  ∀ name v, vars.find? name = some v → v.isLiteral = true

theorem Variables.exists_mem_of_find? {vars : Variables} {name : String} {v : Value}
    (h : vars.find? name = some v) : ∃ n, (n, v) ∈ vars := by
  induction vars with
  | nil => cases h
  | cons p vars ih =>
    obtain ⟨n, d⟩ := p
    rw [find?] at h
    split at h
    · cases h
      exact ⟨n, List.mem_cons_self⟩
    · obtain ⟨n', hm⟩ := ih h
      exact ⟨n', List.mem_cons_of_mem _ hm⟩

theorem Variables.Literal.of_all {vars : Variables} (h : vars.all (·.2.isLiteral) = true) :
    vars.Literal := by
  intro name v hv
  obtain ⟨n, hm⟩ := Variables.exists_mem_of_find? hv
  exact List.all_eq_true.mp h (n, v) hm

theorem Variables.Literal.append {own outer : Variables} (h : own.Literal) (h' : outer.Literal) :
    Variables.Literal (own ++ outer) := by
  intro name v hv
  rw [Variables.find?_append, Option.or_eq_some_iff] at hv
  rcases hv with hv | ⟨-, hv⟩
  · exact h name v hv
  · exact h' name v hv

inductive Scoping where
  | lexical
  | rendered

/-- Where a statement stands, and what is defined around it. -/
structure Standing where
  place : Place
  outer : Variables
  /-- In the body of an expression, what is in force around the expressions declared there. -/
  expressions : Option Variables

structure Standing.Literal (s : Standing) : Prop where
  outer : s.outer.Literal
  expressions : ∀ vars ∈ s.expressions, vars.Literal

def Standing.root : Standing := ⟨.select, [], none⟩

namespace Scoping

/-- What is in force in the clauses of a statement, where the inner of two definitions of a name
comes first. -/
def inForce (rule : Scoping) (own : Variables) (s : Standing) : Variables :=
  match rule, s.place with
  | rendered, .group => s.outer
  | rendered, .joined => s.outer
  | _, _ => own ++ s.outer

def enter (rule : Scoping) (component : Component) (place : Place) (own : Variables)
    (s : Standing) : Standing :=
  let around := rule.inForce own s
  match rule, component with
  | rendered, .cte => ⟨place, s.expressions.getD around, some (s.expressions.getD around)⟩
  | _, _ => ⟨place, around, none⟩

theorem enter_lexical (component : Component) (place : Place) (own : Variables) (s : Standing) :
    lexical.enter component place own s = ⟨place, own ++ s.outer, none⟩ := rfl

theorem enter_of_ne {component : Component} (h : component ≠ .cte) (rule : Scoping)
    (place : Place) (own : Variables) (s : Standing) :
    rule.enter component place own s = ⟨place, rule.inForce own s, none⟩ := by
  unfold enter
  dsimp only
  split
  · exact absurd rfl h
  · rfl

theorem inForce_eq {own : Variables} {s : Standing} (h : s.place ≠ .select → own = [])
    (rule : Scoping) : rule.inForce own s = own ++ s.outer := by
  unfold inForce
  split
  · next hp =>
    rw [h (by rw [hp]; nofun)]
    rfl
  · next hp =>
    rw [h (by rw [hp]; nofun)]
    rfl
  · rfl

theorem literal_inForce {own : Variables} {s : Standing} (h : own.Literal) (hs : s.Literal)
    (rule : Scoping) : (rule.inForce own s).Literal := by
  unfold inForce
  split
  · exact hs.outer
  · exact hs.outer
  · exact h.append hs.outer

theorem literal_enter {own : Variables} {s : Standing} (h : own.Literal) (hs : s.Literal)
    (rule : Scoping) (component : Component) (place : Place) :
    (rule.enter component place own s).Literal := by
  have hforce := literal_inForce h hs rule
  unfold enter
  dsimp only
  split
  · have haround : (s.expressions.getD (rendered.inForce own s)).Literal := by
      cases hx : s.expressions with
      | none => exact hforce
      | some vars => exact hs.expressions vars hx
    refine ⟨haround, ?_⟩
    rintro _ ⟨⟩
    exact haround
  · exact ⟨hforce, nofun⟩

end Scoping

/-- The literal that a variable is defined as, or what is filled in for one without a definition.
A variable that is defined as SQL text or as a variable stays. -/
def Value.settle (fill : String → Value) (vars : Variables) : Value → Value
  | var name =>
    match vars.find? name with
    | some v => if v.isLiteral then v else var name
    | none => fill name
  | v => v

def Value.missing (vars : Variables) : Value → List String
  | var name => if (vars.find? name).isNone then [name] else []
  | _ => []

theorem Value.mem_missing {vars : Variables} {name : String} (h : vars.find? name = none) :
    name ∈ (var name).missing vars := by
  rw [missing, h]
  exact List.mem_singleton.mpr rfl

namespace Subquery

def under (rule : Scoping) (meaning : Variables → Statement α → α) : Subquery → Standing → α :=
  Subquery.fold fun q s => meaning (rule.inForce q.vars s)
    (q.rewrite id (fun component place n => n (rule.enter component place q.vars s)) q.vars)

theorem under_of (rule : Scoping) (meaning : Variables → Statement α → α) (q : Query)
    (s : Standing) :
    (of q).under rule meaning s = meaning (rule.inForce q.vars s) (q.rewrite id
      (fun component place n => n.under rule meaning (rule.enter component place q.vars s))
      q.vars) := by
  rw [under, fold_of, Statement.map_rewrite]
  rfl

/-- Every variable is looked up at once. A statement defines all that is in force in it, so that
the variables that stay need not be looked up around it. -/
def settle (rule : Scoping) (fill : String → Value) : Subquery → Standing → Subquery :=
  under rule fun vars q => .of (q.rewrite (Value.settle fill vars) (fun _ _ n => n) vars)

def missing (rule : Scoping) : Subquery → Standing → List String :=
  under rule fun vars q => q.clauses.flatMap fun d =>
    d.kind.held.flatMap (Value.missing vars) ++ d.kind.parts.flatMap (·.2)

theorem settle_of (rule : Scoping) (fill : String → Value) (q : Query) (s : Standing) :
    (of q).settle rule fill s = .of (q.rewrite (Value.settle fill (rule.inForce q.vars s))
      (fun component place n => n.settle rule fill (rule.enter component place q.vars s))
      (rule.inForce q.vars s)) := by
  rw [settle, under_of, Statement.rewrite_rewrite]
  rfl

theorem mem_missing_of {rule : Scoping} {q : Query} {s : Standing} {name : String} :
    name ∈ (of q).missing rule s ↔ ∃ d ∈ q.clauses,
      (∃ v ∈ d.kind.held, name ∈ v.missing (rule.inForce q.vars s)) ∨
        ∃ n ∈ d.kind.parts,
          name ∈ n.2.missing rule (rule.enter d.component n.1 q.vars s) := by
  rw [missing, under_of]
  simp only [Statement.rewrite, List.mem_flatMap, List.mem_map, List.mem_append,
    exists_exists_and_eq_and, Clause.rewrite, ClauseKind.held_rewrite, ClauseKind.parts_rewrite,
    id_eq]

end Subquery

def Query.settled (rule : Scoping) (fill : String → Value) (q : Query) : Query :=
  ((Subquery.of q).settle rule fill .root).statement

def Query.missing (rule : Scoping) (q : Query) : List String := (Subquery.of q).missing rule .root

def Query.DefinesLiterals (q : Query) : Prop :=
  q.vars.Literal ∧ ∀ component place n, Query.Nests q component place n → n.vars.Literal

/-- No group defines anything, no target of a join, and no body that declares expressions. -/
def Query.DefinesInSelects (q : Query) : Prop :=
  ∀ component place n, Query.Nests q component place n →
    (place ≠ .select → n.vars = []) ∧
      (component = .cte → (∃ d ∈ n.clauses, d.component = .cte) → n.vars = [])

theorem Query.definesInSelects_iff {q : Query} : q.DefinesInSelects ↔
    ∀ d ∈ q.clauses, ∀ n ∈ d.kind.parts,
      ((n.1 ≠ .select → n.2.statement.vars = []) ∧
        (d.component = .cte → (∃ d ∈ n.2.statement.clauses, d.component = .cte) →
          n.2.statement.vars = [])) ∧
        n.2.statement.DefinesInSelects :=
  Query.forall_nests

/-- With nothing defined where it is not seen, what is rendered follows the lexical rule. -/
theorem Subquery.under_lexical (meaning : Variables → Statement α → α) (n : Subquery) :
    n.statement.DefinesInSelects →
      ∀ place outer expressions, (place ≠ .select → n.statement.vars = []) →
        (∀ around ∈ expressions, around = outer ∧
          ((∃ d ∈ n.statement.clauses, d.component = .cte) → n.statement.vars = [])) →
        n.under .rendered meaning ⟨place, outer, expressions⟩ =
          n.under .lexical meaning ⟨place, outer, none⟩ := by
  induction n using Subquery.induction with
  | step q ih =>
    intro hq place outer expressions hplace hexpressions
    rw [Subquery.under_of, Subquery.under_of, Scoping.inForce_eq hplace, Scoping.inForce_eq hplace]
    refine congrArg (meaning (q.vars ++ outer))
      (Statement.rewrite_congr _ (fun _ _ _ _ => rfl) ?_)
    rintro d hd ⟨place', p⟩ hn
    obtain ⟨⟨hown, hbody⟩, hp⟩ := Query.definesInSelects_iff.mp hq d hd _ hn
    have hmem : p ∈ q.nested := Statement.mem_nested_of_part hd hn
    have ih := ih p hmem hp place' (q.vars ++ outer)
    rw [Scoping.enter_lexical]
    by_cases hc : d.component = .cte
    · have haround : expressions.getD (q.vars ++ outer) = q.vars ++ outer := by
        cases expressions with
        | none => rfl
        | some around =>
          obtain ⟨rfl, hvars⟩ := hexpressions around rfl
          have hvars : q.vars = [] := hvars ⟨d, hd, hc⟩
          rw [hvars]
          rfl
      have henter : Scoping.rendered.enter d.component place' q.vars
          ⟨place, outer, expressions⟩ =
            ⟨place', q.vars ++ outer, some (q.vars ++ outer)⟩ := by
        rw [hc, Scoping.enter, Scoping.inForce_eq hplace]
        dsimp only
        rw [haround]
      rw [henter]
      refine ih (some (q.vars ++ outer)) hown ?_
      rintro _ ⟨⟩
      exact ⟨rfl, hbody hc⟩
    · rw [Scoping.enter_of_ne hc, Scoping.inForce_eq hplace]
      exact ih none hown nofun

namespace Query.DefinesInSelects

variable {q : Query} (h : q.DefinesInSelects)

include h

theorem under_root (meaning : Variables → Statement α → α) :
    (Subquery.of q).under .rendered meaning .root = (Subquery.of q).under .lexical meaning .root :=
  (Subquery.of q).under_lexical meaning h .select [] none (absurd rfl) nofun

theorem settled_eq (fill : String → Value) : q.settled .rendered fill = q.settled .lexical fill :=
  congrArg Subquery.statement (h.under_root _)

theorem missing_eq : q.missing .rendered = q.missing .lexical := by
  unfold Query.missing Subquery.missing
  exact h.under_root _

end Query.DefinesInSelects

end SqlDialects
