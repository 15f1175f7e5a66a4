import SqlDialects.Proofs.Scope.Standing
import SqlDialects.Proofs.Scope.Whole

/-!
Every variable is bound as what it is defined as where it stands. A statement compiles as the same
one does with each variable looked up, or fails for one that has no definition in force.
-/

namespace SqlDialects

def scoping (lost : String → Prop) : Tie where
  value := Eq
  bound := Eq
  vars _ _ := True
  scopes _ _ := True
  fault e e' := e = e' ∧ e.Fixed
  spared e := ∃ name, lost name ∧ e = .undefinedVariable name

theorem plain_scoping (lost : String → Prop) : (scoping lost).Plain where
  bound _ := rfl
  fault _ he := ⟨rfl, he⟩

/-- The first scopes hold what is in force, and the second ones hold that at least. -/
structure Variables.Covers (vars : Variables) (ss ss' : Scopes) : Prop where
  all : ∀ name, ss.find? name = vars.find? name
  some : ∀ name v, vars.find? name = some v → ss'.find? name = some v

theorem Variables.Covers.own {outer : Variables} {ss ss' : Scopes} (h : outer.Covers ss ss')
    (own : Variables) : (own ++ outer).Covers (own :: ss) ((own ++ outer) :: ss') where
  all name := by rw [Scopes.find?_cons, Variables.find?_append, h.all]
  some name v hv := by
    rw [Scopes.find?_cons, hv]
    rfl

theorem Variables.Covers.whole (vars : Variables) {outer : Scopes}
    (ho : outer ∈ ([[], [[]]] : List Scopes)) : vars.Covers (vars :: outer) (vars :: outer) := by
  have hfind (name : String) : Scopes.find? (vars :: outer) name = vars.find? name := by
    rw [Scopes.find?_cons]
    rcases List.mem_cons.mp ho with rfl | ho
    · exact Option.or_none
    · obtain rfl := List.mem_singleton.mp ho
      exact Option.or_none
  exact ⟨hfind, fun name v hv => (hfind name).trans hv⟩

variable {c : Compiler} {q : Query} {lost : String → Prop} {fill : String → Value}

namespace Compiler

variable {vars : Variables} {ss ss' : Scopes}

theorem reads_settle (h : vars.Covers ss ss') {v : Value}
    (hlost : ∀ name ∈ v.missing vars, lost name) :
    c.Reads (scoping lost) ss ss' v (v.settle fill vars) := by
  have ht := plain_scoping lost
  cases v with
  | raw sql => exact reads_raw ht sql
  | var name =>
    cases hx : vars.find? name with
    | none =>
      refine reads_missing ((h.all name).trans hx) ⟨name, hlost name ?_, rfl⟩
      exact Value.mem_missing hx
    | some d =>
      have hss : ss.find? name = some d := (h.all name).trans hx
      have hsettle : (Value.var name).settle fill vars =
          if d.isLiteral then d else .var name := by rw [Value.settle, hx]
      rw [hsettle]
      split
      · next hd =>
        exact reads_of_resolve ht nofun (Value.ne_raw hd) (resolve_var hss) (resolve_literal hd)
      · exact reads_of_resolve ht nofun nofun (resolve_var hss) (resolve_var (h.some name d hx))
  | _ => exact reads_of_resolve ht nofun nofun (resolve_literal rfl) (resolve_literal rfl)

theorem carried_settle {s : Standing} (h : (Scoping.rendered.inForce q.vars s).Covers ss ss')
    (hlost : ∀ name ∈ (Subquery.of q).missing .rendered s, lost name)
    (ih : ∀ n ∈ q.nested, ∀ s ss ss', Variables.Covers s.outer ss ss' →
      (∀ name ∈ n.missing .rendered s, lost name) →
        (c.rendering n).Follows (scoping lost) ss ss' (c.rendering (n.settle .rendered fill s))
          s.place) :
    q.Carried c (scoping lost) ss ss' c.rendering
      (Value.settle fill (Scoping.rendered.inForce q.vars s))
      (fun component place n => c.rendering
        (n.settle .rendered fill (Scoping.rendered.enter component place q.vars s))) := by
  intro d hd hc
  refine ⟨fun v hv => reads_settle h fun name hname => ?_, fun n hn => ?_⟩
  · exact hlost name (Subquery.mem_missing_of.mpr ⟨d, hd, .inl ⟨v, hv, hname⟩⟩)
  · have hmissing (name : String) (hname : name ∈ n.2.missing .rendered
        (Scoping.rendered.enter d.component n.1 q.vars s)) : lost name :=
      hlost name (Subquery.mem_missing_of.mpr ⟨d, hd, .inr ⟨n, hn, hname⟩⟩)
    have hmem : n.2 ∈ q.nested := Statement.mem_nested_of_part hd hn
    dsimp only
    rw [Scoping.enter_of_ne hc] at hmissing ⊢
    exact ih n.2 hmem _ ss ss' h hmissing

theorem follows_settle (n : Subquery) : ∀ s ss ss', Variables.Covers s.outer ss ss' →
    (∀ name ∈ n.missing .rendered s, lost name) →
      (c.rendering n).Follows (scoping lost) ss ss' (c.rendering (n.settle .rendered fill s))
        s.place := by
  induction n using Subquery.induction with
  | step q ih =>
    rintro ⟨place, outer, expressions⟩ ss ss' h hlost
    have ht := plain_scoping lost
    rw [Subquery.settle_of, rendering_of, rendering_of, prepare, prepare, Statement.rewrite_map]
    cases place with
    | select => exact ⟨rfl, ht.select (carried_settle (h.own q.vars) hlost ih)⟩
    | group => exact ht.filterText (carried_settle h hlost ih)
    | joined => exact ht.joinedTable (carried_settle h hlost ih)

end Compiler

theorem Value.settle_ne_var {vars : Variables} (hvars : vars.Literal)
    (hfill : ∀ name, (fill name).isLiteral = true) (v : Value) :
    ∀ name, v.settle fill vars ≠ .var name := by
  cases v with
  | var name =>
    rw [settle]
    cases hx : vars.find? name with
    | none => exact ne_var (hfill name)
    | some d =>
      have hd : d.isLiteral = true := hvars name d hx
      dsimp only
      rw [if_pos hd]
      exact ne_var hd
  | _ => nofun

theorem Subquery.held_settle (rule : Scoping) (hfill : ∀ name, (fill name).isLiteral = true)
    (n : Subquery) : ∀ s : Standing, s.Literal → n.statement.DefinesLiterals →
      ∀ d, Query.Contains (n.settle rule fill s).statement d →
        ∀ v ∈ d.kind.held, ∀ name, v ≠ .var name := by
  induction n using Subquery.induction with
  | step q ih =>
    intro s hs hq
    have hforce := Scoping.literal_inForce hq.1 hs rule
    rw [settle_of]
    refine Query.held_rewrite (Value.settle_ne_var hforce hfill) fun d hd n hn => ?_
    refine ih n.2 (Statement.mem_nested_of_part hd hn) _ (Scoping.literal_enter hq.1 hs rule _ _) ?_
    exact Query.forall_nests.mp hq.2 d hd n hn

def Standing.expression (vars : Variables) : Standing := ⟨.select, vars, some vars⟩

theorem hereditary_settle (vars : Variables) :
    Hereditary fun n => n.settle .rendered fill (.expression vars) :=
  fun q => ⟨_, _, _, Subquery.settle_of .rendered fill q _, rfl⟩

theorem Query.Defines.missing {e : Engine} {src : Source Subquery} (h : Defines e q src)
    {vars : Variables} {s : Standing}
    (hs : Scoping.rendered.enter .cte .select q.vars s = .expression vars) {body : Subquery}
    {aliasName : Option String} (hsrc : src = .query body aliasName) :
    ∀ name ∈ body.missing .rendered (.expression vars),
      name ∈ (Subquery.of q).missing .rendered s := by
  have hbody {p : Query} {s : Standing} {d : Clause Subquery} {n : Subquery}
      {aliasName : Option String}
      (hs : Scoping.rendered.enter .cte .select p.vars s = .expression vars)
      (hd : d ∈ p.bucket .cte (some e)) (hk : d.kind = .source (.query n aliasName)) :
      ∀ name ∈ n.missing .rendered (.expression vars),
        name ∈ (Subquery.of p).missing .rendered s := by
    intro name hname
    refine Subquery.mem_missing_of.mpr
      ⟨d, (Statement.mem_bucket.mp hd).1, .inr ⟨(.select, n), ClauseKind.part_of_source hk, ?_⟩⟩
    rw [p.component_of_mem_bucket _ hd, hs]
    exact hname
  induction h generalizing s with
  | here hd hk =>
    rw [hsrc] at hk
    exact hbody hs hd hk
  | inside hd hk _ ih =>
    intro name hname
    exact hbody hs hd hk name (ih rfl hsrc name hname)

namespace Compiler

theorem passes_settle (c : Compiler) (q : Query) (fill : String → Value) :
    Query.Passes c (scoping (· ∈ q.missing .rendered)) (Value.settle fill q.vars)
      (fun component place n =>
        n.settle .rendered fill (Scoping.rendered.enter component place q.vars .root))
      q.vars q := by
  have hforce : Scoping.rendered.inForce q.vars .root = q.vars := List.append_nil _
  have hcte : Scoping.rendered.enter .cte .select q.vars .root = .expression q.vars :=
    congrArg Standing.expression hforce
  refine ⟨fun outer ho => ?_, ?_, fun body aliasName hb => ?_⟩
  · have hcarried : q.Carried c (scoping (· ∈ q.missing .rendered)) (q.vars :: outer)
        (q.vars :: outer) c.rendering
        (Value.settle fill (Scoping.rendered.inForce q.vars .root)) fun component place n =>
          c.rendering (n.settle .rendered fill
            (Scoping.rendered.enter component place q.vars .root)) := by
      refine carried_settle ?_ (fun _ => id) fun n _ => follows_settle n
      rw [hforce]
      exact .whole q.vars ho
    rw [hforce] at hcarried
    exact hcarried
  · rw [hcte]
    exact hereditary_settle q.vars
  · rw [hcte]
    exact (follows_settle body (.expression q.vars) _ _ (.whole q.vars (.head _))
      (Query.Defines.missing hb hcte rfl)).2

theorem settled_rendered (q : Query) (fill : String → Value) :
    q.settled .rendered fill = q.rewrite (Value.settle fill q.vars)
      (fun component place n =>
        n.settle .rendered fill (Scoping.rendered.enter component place q.vars .root))
      q.vars := by
  have hforce : Scoping.rendered.inForce q.vars .root = q.vars := List.append_nil _
  rw [Query.settled, Subquery.settle_of, hforce]
  rfl

theorem assemble_settled (c : Compiler) (q : Query) (fill : String → Value) :
    (∃ name ∈ q.missing .rendered, c.assemble q = .error (.undefinedVariable name)) ∨
      (∀ e, c.assemble q = .error e → e.Fixed) ∧
        c.assemble (q.settled .rendered fill) = c.assemble q := by
  have hassemble : (scoping (· ∈ q.missing .rendered)).Yields
      (scoping (· ∈ q.missing .rendered)).Fragments (c.assemble q)
      (c.assemble (q.settled .rendered fill)) := by
    rw [settled_rendered]
    exact (passes_settle c q fill).assemble (plain_scoping _)
  generalize c.assemble q = x at hassemble ⊢
  generalize c.assemble (q.settled .rendered fill) = y at hassemble ⊢
  cases hassemble with
  | ok hfg => exact .inr ⟨nofun, congrArg Except.ok (hfg.eq rfl).symm⟩
  | error he =>
    obtain ⟨rfl, hfixed⟩ := he
    refine .inr ⟨?_, rfl⟩
    rintro _ ⟨⟩
    exact hfixed
  | spared he _ =>
    obtain ⟨name, hname, rfl⟩ := he
    exact .inl ⟨name, hname, rfl⟩

theorem fixed_expandMarkers {placeholder sql : String} {bindings : List Value} {e : Fault}
    (h : expandMarkers placeholder bindings sql = .error e) : e.Fixed := by
  unfold expandMarkers at h
  dsimp only at h
  split at h
  · cases h
    rintro name ⟨⟩
  · cases h

theorem fixed_output (h : ∀ e, c.assemble q = .error e → e.Fixed) (name : String) :
    c.output q ≠ .error (.undefinedVariable name) := by
  rw [output_eq]
  cases hx : c.assemble q with
  | error e =>
    rintro ⟨⟩
    exact h _ hx name rfl
  | ok f =>
    simp only [bind, Except.bind]
    cases hm : expandMarkers c.marker f.bindings f.sql with
    | error e =>
      rintro ⟨⟩
      exact fixed_expandMarkers hm name rfl
    | ok sql => rintro ⟨⟩

/-- A statement fails for a variable without a definition, or it compiles as it does with each
variable looked up, whatever is filled in for those without one. -/
def Settles (c : Compiler) (rule : Scoping) (q : Query) : Prop :=
  (∃ name ∈ q.missing rule, c.output q = .error (.undefinedVariable name)) ∨
    (∀ name, c.output q ≠ .error (.undefinedVariable name)) ∧
      ∀ fill, c.output (q.settled rule fill) = c.output q

/-- Variables are looked up as they are rendered, and by the lexical rule if no group, no target of
a join and no body that declares expressions has definitions of its own. If all that is defined and
filled in are literals, looking up leaves no variable where a value stands. -/
theorem compile_settles (c : Compiler) (q : Query) :
    c.Settles .rendered q ∧ (q.DefinesInSelects → c.Settles .lexical q) ∧
      ∀ rule fill, q.DefinesLiterals → (∀ name, (fill name).isLiteral = true) →
        ∀ d, (q.settled rule fill).Contains d → ∀ v ∈ d.kind.held, ∀ name, v ≠ .var name := by
  have hrendered : c.Settles .rendered q := by
    by_cases h : ∃ name ∈ q.missing .rendered, c.assemble q = .error (.undefinedVariable name)
    · obtain ⟨name, hname, he⟩ := h
      refine .inl ⟨name, hname, ?_⟩
      rw [output_eq, he]
      rfl
    · have hsettled (fill : String → Value) := (assemble_settled c q fill).resolve_left h
      refine .inr ⟨fixed_output (hsettled fun _ => .null).1, fun fill => ?_⟩
      rw [output_eq, output_eq, (hsettled fill).2]
  refine ⟨hrendered, fun hq => ?_, fun rule fill hq hfill => ?_⟩
  · unfold Settles at hrendered ⊢
    simpa only [hq.missing_eq, hq.settled_eq] using hrendered
  · exact (Subquery.of q).held_settle rule hfill .root ⟨nofun, nofun⟩ hq

def ordersOfRegion : Query where
  clauses := [⟨.source, none, .source (.table "orders")⟩,
    ⟨.filter, none, .condition ⟨.nested (.of {
      clauses := [⟨.filter, none, .condition ⟨.compare "total" ">" (.var "floor"), false, false⟩⟩,
        ⟨.filter, none,
          .condition ⟨.compare "region" "=" (.var "region"), true, false⟩⟩] }), false, false⟩⟩,
    ⟨.filter, none, .condition ⟨.rowsExist (.of {
      clauses := [⟨.source, none, .source (.table "items")⟩,
        ⟨.filter, none,
          .condition ⟨.between "price" (.var "floor") (.var "top"), false, false⟩⟩]
      vars := [("floor", .int 1)] }), false, false⟩⟩,
    ⟨.cte, none, .source (.query (.of {
      clauses := [⟨.source, none, .source (.table "sales")⟩,
        ⟨.filter, none,
          .condition ⟨.oneOf "region" [.var "region", .var "top"], false, false⟩⟩]
      vars := [("region", .string "north")] }) (some "big"))⟩]
  vars := [("floor", .int 10), ("region", .string "south"), ("top", .int 20)]

theorem compile_settles_ordersOfRegion :
    ordersOfRegion.DefinesInSelects ∧ ordersOfRegion.DefinesLiterals ∧
      ordersOfRegion.missing .lexical = [] ∧
      ((ofEngine .postgres).assemble ordersOfRegion).toOption.map (·.bindings) =
        some [.string "north", .int 20, .int 10, .string "south", .int 1, .int 20] ∧
      (ofEngine .postgres).Settles .lexical ordersOfRegion ∧
      ∀ d, (ordersOfRegion.settled .lexical fun _ => .null).Contains d →
        ∀ v ∈ d.kind.held, ∀ name, v ≠ .var name := by
  have hflat : ∀ d ∈ ordersOfRegion.clauses, ∀ n ∈ d.kind.parts,
      (n.1 ≠ .select → n.2.statement.vars = []) ∧
        (∀ d ∈ n.2.statement.clauses, d.component ≠ .cte) ∧
        n.2.statement.vars.all (·.2.isLiteral) = true ∧ n.2.statement.nested = [] := by
    decide
  have hselects : ordersOfRegion.DefinesInSelects := by
    refine Query.forall_nests.mpr fun d hd n hn => ?_
    obtain ⟨hown, hctes, -, hnested⟩ := hflat d hd n hn
    refine ⟨⟨hown, ?_⟩, fun _ _ _ h => absurd h (Query.not_nests hnested)⟩
    rintro - ⟨d', hd', hc⟩
    exact absurd hc (hctes d' hd')
  have hliterals : ordersOfRegion.DefinesLiterals := by
    refine ⟨.of_all rfl, Query.forall_nests.mpr fun d hd n hn => ?_⟩
    obtain ⟨-, -, hvars, hnested⟩ := hflat d hd n hn
    exact ⟨.of_all hvars, fun _ _ _ h => absurd h (Query.not_nests hnested)⟩
  obtain ⟨-, hlexical, hvanish⟩ := (ofEngine .postgres).compile_settles ordersOfRegion
  exact ⟨hselects, hliterals, rfl, rfl, hlexical hselects,
    hvanish .lexical (fun _ => .null) hliterals fun _ => rfl⟩

def groupDefining : Query where
  clauses := [⟨.source, none, .source (.table "t")⟩,
    ⟨.filter, none, .condition ⟨.nested (.of {
      clauses := [⟨.filter, none, .condition ⟨.compare "a" "=" (.var "x"), false, false⟩⟩]
      vars := [("x", .int 1)] }), false, false⟩⟩]

def targetDefining : Query where
  clauses := [⟨.source, none, .source (.table "t")⟩,
    ⟨.join, none, .join ⟨.inner, .of {
      clauses := [⟨.source, none, .source (.table "u")⟩,
        ⟨.filter, none, .condition ⟨.columns "t.id" "=" "u.id", false, false⟩⟩,
        ⟨.filter, none, .condition ⟨.compare "a" "=" (.var "x"), false, false⟩⟩]
      vars := [("x", .int 1)] }⟩⟩]

def bodyDefining : Query where
  clauses := [⟨.source, none, .source (.table "o")⟩,
    ⟨.cte, none, .source (.query (.of {
      clauses := [⟨.source, none, .source (.table "i")⟩,
        ⟨.cte, none, .source (.query (.of {
          clauses := [⟨.source, none, .source (.table "t")⟩,
            ⟨.filter, none, .condition ⟨.compare "a" "=" (.var "x"), false, false⟩⟩] })
          (some "i"))⟩]
      vars := [("x", .int 1)] }) (some "o"))⟩]

theorem not_settles {rule : Scoping} {name : String} (hm : q.missing rule = [])
    (ho : c.output q = .error (.undefinedVariable name)) : ¬ c.Settles rule q := by
  rintro (⟨name, hname, -⟩ | ⟨hne, -⟩)
  · rw [hm] at hname
    cases hname
  · exact hne name ho

/-- What is rendered is not what the lexical rule says. No definition is missing, and yet a
variable is reported. -/
theorem not_settles_lexical :
    (groupDefining.missing .lexical = [] ∧
      (ofEngine .generic).output groupDefining = .error (.undefinedVariable "x") ∧
      ¬ (ofEngine .generic).Settles .lexical groupDefining) ∧
    (targetDefining.missing .lexical = [] ∧
      (ofEngine .generic).output targetDefining = .error (.undefinedVariable "x") ∧
      ¬ (ofEngine .generic).Settles .lexical targetDefining) ∧
    (bodyDefining.missing .lexical = [] ∧
      (ofEngine .generic).output bodyDefining = .error (.undefinedVariable "x") ∧
      ¬ (ofEngine .generic).Settles .lexical bodyDefining) :=
  ⟨⟨rfl, rfl, not_settles rfl rfl⟩, ⟨rfl, rfl, not_settles rfl rfl⟩,
    ⟨rfl, rfl, not_settles rfl rfl⟩⟩

end Compiler

end SqlDialects
