import SqlDialects.Proofs.Twin.Compiled

/-!
Clauses for other engines. A statement compiles to the same, with the same bindings or the same
fault, when all of them are left out at every depth.
-/

namespace SqlDialects

variable {σ : Type}

def Clause.isFor (e : Engine) (c : Clause σ) : Bool := c.engine.isNone || c.engine == some e

/-- The statement without its own clauses for other engines. -/
def Statement.dropForeign (e : Engine) (q : Statement σ) : Statement σ :=
  { q with clauses := q.clauses.filter (·.isFor e) }

def Subquery.onlyFor (e : Engine) : Subquery → Subquery :=
  Subquery.fold fun q => .of (q.dropForeign e)

def Query.onlyFor (e : Engine) (q : Query) : Query :=
  Statement.dropForeign e (q.map (Subquery.onlyFor e))

/-- The clause stands in the statement, or in one nested in it. -/
inductive Query.Contains : Query → Clause Subquery → Prop
  | here {q : Query} {c : Clause Subquery} (hc : c ∈ q.clauses) : Contains q c
  | inside {q body : Query} {c : Clause Subquery} (hb : Subquery.of body ∈ q.nested)
      (hc : Contains body c) : Contains q c

theorem Query.forall_contains {P : Clause Subquery → Prop} {q : Query} :
    (∀ d, Query.Contains (Subquery.of q).statement d → P d) ↔
      ∀ d ∈ q.clauses, P d ∧ ∀ n ∈ d.kind.nested, ∀ c, Query.Contains n.statement c → P c := by
  constructor
  · intro h d hd
    refine ⟨h d (.here hd), fun ⟨n⟩ hn c hc => h c (.inside ?_ hc)⟩
    exact Statement.mem_nested.mpr ⟨d, hd, hn⟩
  · intro h d hd
    cases hd with
    | here hd => exact (h d hd).1
    | inside hb hc =>
      obtain ⟨d', hd', hn⟩ := Statement.mem_nested.mp hb
      exact (h d' hd').2 _ hn d hc

def agreement : Tie where
  value := Eq
  bound := Eq
  vars := Eq
  scopes := Eq
  fault := Eq
  spared _ := False

variable {e : Engine}

theorem Subquery.onlyFor_of (q : Query) : (Subquery.of q).onlyFor e = .of (q.onlyFor e) := by
  rw [onlyFor, fold_of]
  rfl

theorem Subquery.isFor_of_contains (n : Subquery) :
    ∀ c, Query.Contains (n.onlyFor e).statement c → c.isFor e := by
  induction n using Subquery.induction with
  | step q ih =>
    intro c h
    rw [onlyFor_of] at h
    cases h with
    | here hc => exact (List.mem_filter.mp hc).2
    | @inside _ body _ hb hc =>
      obtain ⟨_, hd, hbody⟩ := Statement.mem_nested.mp hb
      obtain ⟨d, hm, rfl⟩ := List.mem_map.mp (List.mem_of_mem_filter hd)
      obtain ⟨n, hn, heq⟩ := List.mem_map.mp (d.kind.nested_map (onlyFor e) ▸ hbody)
      refine ih n (Statement.mem_nested.mpr ⟨d, hm, hn⟩) c ?_
      rw [heq]
      exact hc

theorem Statement.alike_dropForeign {f : Subquery → Subquery} {q : Query}
    (hf : ∀ n ∈ q.nested, Subquery.Alike agreement e n (f n)) :
    q.Alike agreement e (Subquery.Alike agreement e) (Statement.dropForeign e (q.map f)) := by
  obtain ⟨method, aliasName, distinct, clauses, vars, scope, pendingOr, pendingNot⟩ := q
  refine .mk method aliasName distinct scope pendingOr pendingNot rfl fun component => ?_
  have hvisible : ((clauses.map (·.map f)).filter (·.isFor e)).filter
      (·.visible component (some e)) =
        (clauses.filter (·.visible component (some e))).map (·.map f) := by
    rw [List.filter_filter, List.filter_map]
    refine congrArg _ (List.filter_congr fun c _ => ?_)
    simp only [Function.comp_apply, Clause.visible, Clause.isFor, Clause.map]
    cases c.engine <;> simp
  show List.Forall₂ _ _ (((clauses.map (·.map f)).filter (·.isFor e)).filter
    (·.visible component (some e)))
  rw [hvisible, List.forall₂_map_right_iff, List.forall₂_same]
  intro c hc
  refine .mk c.component c.engine ?_
  have hself : c.kind.Alike agreement Eq c.kind :=
    .refl (fun _ _ => rfl) (fun _ _ => rfl) fun _ _ => rfl
  have hmapped := hself.map (f := id) (g := f) (S := Subquery.Alike agreement e) ?_
  · rwa [ClauseKind.map_id] at hmapped
  · rintro n hn _ rfl
    exact hf n (mem_nested.mpr ⟨c, List.mem_of_mem_filter hc, hn⟩)

theorem Subquery.alike_onlyFor (n : Subquery) : Subquery.Alike agreement e n (n.onlyFor e) := by
  induction n using Subquery.induction with
  | step q ih =>
    rw [onlyFor_of]
    exact .of (Statement.alike_dropForeign ih)

namespace Compiler

variable (c : Compiler)

theorem agreement_refl {α : Type} (x : Emit α) : agreement.Emits Eq x x :=
  .refl (fun _ => rfl) fun _ _ => rfl

theorem agreement_fragments_refl (x : Except Fault Fragment) :
    agreement.Yields agreement.Fragments x x :=
  (Tie.Yields.refl (fun _ => rfl) x).imp fun _ _ h =>
    h ▸ ⟨rfl, List.forall₂_same.mpr fun _ _ => rfl⟩

theorem holds_agreement : agreement.Holds c c where
  engine := rfl
  paging := rfl
  fault _ := rfl
  uint _ := rfl
  noVars := rfl
  noScopes := rfl
  push := by
    rintro vs _ ss _ rfl rfl
    rfl
  operator _ := .refl (fun _ => rfl) _
  parameter := by
    rintro ss _ v _ rfl rfl
    exact agreement_refl _
  like := by
    rintro ss _ v _ rfl rfl
    exact fun _ _ _ _ _ => agreement_refl _

theorem agreement_eq {x y : Except Fault Fragment} (h : agreement.Yields agreement.Fragments x y) :
    x = y := by
  cases h with
  | ok hfg => exact congrArg Except.ok (hfg.eq rfl)
  | error he => exact congrArg Except.error he
  | spared hs _ => exact hs.elim

theorem assemble_eq_of_alike {p q : Query}
    (h : p.Alike agreement c.engine (Subquery.Alike agreement c.engine) q) :
    c.assemble p = c.assemble q :=
  agreement_eq (c.holds_agreement.assemble h)

/-- Nothing that is for another engine reaches the outcome: without the clauses for other engines,
at any depth, a statement compiles to the same SQL with the same bindings under the same names,
or fails with the same fault. -/
theorem compile_onlyFor (q : Query) :
    (∀ x, (q.onlyFor c.engine).Contains x → x.isFor c.engine) ∧
      ((∃ r s, c.compile q = .ok r ∧ c.compile (q.onlyFor c.engine) = .ok s ∧
          r.rawSql = s.rawSql ∧ r.sql = s.sql ∧ r.bindings = s.bindings ∧ r.named = s.named) ∨
        ∃ e, c.compile q = .error e ∧ c.compile (q.onlyFor c.engine) = .error e) := by
  have hcontains := (Subquery.of q).isFor_of_contains (e := c.engine)
  rw [Subquery.onlyFor_of] at hcontains
  refine ⟨hcontains, ?_⟩
  have hassemble : c.assemble q = c.assemble (q.onlyFor c.engine) :=
    c.assemble_eq_of_alike (Statement.alike_dropForeign fun n _ => n.alike_onlyFor)
  unfold compile compileRaw
  rw [← hassemble]
  cases c.assemble q with
  | error e => exact .inr ⟨e, rfl, rfl⟩
  | ok f =>
    simp only [bind, Except.bind]
    cases expandMarkers c.marker f.bindings f.sql with
    | error e => exact .inr ⟨e, rfl, rfl⟩
    | ok sql => exact .inl ⟨_, _, rfl, rfl, rfl, rfl, rfl, rfl⟩

end Compiler

end SqlDialects
