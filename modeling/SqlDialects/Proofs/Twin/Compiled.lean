import SqlDialects.Proofs.Outcome.Phases
import SqlDialects.Proofs.Twin.Rows

/-! Whole statements that are alike have the same SQL before placeholders are expanded. -/

namespace SqlDialects

variable {t : Tie} {e : Engine}

def Source.FoundAlike (t : Tie) (e : Engine) (a b : List (Source Subquery) × List String) : Prop :=
  List.Forall₂ (Source.Alike t (Subquery.Alike t e)) a.1 b.1 ∧ a.2 = b.2

theorem Source.Alike.alias? {s s' : Source Subquery} (h : s.Alike t (Subquery.Alike t e) s') :
    s.alias? = s'.alias? := by
  cases h with
  | table name => rfl
  | raw sql h aliasName => rfl
  | query h aliasName =>
    obtain ⟨h⟩ := h
    exact congrArg aliasName.or h.aliasName

theorem walkCtes_alike {cs ds : List (Clause Subquery)}
    (h : List.Forall₂ (Clause.Alike t (Subquery.Alike t e)) cs ds)
    (ih : ∀ c ∈ cs, ∀ m ∈ c.kind.nested, ∀ n, Subquery.Alike t e m n → ∀ seen,
      t.Yields (Source.FoundAlike t e) (m.findCtes e seen) (n.findCtes e seen))
    (seen : List String) :
    t.Yields (Source.FoundAlike t e) (walkCtes e seen cs) (walkCtes e seen ds) := by
  induction h generalizing seen with
  | nil => exact .ok ⟨.nil, rfl⟩
  | cons hc _ ihcs =>
    have hrest := ihcs fun c hm => ih c (List.mem_cons_of_mem _ hm)
    have hhead := ih _ List.mem_cons_self
    obtain ⟨component, scope, hk⟩ := hc
    cases hk with
    | @source s s' hs =>
      have hinner (seen : List String) :
          t.Yields (Source.FoundAlike t e) (s.innerCtes e seen) (s'.innerCtes e seen) := by
        cases hs with
        | table name => exact .ok ⟨.nil, rfl⟩
        | raw sql h aliasName => exact .ok ⟨.nil, rfl⟩
        | query h aliasName => exact hhead _ (List.mem_singleton.mpr rfl) _ h seen
      rw [walkCtes_source, walkCtes_source, hs.alias?]
      have hv : isCte e ⟨component, scope, .source s⟩ =
          isCte e ⟨component, scope, .source s'⟩ := rfl
      rw [hv]
      split
      · exact hrest seen
      · refine (hinner _).bind fun a b hab => ?_
        obtain ⟨inner, seen⟩ := a
        obtain ⟨inner', _⟩ := b
        obtain ⟨hinner, rfl⟩ := hab
        refine (hrest seen).bind fun a b hab => ?_
        exact .ok ⟨List.rel_append hinner (.cons hs hab.1), hab.2⟩
    | _ => exact hrest seen

theorem findCtes_alike (hf : ∀ e, t.fault e e) (m : Subquery) : ∀ n, Subquery.Alike t e m n →
    ∀ seen, t.Yields (Source.FoundAlike t e) (m.findCtes e seen) (n.findCtes e seen) := by
  induction m using Subquery.induction with
  | step p ih =>
    intro n hn seen
    obtain @⟨_, q, hp⟩ := hn
    rw [findCtes_of, findCtes_of]
    refine (Statement.Alike.getAll hf hp ClauseKind.Alike.source? .cte).bind fun _ _ _ => ?_
    rw [← walkCtes_filter p.clauses, ← walkCtes_filter q.clauses]
    refine walkCtes_alike (hp.bucket .cte) (fun c hc m hm => ih m ?_) seen
    exact Statement.mem_nested.mpr ⟨c, List.mem_of_mem_filter hc, hm⟩

theorem Tie.Fragments.append {a b f g : Fragment} (hab : t.Fragments a b)
    (hfg : t.Fragments f g) : t.Fragments (a ++ f) (b ++ g) :=
  ⟨congrArg₂ (· ++ ·) hab.1 hfg.1, List.rel_append hab.2 hfg.2⟩

theorem Tie.Fragments.defining {fs gs : List Fragment} (h : List.Forall₂ t.Fragments fs gs) :
    t.Fragments (.defining fs) (.defining gs) := by
  have htexts : fs.map (fun f => Text.trim f.sql) = gs.map (fun f => Text.trim f.sql) := by
    refine List.forall₂_eq_eq_eq ▸ List.rel_map (fun f g hfg => ?_) h
    rw [hfg.1]
  have hempty : fs.isEmpty = gs.isEmpty := by cases h <;> rfl
  refine ⟨?_, List.rel_flatMap h fun f g hfg => hfg.2⟩
  rw [Fragment.defining, Fragment.defining, htexts, hempty]

namespace Tie.Holds

open Compiler

variable {c d : Compiler} (h : t.Holds c d) {p q : Query}
  (hp : p.Alike t d.engine (Subquery.Alike t d.engine) q)

include h hp

theorem ctes : t.Yields (List.Forall₂ (Source.Alike t (Subquery.Alike t d.engine)))
    (p.ctes d.engine) (q.ctes d.engine) :=
  (findCtes_alike h.fault _ _ (.of hp) []).map fun _ _ h => h.1

theorem cteDefinition {s s' : Source Subquery}
    (hx : s.Alike t (Subquery.Alike t d.engine) s') :
    t.Yields t.Fragments (c.cteDefinition p s) (d.cteDefinition q s') := by
  unfold Compiler.cteDefinition
  rw [hx.alias?]
  cases s'.alias? with
  | none => exact .error (h.fault _)
  | some name =>
    dsimp only
    split
    · exact .error (h.fault _)
    · cases hx with
      | table name => exact .error (h.fault _)
      | raw sql hb aliasName =>
        dsimp only
        rw [h.engine]
        exact .ok ⟨rfl, hb⟩
      | query hq aliasName =>
        dsimp only
        rw [h.engine]
        have hscopes := h.push hp.vars h.noScopes
        refine ((h.rendering _ _ hq).select hscopes).bind fun f g hfg => ?_
        rw [hfg.1]
        exact .ok ⟨rfl, hfg.2⟩

theorem front : t.Yields t.Fragments (c.front p) (d.front q) := by
  unfold Compiler.front
  rw [h.engine]
  refine (h.ctes hp).bind fun xs ys hxy => ?_
  have hdefinitions := Yields.mapM hxy fun s s' hs => h.cteDefinition hp hs
  exact hdefinitions.bind fun fs gs hfs => .ok (.defining hfs)

theorem body : t.Yields t.Fragments (c.body p) (d.body q) := by
  have hscopes := h.push hp.vars h.noScopes
  have hprepared := h.prepare hp
  unfold Compiler.body
  rw [hp.method, h.engine]
  dsimp only
  cases q.method with
  | select => exact h.select h.noScopes hprepared
  | aggregate =>
    refine (hp.aggregated h.fault h.noVars).bind fun p' q' hp' => ?_
    exact h.select h.noScopes (h.prepare hp')
  | insert => exact (h.insertText hscopes hprepared).toFragment
  | update => exact (h.updateText hscopes hprepared .update).toFragment
  | assign => exact (h.updateText hscopes hprepared .assign).toFragment
  | delete => exact (h.deleteText hscopes hprepared).toFragment

theorem assemble : t.Yields t.Fragments (c.assemble p) (d.assemble q) := by
  rw [assemble_eq, assemble_eq]
  refine (h.body hp).bind fun f g hfg => ?_
  exact (h.front hp).bind fun a b hab => .ok (hab.append hfg)

end Tie.Holds

end SqlDialects
