import SqlDialects.Proofs.Statement.Terms
import SqlDialects.Render.Cte

/-! Where the common table expressions of a statement come from. -/

namespace SqlDialects

variable {e : Engine}

def Source.innerCtes (e : Engine) (seen : List String) :
    Source Subquery → Except Fault (List (Source Subquery) × List String)
  | query body _ => body.findCtes e seen
  | _ => .ok ([], seen)

theorem findCtes_of (q : Query) (seen : List String) :
    Subquery.findCtes e seen (.of q) =
      ((q.bucket .cte (some e)).mapM (·.view .cte ClauseKind.source?) >>= fun _ =>
        walkCtes e seen q.clauses) := by
  unfold Subquery.findCtes
  rfl

theorem walkCtes_of_findCtes {q : Query} {seen : List String}
    {found : List (Source Subquery) × List String}
    (h : Subquery.findCtes e seen (.of q) = .ok found) : walkCtes e seen q.clauses = .ok found := by
  rw [findCtes_of] at h
  obtain ⟨_, -, h⟩ := bind_eq_ok h
  exact h

theorem Query.ctes_eq_ok {q : Query} {found : List (Source Subquery)} (h : q.ctes e = .ok found) :
    ∃ seen, Subquery.findCtes e [] (.of q) = .ok (found, seen) := by
  obtain ⟨⟨_, seen⟩, hf, rfl⟩ := map_eq_ok h
  exact ⟨seen, hf⟩

theorem walkCtes_source (component : Component) (scope : Option Engine) (s : Source Subquery)
    (seen : List String) (rest : List (Clause Subquery)) :
    walkCtes e seen (⟨component, scope, .source s⟩ :: rest) =
      if !isCte e ⟨component, scope, .source s⟩ || seen.contains (s.alias?.getD "") then
        walkCtes e seen rest
      else do
        let (inner, seen) ← s.innerCtes e (s.alias?.getD "" :: seen)
        let (later, seen) ← walkCtes e seen rest
        return (inner ++ s :: later, seen) := by
  cases s <;> rfl

theorem walkCtes_other {component : Component} {scope : Option Engine}
    {kind : ClauseKind Subquery} (h : ∀ s, kind ≠ .source s) (seen : List String)
    (rest : List (Clause Subquery)) :
    walkCtes e seen (⟨component, scope, kind⟩ :: rest) = walkCtes e seen rest := by
  cases kind with
  | source s => exact absurd rfl (h s)
  | _ => rfl

theorem walkCtes_filter (cs : List (Clause Subquery)) (seen : List String) :
    walkCtes e seen (cs.filter (isCte e)) = walkCtes e seen cs := by
  induction cs generalizing seen with
  | nil => rfl
  | cons c cs ih =>
    obtain ⟨component, scope, kind⟩ := c
    by_cases hk : ∃ s, kind = .source s
    · obtain ⟨s, rfl⟩ := hk
      rw [walkCtes_source]
      by_cases hv : isCte e ⟨component, scope, .source s⟩
      · rw [List.filter_cons_of_pos hv, walkCtes_source]
        simp only [ih]
      · rw [List.filter_cons_of_neg hv, ih]
        simp [hv]
    · have hk : ∀ s, kind ≠ .source s := fun s hs => hk ⟨s, hs⟩
      rw [walkCtes_other hk, ← ih, List.filter_cons]
      split
      · exact walkCtes_other hk seen _
      · rfl

theorem Query.ctes_congr {p q : Query} (h : p.bucket .cte (some e) = q.bucket .cte (some e)) :
    p.ctes e = q.ctes e := by
  have hwalk (q : Query) : walkCtes e [] q.clauses = walkCtes e [] (q.bucket .cte (some e)) :=
    (walkCtes_filter q.clauses []).symm
  rw [ctes, findCtes_of, hwalk, h, ← hwalk, ← findCtes_of, ctes]

theorem Query.ctes_of_none {q : Query} (h : q.has .cte (some e) = false) : q.ctes e = .ok [] := by
  have hnone : q.bucket .cte (some e) = ({} : Query).bucket .cte (some e) :=
    Statement.bucket_eq_nil h
  exact (Query.ctes_congr hnone).trans rfl

def Source.cteName (s : Source Subquery) : String := s.alias?.getD ""

theorem walkCtes_source_ok {component : Component} {scope : Option Engine} {s : Source Subquery}
    {seen : List String} {rest : List (Clause Subquery)}
    {found : List (Source Subquery) × List String}
    (h : walkCtes e seen (⟨component, scope, .source s⟩ :: rest) = .ok found) :
    (isCte e ⟨component, scope, .source s⟩ = true → s.cteName ∈ seen) ∧
        walkCtes e seen rest = .ok found ∨
      isCte e ⟨component, scope, .source s⟩ = true ∧ s.cteName ∉ seen ∧
        ∃ inner later, s.innerCtes e (s.cteName :: seen) = .ok inner ∧
          walkCtes e inner.2 rest = .ok later ∧ found = (inner.1 ++ s :: later.1, later.2) := by
  rw [walkCtes_source] at h
  change (if !isCte e _ || seen.contains s.cteName then _ else _) = _ at h
  split at h
  · next hv => exact .inl ⟨fun hc => by simpa [hc] using hv, h⟩
  · next hv =>
    simp only [Bool.or_eq_true, Bool.not_eq_true', not_or, Bool.not_eq_false,
      List.contains_iff_mem] at hv
    obtain ⟨inner, hi, h⟩ := bind_eq_ok h
    obtain ⟨later, hl, h⟩ := bind_eq_ok h
    cases h
    exact .inr ⟨hv.1, hv.2, inner, later, hi, hl, rfl⟩

/-- The expression stands in the statement, or inside the body of one that does. -/
inductive Defines (e : Engine) : Query → Source Subquery → Prop
  | here {q : Query} {c : Clause Subquery} {s : Source Subquery}
      (hc : c ∈ q.bucket .cte (some e)) (hs : c.kind = .source s) : Defines e q s
  | inside {q body : Query} {c : Clause Subquery} {aliasName : Option String}
      {s : Source Subquery} (hc : c ∈ q.bucket .cte (some e))
      (hb : c.kind = .source (.query (.of body) aliasName)) (hs : Defines e body s) :
      Defines e q s

theorem defines_of_walkCtes {q : Query} {cs : List (Clause Subquery)}
    (hcs : ∀ c ∈ cs, c ∈ q.clauses)
    (ih : ∀ n ∈ q.nested, ∀ seen found, Subquery.findCtes e seen n = .ok found →
      ∀ s ∈ found.1, Defines e n.statement s)
    {seen : List String} {found : List (Source Subquery) × List String}
    (h : walkCtes e seen cs = .ok found) : ∀ s ∈ found.1, Defines e q s := by
  induction cs generalizing seen found with
  | nil =>
    cases h
    rintro s ⟨⟩
  | cons c cs ihcs =>
    have hc := hcs c List.mem_cons_self
    have hrest := fun c hm => hcs c (List.mem_cons_of_mem _ hm)
    obtain ⟨component, scope, kind⟩ := c
    by_cases hk : ∃ s, kind = .source s
    · obtain ⟨s, rfl⟩ := hk
      rcases walkCtes_source_ok h with ⟨-, h⟩ | ⟨hv, -, inner, later, hi, hl, rfl⟩
      · exact ihcs hrest h
      · have hb := Statement.mem_bucket.mpr ⟨hc, hv⟩
        intro x hx
        rcases List.mem_append.mp hx with hin | hlater
        · cases s with
          | query body aliasName =>
            obtain ⟨p⟩ := body
            have hn : Subquery.of p ∈ q.nested :=
              Statement.mem_nested.mpr ⟨_, hc, List.mem_singleton.mpr rfl⟩
            exact .inside hb rfl (ih _ hn _ _ hi x hin)
          | table name =>
            cases hi
            cases hin
          | raw sql bindings aliasName =>
            cases hi
            cases hin
        · rcases List.mem_cons.mp hlater with rfl | hlater
          · exact .here hb rfl
          · exact ihcs hrest hl x hlater
    · have hk : ∀ s, kind ≠ .source s := fun s hs => hk ⟨s, hs⟩
      rw [walkCtes_other hk] at h
      exact ihcs hrest h

theorem defines_of_findCtes (n : Subquery) : ∀ seen found, Subquery.findCtes e seen n = .ok found →
    ∀ s ∈ found.1, Defines e n.statement s := by
  induction n using Subquery.induction with
  | step q ih =>
    intro seen found h
    exact defines_of_walkCtes (fun c hc => hc) ih (walkCtes_of_findCtes h)

theorem defines_of_mem_ctes {q : Query} {found : List (Source Subquery)}
    (h : q.ctes e = .ok found) {s : Source Subquery} (hs : s ∈ found) : Defines e q s := by
  obtain ⟨_, hf⟩ := Query.ctes_eq_ok h
  exact defines_of_findCtes (.of q) _ _ hf s hs

/-- What holds of all that is nested in a statement holds of the bodies of its expressions, if it
goes on to what is nested there. -/
theorem Defines.body {P : Subquery → Prop} (hP : ∀ p : Query, P (.of p) → ∀ n ∈ p.nested, P n)
    {q : Query} {s : Source Subquery} (h : Defines e q s) (hq : ∀ n ∈ q.nested, P n) {n : Subquery}
    {aliasName : Option String} (hs : s = .query n aliasName) : P n := by
  have hnested {p : Query} {n : Subquery} {d : Clause Subquery} {aliasName : Option String}
      (hd : d ∈ p.bucket .cte (some e)) (hn : d.kind = .source (.query n aliasName)) :
      n ∈ p.nested :=
    Statement.mem_nested_of_part (Statement.mem_bucket.mp hd).1 (ClauseKind.part_of_source hn)
  induction h with
  | here hd hk =>
    rw [hs] at hk
    exact hq n (hnested hd hk)
  | inside hd hb _ ih => exact ih (hP _ (hq _ (hnested hd hb))) hs

theorem Defines.obeys {t : Terms} {q : Query} {s : Source Subquery} (h : Defines e q s)
    (hq : q.Obeys t) : s.Obeys t (Subquery.Obeys t) := by
  induction h with
  | here hc hs =>
    have hk := Statement.Obeys.kind hq hc
    rw [hs] at hk
    exact hk
  | inside hc hb _ ih =>
    have hk := Statement.Obeys.kind hq hc
    rw [hb] at hk
    exact ih (Subquery.obeys_of.mp hk.1)

end SqlDialects
