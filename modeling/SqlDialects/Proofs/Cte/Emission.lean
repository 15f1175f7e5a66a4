import SqlDialects.Proofs.Cte.Walk

/-!
The order in which expressions are emitted. What is found inside the body of an expression comes
right before it, so a name is missing before its user only while the walk is inside the expression
of that name.
-/

namespace SqlDialects

variable {e : Engine}

/-- Each expression is the first of its name among those met, no name comes twice, and what its
body declares was emitted before, unless it bears the name of an expression that it stands in. -/
def Emitted (e : Engine) (met : List Sighting) : List String → List (Source Subquery) → Prop
  | _, [] => True
  | done, s :: rest =>
    s.cteName ∉ done ∧
    (∃ enclosing, met.find? (·.isOf s.cteName) = some ⟨s, enclosing⟩ ∧
      ∀ d ∈ s.declared e, d.cteName ∈ done ∨ d.cteName ∈ (s :: enclosing).map Source.cteName) ∧
    Emitted e met (done ++ [s.cteName]) rest

namespace Emitted

variable {met met' : List Sighting} {done : List String} {xs ys : List (Source Subquery)}

theorem append (hx : Emitted e met done xs)
    (hy : Emitted e met (done ++ xs.map Source.cteName) ys) : Emitted e met done (xs ++ ys) := by
  induction xs generalizing done with
  | nil => simpa using hy
  | cons x xs ih => exact ⟨hx.1, hx.2.1, ih hx.2.2 (by simpa using hy)⟩

theorem mono (hm : met <+: met') (hx : Emitted e met done xs) : Emitted e met' done xs := by
  induction xs generalizing done with
  | nil => trivial
  | cons x xs ih =>
    obtain ⟨hn, ⟨enclosing, hf, hd⟩, hr⟩ := hx
    exact ⟨hn, ⟨enclosing, List.IsPrefix.find?_eq_some hm hf, hd⟩, ih hr⟩

theorem nodup (hd : done.Nodup) (hx : Emitted e met done xs) :
    (done ++ xs.map Source.cteName).Nodup := by
  induction xs generalizing done with
  | nil => simpa using hd
  | cons x xs ih =>
    have hd' : (done ++ [x.cteName]).Nodup := List.nodup_append.mpr ⟨hd, by simp, by
      rintro n hn _ hm rfl
      exact hx.1 (List.mem_singleton.mp hm ▸ hn)⟩
    simpa using ih hd' hx.2.2

theorem at_mem (hx : Emitted e met done xs) {s : Source Subquery} (hs : s ∈ xs) :
    ∃ before after enclosing, xs = before ++ s :: after ∧
      met.find? (·.isOf s.cteName) = some ⟨s, enclosing⟩ ∧
      ∀ d ∈ s.declared e, d.cteName ∈ done ++ before.map Source.cteName ∨
        d.cteName ∈ (s :: enclosing).map Source.cteName := by
  induction xs generalizing done with
  | nil => cases hs
  | cons x xs ih =>
    obtain ⟨-, ⟨enclosing, hf, hd⟩, hr⟩ := hx
    rcases List.mem_cons.mp hs with rfl | hs
    · exact ⟨[], xs, enclosing, rfl, hf, by simpa using hd⟩
    · obtain ⟨before, after, enclosing, rfl, hf, hd⟩ := ih hr hs
      exact ⟨x :: before, after, enclosing, rfl, hf, by simpa using hd⟩

end Emitted

/-- The names seen are those of the expressions met, and those are emitted or stand around. -/
structure Tracks (seen done : List String) (enclosing : List (Source Subquery))
    (met : List Sighting) : Prop where
  finished : ∀ n, n ∈ seen ↔ n ∈ done ∨ n ∈ enclosing.map Source.cteName
  met : ∀ n, n ∈ seen ↔ met.any (·.isOf n)

namespace Tracks

variable {seen done : List String} {enclosing : List (Source Subquery)} {met : List Sighting}
  {s : Source Subquery}

theorem again (h : Tracks seen done enclosing met) (hs : s.cteName ∈ seen) :
    Tracks seen done enclosing (met ++ [⟨s, enclosing⟩]) where
  finished := h.finished
  met n := by
    rw [List.any_append, Bool.or_eq_true, ← h.met]
    simp only [List.any_cons, List.any_nil, Bool.or_false, Sighting.isOf, beq_iff_eq]
    exact ⟨.inl, fun hn => hn.elim id (· ▸ hs)⟩

theorem enter (h : Tracks seen done enclosing met) :
    Tracks (s.cteName :: seen) done (s :: enclosing) (met ++ [⟨s, enclosing⟩]) where
  finished n := by
    simp only [List.mem_cons, h.finished, List.map_cons]
    tauto
  met n := by
    rw [List.any_append, Bool.or_eq_true, ← h.met, List.mem_cons]
    simp only [List.any_cons, List.any_nil, Bool.or_false, Sighting.isOf, beq_iff_eq]
    tauto

theorem leave (h : Tracks seen done (s :: enclosing) met) :
    Tracks seen (done ++ [s.cteName]) enclosing met where
  finished n := by
    simp only [h.finished, List.map_cons, List.mem_cons, List.mem_append, List.not_mem_nil,
      or_false]
    tauto
  met := h.met

theorem first (h : Tracks seen done enclosing met) (hs : s.cteName ∉ seen) :
    (met ++ [(⟨s, enclosing⟩ : Sighting)]).find? (·.isOf s.cteName) = some ⟨s, enclosing⟩ := by
  have hm : met.find? (·.isOf s.cteName) = none := by
    rw [h.met] at hs
    simpa using hs
  rw [List.find?_append, hm, Option.none_or]
  exact List.find?_cons_of_pos (beq_self_eq_true _)

end Tracks

/-- What a walk from `seen` and `met` to `after` and `met'` has emitted, where it came past
`passed`. -/
structure Emission (e : Engine) (seen done : List String) (enclosing : List (Source Subquery))
    (met met' : List Sighting) (passed emitted : List (Source Subquery)) (after : List String) :
    Prop where
  order : Emitted e met' done emitted
  tracks : Tracks after (done ++ emitted.map Source.cteName) enclosing met'
  grows : met <+: met'
  keeps : seen ⊆ after
  fresh : ∀ s ∈ emitted, s.cteName ∉ seen
  passed : ∀ s ∈ passed, s.cteName ∈ after
  closed : ∀ s ∈ emitted, ∀ d ∈ s.declared e, d.cteName ∈ after

namespace Emission

variable {seen done after : List String} {enclosing passed emitted : List (Source Subquery)}
  {met met' : List Sighting} {s : Source Subquery}

theorem nothing (h : Tracks seen done enclosing met) :
    Emission e seen done enclosing met met [] [] seen where
  order := trivial
  tracks := by simpa using h
  grows := List.prefix_refl met
  keeps := List.Subset.refl seen
  fresh := nofun
  passed := nofun
  closed := nofun

theorem again (hs : s.cteName ∈ seen)
    (h : Emission e seen done enclosing (met ++ [⟨s, enclosing⟩]) met' passed emitted after) :
    Emission e seen done enclosing met met' (s :: passed) emitted after where
  order := h.order
  tracks := h.tracks
  grows := (List.prefix_append met _).trans h.grows
  keeps := h.keeps
  fresh := h.fresh
  passed := List.forall_mem_cons.mpr ⟨h.keeps hs, h.passed⟩
  closed := h.closed

theorem visit {met₁ : List Sighting} {inner later : List (Source Subquery)}
    {seen₁ : List String} (ht : Tracks seen done enclosing met) (hs : s.cteName ∉ seen)
    (hi : Emission e (s.cteName :: seen) done (s :: enclosing) (met ++ [⟨s, enclosing⟩]) met₁
      (s.declared e) inner seen₁)
    (hl : Emission e seen₁ (done ++ (inner.map Source.cteName ++ [s.cteName])) enclosing met₁ met'
      passed later after) :
    Emission e seen done enclosing met met' (s :: passed) (inner ++ s :: later) after where
  -- Behind those of its body comes the expression itself: its name was entered, but not emitted.
  order := by
    refine (hi.order.mono hl.grows).append ⟨?_, ⟨enclosing, ?_, fun d hd => ?_⟩, ?_⟩
    · rintro hn
      rcases List.mem_append.mp hn with hn | hn
      · exact hs ((ht.finished _).mpr (.inl hn))
      · obtain ⟨x, hx, hxs⟩ := List.mem_map.mp hn
        exact hi.fresh x hx (hxs ▸ List.mem_cons_self)
    · exact List.IsPrefix.find?_eq_some (hi.grows.trans hl.grows) (ht.first hs)
    · exact (hi.tracks.finished _).mp (hi.passed d hd)
    · simpa only [List.append_assoc] using hl.order
  tracks := by
    have ht := hl.tracks
    simp only [List.append_assoc, List.singleton_append] at ht
    simpa only [List.map_append, List.map_cons] using ht
  grows := ((List.prefix_append met _).trans hi.grows).trans hl.grows
  keeps := fun n hn => hl.keeps (hi.keeps (List.mem_cons_of_mem _ hn))
  fresh := by
    intro x hx hn
    rcases List.mem_append.mp hx with hx | hx
    · exact hi.fresh x hx (List.mem_cons_of_mem _ hn)
    · rcases List.mem_cons.mp hx with rfl | hx
      · exact hs hn
      · exact hl.fresh x hx (hi.keeps (List.mem_cons_of_mem _ hn))
  passed := List.forall_mem_cons.mpr ⟨hl.keeps (hi.keeps List.mem_cons_self), hl.passed⟩
  closed := by
    intro x hx d hd
    rcases List.mem_append.mp hx with hx | hx
    · exact hl.keeps (hi.closed x hx d hd)
    · rcases List.mem_cons.mp hx with rfl | hx
      · exact hl.keeps (hi.passed d hd)
      · exact hl.closed x hx d hd

end Emission

def declaredIn (e : Engine) (cs : List (Clause Subquery)) : List (Source Subquery) :=
  (cs.filter (isCte e)).filterMap (·.kind.source?)

theorem declaredIn_source (component : Component) (scope : Option Engine) (s : Source Subquery)
    (cs : List (Clause Subquery)) :
    declaredIn e (⟨component, scope, .source s⟩ :: cs) =
      if isCte e ⟨component, scope, .source s⟩ then s :: declaredIn e cs else declaredIn e cs := by
  unfold declaredIn
  rw [List.filter_cons]
  split <;> rfl

theorem declaredIn_other {component : Component} {scope : Option Engine}
    {kind : ClauseKind Subquery} (h : ∀ s, kind ≠ .source s) (cs : List (Clause Subquery)) :
    declaredIn e (⟨component, scope, kind⟩ :: cs) = declaredIn e cs := by
  unfold declaredIn
  rw [List.filter_cons]
  split
  · cases kind with
    | source s => exact absurd rfl (h s)
    | _ => rfl
  · rfl

def Emits (e : Engine) (n : Subquery) : Prop :=
  ∀ {seen done enclosing met found}, Tracks seen done enclosing met →
    n.findCtes e seen = .ok found →
    Emission e seen done enclosing met (n.sightings e enclosing met) (n.statement.declared e)
      found.1 found.2

theorem Source.emission_innerCtes {s : Source Subquery} {seen done : List String}
    {enclosing : List (Source Subquery)} {met : List Sighting}
    {inner : List (Source Subquery) × List String}
    (hb : ∀ n ∈ (ClauseKind.source s).nested, Emits e n)
    (ht : Tracks seen done (s :: enclosing) met) (h : s.innerCtes e seen = .ok inner) :
    Emission e seen done (s :: enclosing) met (s.sightings e enclosing met) (s.declared e)
      inner.1 inner.2 := by
  cases s with
  | query body aliasName => exact hb body (List.mem_singleton.mpr rfl) ht h
  | table name =>
    cases h
    exact .nothing ht
  | raw sql bindings aliasName =>
    cases h
    exact .nothing ht

theorem emission_walkCtes {cs : List (Clause Subquery)}
    (hb : ∀ c ∈ cs, ∀ n ∈ c.kind.nested, Emits e n) {seen done : List String}
    {enclosing : List (Source Subquery)} {met : List Sighting}
    {found : List (Source Subquery) × List String} (ht : Tracks seen done enclosing met)
    (h : walkCtes e seen cs = .ok found) :
    Emission e seen done enclosing met (sightingsIn e enclosing met cs) (declaredIn e cs)
      found.1 found.2 := by
  -- Induction on the clauses; what is seen, met and emitted grows from one to the next.
  induction cs generalizing seen done met found with
  | nil =>
    cases h
    exact .nothing ht
  | cons c cs ih =>
    have ih := fun {seen done met found} => @ih (fun c hm => hb c (List.mem_cons_of_mem _ hm))
      seen done met found
    obtain ⟨component, scope, kind⟩ := c
    by_cases hk : ∃ s, kind = .source s
    · -- It is passed over, unseen by the engine or of a name that was met, or its body comes first.
      obtain ⟨s, rfl⟩ := hk
      rw [sightingsIn_source, declaredIn_source]
      rcases walkCtes_source_ok h with ⟨hseen, h⟩ | ⟨hv, hs, inner, later, hi, hl, rfl⟩
      · split
        · next hv =>
          rw [if_pos ((ht.met _).mp (hseen hv))]
          exact .again (hseen hv) (ih (ht.again (hseen hv)) h)
        · exact ih ht h
      · rw [if_pos hv, if_pos hv, if_neg fun hm => hs ((ht.met _).mpr hm)]
        have hin := s.emission_innerCtes (hb _ List.mem_cons_self) ht.enter hi
        refine .visit ht hs hin (ih ?_ hl)
        simpa only [List.append_assoc] using hin.tracks.leave
    · have hk : ∀ s, kind ≠ .source s := fun s hs => hk ⟨s, hs⟩
      rw [sightingsIn_other hk]
      rw [walkCtes_other hk] at h
      rw [declaredIn_other hk]
      exact ih ht h

theorem emits (n : Subquery) : Emits e n := by
  induction n using Subquery.induction with
  | step q ih =>
    intro seen done enclosing met found ht h
    rw [Subquery.sightings_of]
    exact emission_walkCtes (fun c hc n hn => ih n (Statement.mem_nested.mpr ⟨c, hc, hn⟩)) ht
      (walkCtes_of_findCtes h)

/-- When a search succeeds, each expression that it finds is the only one of its name and the first
of it in the walk, what a body declares is found before the expression of that body unless the name
is that of the expression or of one that it stands in, nothing that is declared is left out, and a
second search finds the same. -/
theorem CteSearch.run_order {q : Query} {found : List (Source Subquery)} {search : CteSearch}
    (h : CteSearch.run { query := q, engine := e } = .ok (found, search)) :
    (found.map Source.cteName).Nodup ∧
    (∀ s ∈ found, ∃ before after enclosing, found = before ++ s :: after ∧
      (q.walk e).find? (·.isOf s.cteName) = some ⟨s, enclosing⟩ ∧
      ∀ d ∈ s.declared e, d.cteName ∈ found.map Source.cteName ∧
        (d.cteName ∈ before.map Source.cteName ∨
          d.cteName ∈ (s :: enclosing).map Source.cteName)) ∧
    (∀ s ∈ q.declared e, s.cteName ∈ found.map Source.cteName) ∧
    search.run = .ok (found, search) := by
  obtain ⟨hq, hfound⟩ := run_eq_ok h
  unfold Query.ctes at hq
  cases hf : Subquery.findCtes e [] (.of q) with
  | error _ =>
    rw [hf] at hq
    cases hq
  | ok p =>
    rw [hf] at hq
    cases hq
    have he : Emission e [] [] [] [] (q.walk e) (q.declared e) p.1 p.2 :=
      emits (.of q) ⟨by simp, by simp⟩ hf
    have hin (n : String) (hn : n ∈ p.2) : n ∈ p.1.map Source.cteName := by
      simpa using (he.tracks.finished n).mp hn
    refine ⟨he.order.nodup List.nodup_nil, fun s hs => ?_, fun s hs => hin _ (he.passed s hs),
      run_of_found hfound⟩
    obtain ⟨before, after, enclosing, hp, hs', hd⟩ := he.order.at_mem hs
    exact ⟨before, after, enclosing, hp, hs', fun d hm => ⟨hin _ (he.closed s hs d hm), hd d hm⟩⟩

def Query.selecting (table : String) (inner : List (Source Subquery)) : Query where
  clauses := inner.map (fun s => ⟨.cte, none, .source s⟩) ++
    [⟨.source, none, .source (.table table)⟩]

def Source.selecting (table aliasName : String) (inner : List (Source Subquery)) :
    Source Subquery :=
  .query (.of (Query.selecting table inner)) (some aliasName)

def totals : Source Subquery :=
  .selecting "days" "totals" [.selecting "sales" "totals" [], .selecting "dates" "days" []]

def totalsByDay : Query :=
  Query.selecting "totals" [totals, .selecting "dates" "days" []]

theorem CteSearch.run_order_totalsByDay :
    let found := [.selecting "dates" "days" [], totals]
    let search : CteSearch := { query := totalsByDay, engine := .postgres, found := some found }
    CteSearch.run { query := totalsByDay, engine := .postgres } = .ok (found, search) ∧
      (found.map Source.cteName).Nodup ∧
      (∀ d ∈ totals.declared .postgres, d.cteName ∈ found.map Source.cteName) ∧
      search.run = .ok (found, search) := by
  intro found search
  have hrun : CteSearch.run { query := totalsByDay, engine := .postgres } = .ok (found, search) :=
    rfl
  obtain ⟨hnodup, hfound, -, hagain⟩ := CteSearch.run_order hrun
  obtain ⟨_, _, _, -, -, htotals⟩ := hfound totals (by simp [found])
  exact ⟨hrun, hnodup, fun d hd => (htotals d hd).1, hagain⟩

end SqlDialects
