import Mathlib.Logic.Relation
import SqlDialects.Proofs.Cte.Emission

/-!
The order of expressions against the tables that their bodies read. An expression is emitted behind
those that the walk was past when it met it, and behind those that stand in its body; which tables
the body reads does not count.
-/

namespace SqlDialects

variable {e : Engine}

def tableName (name : String) : String :=
  match splitAs? name.toList with
  | some (before, _) => String.ofList before
  | none => name

def Query.fromTable? (e : Engine) (q : Query) : Option String :=
  match q.getOne .source ClauseKind.source? (some e) with
  | .ok (some (.table name)) => some (tableName name)
  | _ => none

def Query.tables (e : Engine) (q : Query) : List String :=
  (Query.fromTable? e q).toList ++ (q.bucket .join (some e)).filterMap fun c =>
    c.kind.join?.bind fun j => Query.fromTable? e j.target.statement

def Source.tables (e : Engine) : Source Subquery → List String
  | query body _ => Query.tables e body.statement
  | _ => []

/-- The body of the one expression reads a table of the name of the other. -/
def Source.References (e : Engine) (s d : Source Subquery) : Prop := d.cteName ∈ s.tables e

instance (s d : Source Subquery) : Decidable (s.References e d) :=
  inferInstanceAs (Decidable (d.cteName ∈ s.tables e))

def Acyclic (e : Engine) (found : List (Source Subquery)) : Prop :=
  ∀ s ∈ found, ¬Relation.TransGen (fun s d => s ∈ found ∧ d ∈ found ∧ s.References e d) s s

/-- The first sighting of `d` is inside the body of `s`, or before that of `s` and around nothing
of it. -/
def Ahead (met : List Sighting) (d s : Source Subquery) : Prop :=
  ∃ aroundD aroundS, met.find? (·.isOf d.cteName) = some ⟨d, aroundD⟩ ∧
    met.find? (·.isOf s.cteName) = some ⟨s, aroundS⟩ ∧
    (s.cteName ∈ aroundD.map Source.cteName ∨ d.cteName ∉ aroundS.map Source.cteName ∧
      met.findIdx (·.isOf d.cteName) < met.findIdx (·.isOf s.cteName))

section Sublists

variable {α : Type} {x y : α} {xs ys : List α}

theorem pair_sublist_left (h : y ∉ ys) : [x, y].Sublist (xs ++ ys) ↔ [x, y].Sublist xs := by
  refine ⟨fun hxy => ?_, fun hxy => hxy.trans (List.sublist_append_left xs ys)⟩
  obtain ⟨a, b, hab, ha, hb⟩ := List.sublist_append_iff.mp hxy
  have hnone : b = [] := by
    by_contra hne
    have hlast : y ∈ b := by
      have hy : (a ++ b).getLast? = some y := hab ▸ rfl
      rw [List.getLast?_append_of_ne_nil a hne] at hy
      exact List.mem_of_getLast? hy
    exact h (hb.subset hlast)
  rw [hnone, List.append_nil] at hab
  exact hab ▸ ha

theorem pair_sublist_right (h : x ∉ xs) : [x, y].Sublist (xs ++ ys) ↔ [x, y].Sublist ys := by
  refine ⟨fun hxy => ?_, fun hxy => hxy.trans (List.sublist_append_right xs ys)⟩
  obtain ⟨a, b, hab, ha, hb⟩ := List.sublist_append_iff.mp hxy
  cases a with
  | nil => exact hab ▸ hb
  | cons z a =>
    obtain ⟨rfl, -⟩ := List.cons.inj hab
    exact absurd (ha.subset List.mem_cons_self) h

theorem pair_sublist_append (hx : x ∈ xs) (hy : y ∈ ys) : [x, y].Sublist (xs ++ ys) :=
  (List.singleton_sublist.mpr hx).append (List.singleton_sublist.mpr hy)

end Sublists

section Positions

variable {met met' : List Sighting} {name : String} {m : Sighting}

theorem findIdx_lt_of_find? (h : met.find? (·.isOf name) = some m) :
    met.findIdx (·.isOf name) < met.length :=
  List.findIdx_lt_length.mpr ⟨m, List.mem_of_find?_eq_some h, List.find?_some h⟩

theorem findIdx_of_grows (hm : met <+: met') (h : met.find? (·.isOf name) = some m) :
    met'.findIdx (·.isOf name) = met.findIdx (·.isOf name) :=
  hm.findIdx_eq_of_findIdx_lt_length (findIdx_lt_of_find? h)

theorem le_findIdx_of_unmet (hm : met <+: met') (h : met.any (·.isOf name) = false) :
    met.length ≤ met'.findIdx (·.isOf name) := by
  obtain ⟨later, rfl⟩ := hm
  rw [List.findIdx_append, if_neg]
  · omega
  · rw [List.findIdx_lt_length]
    simpa using h

theorem Ahead.mono {d s : Source Subquery} (hm : met <+: met') (h : Ahead met d s) :
    Ahead met' d s := by
  obtain ⟨aroundD, aroundS, hd, hs, h⟩ := h
  refine ⟨aroundD, aroundS, hm.find?_eq_some hd, hm.find?_eq_some hs, ?_⟩
  rwa [findIdx_of_grows hm hd, findIdx_of_grows hm hs]

end Positions

/-- Of the expressions emitted inside the enclosing ones, one comes before another just when it is
ahead of it. -/
structure Ordered (enclosing : List (Source Subquery)) (met : List Sighting)
    (emitted : List (Source Subquery)) : Prop where
  sighted : ∀ s ∈ emitted, ∃ around, met.find? (·.isOf s.cteName) = some ⟨s, around⟩ ∧
    enclosing.map Source.cteName ⊆ around.map Source.cteName ∧
    around.map Source.cteName ⊆ enclosing.map Source.cteName ++ emitted.map Source.cteName
  order : ∀ d ∈ emitted, ∀ s ∈ emitted, [d, s].Sublist emitted ↔ Ahead met d s

namespace Ordered

variable {enclosing xs ys : List (Source Subquery)} {met met' : List Sighting}
  {s : Source Subquery}

theorem nil (enclosing : List (Source Subquery)) (met : List Sighting) :
    Ordered enclosing met [] := ⟨nofun, nofun⟩

theorem mono (hm : met <+: met') (h : Ordered enclosing met xs) :
    Ordered enclosing met' xs where
  sighted s hs := by
    obtain ⟨around, hf, hin, hout⟩ := h.sighted s hs
    exact ⟨around, hm.find?_eq_some hf, hin, hout⟩
  order d hd s hs := by
    rw [h.order d hd s hs]
    refine ⟨fun ha => ha.mono hm, fun ⟨aroundD, aroundS, hfd, hfs, ha⟩ => ?_⟩
    obtain ⟨_, hd, -⟩ := h.sighted d hd
    obtain ⟨_, hs, -⟩ := h.sighted s hs
    obtain rfl := congrArg Sighting.enclosing
      (Option.some.inj ((hm.find?_eq_some hd).symm.trans hfd))
    obtain rfl := congrArg Sighting.enclosing
      (Option.some.inj ((hm.find?_eq_some hs).symm.trans hfs))
    rw [findIdx_of_grows hm hd, findIdx_of_grows hm hs] at ha
    exact ⟨_, _, hd, hs, ha⟩

theorem enter (hi : Ordered (s :: enclosing) met xs)
    (hs : met.find? (·.isOf s.cteName) = some ⟨s, enclosing⟩)
    (hx : ∀ x ∈ xs, x.cteName ∉ (s :: enclosing).map Source.cteName)
    (he : s.cteName ∉ enclosing.map Source.cteName) : Ordered enclosing met (xs ++ [s]) where
  sighted x hm := by
    rcases List.mem_append.mp hm with hm | hm
    · obtain ⟨around, hf, hin, hout⟩ := hi.sighted x hm
      refine ⟨around, hf, fun n hn => hin (List.mem_cons_of_mem _ hn), fun n hn => ?_⟩
      have := hout hn
      simp only [List.map_cons, List.cons_append, List.mem_cons, List.mem_append, List.map_append,
        List.map_nil, List.not_mem_nil, or_false] at this ⊢
      tauto
    · obtain rfl := List.mem_singleton.mp hm
      exact ⟨enclosing, hs, List.Subset.refl _, List.subset_append_left _ _⟩
  order d hdm x hxm := by
    have hout : s ∉ xs := fun h => hx s h List.mem_cons_self
    rcases List.mem_append.mp hdm with hd | hd <;> rcases List.mem_append.mp hxm with hm | hm
    · have hne : x ∉ [s] := fun h => hout ((List.mem_singleton.mp h).symm ▸ hm)
      rw [pair_sublist_left hne, hi.order d hd x hm]
    · obtain rfl := List.mem_singleton.mp hm
      obtain ⟨around, hf, hin, -⟩ := hi.sighted d hd
      refine iff_of_true (pair_sublist_append hd (List.mem_singleton.mpr rfl)) ?_
      exact ⟨around, enclosing, hf, hs, .inl (hin List.mem_cons_self)⟩
    · obtain rfl := List.mem_singleton.mp hd
      obtain ⟨around, hf, hin, -⟩ := hi.sighted x hm
      refine iff_of_false ?_ ?_
      · rw [pair_sublist_right hout]
        exact fun h => absurd h.length_le (by simp)
      · rintro ⟨_, _, hd, hx', ha⟩
        rw [hs] at hd
        rw [hf] at hx'
        cases hd
        cases hx'
        rcases ha with ha | ⟨ha, -⟩
        · exact hx x hm (List.mem_cons_of_mem _ ha)
        · exact ha (hin List.mem_cons_self)
    · obtain rfl := List.mem_singleton.mp hd
      obtain rfl := List.mem_singleton.mp hm
      refine iff_of_false ?_ ?_
      · rw [pair_sublist_right hout]
        exact fun h => absurd h.length_le (by simp)
      · rintro ⟨_, _, hd, -, ha⟩
        rw [hs] at hd
        cases hd
        rcases ha with ha | ⟨-, ha⟩
        · exact he ha
        · exact absurd ha (Nat.lt_irrefl _)

theorem append (hm : met <+: met') (hxs : Ordered enclosing met xs)
    (hys : Ordered enclosing met' ys)
    (hout : ∀ x ∈ xs, x.cteName ∉ enclosing.map Source.cteName)
    (hlate : ∀ y ∈ ys, met.any (·.isOf y.cteName) = false) :
    Ordered enclosing met' (xs ++ ys) := by
  have hearly (x : Source Subquery) (hx : x ∈ xs) : met.any (·.isOf x.cteName) = true := by
    obtain ⟨around, hf, -⟩ := hxs.sighted x hx
    exact List.any_eq_true.mpr ⟨_, List.mem_of_find?_eq_some hf, List.find?_some hf⟩
  have hapart {x y : Source Subquery} (hx : x ∈ xs) (hy : y ∈ ys) : x.cteName ≠ y.cteName := by
    intro h
    have hmet := hearly x hx
    rw [h, hlate y hy] at hmet
    cases hmet
  have hx_ys {x : Source Subquery} (hx : x ∈ xs) : x ∉ ys := fun hy => hapart hx hy rfl
  have hbefore {x y : Source Subquery} (hx : x ∈ xs) (hy : y ∈ ys) :
      met'.findIdx (·.isOf x.cteName) < met'.findIdx (·.isOf y.cteName) := by
    obtain ⟨around, hf, -⟩ := hxs.sighted x hx
    rw [findIdx_of_grows hm hf]
    exact Nat.lt_of_lt_of_le (findIdx_lt_of_find? hf) (le_findIdx_of_unmet hm (hlate y hy))
  have haround {x : Source Subquery} (hx : x ∈ xs) {around : List (Source Subquery)}
      (ho : around.map Source.cteName ⊆ enclosing.map Source.cteName ++ ys.map Source.cteName) :
      x.cteName ∉ around.map Source.cteName := by
    intro hin
    rcases List.mem_append.mp (ho hin) with h | h
    · exact hout x hx h
    · obtain ⟨y, hy, hyx⟩ := List.mem_map.mp h
      exact hapart hx hy hyx.symm
  have hxs := hxs.mono hm
  refine ⟨fun s hs => ?_, fun d hd s hs => ?_⟩
  · rcases List.mem_append.mp hs with hs | hs
    · obtain ⟨around, hf, hin, ho⟩ := hxs.sighted s hs
      refine ⟨around, hf, hin, fun n hn => ?_⟩
      have := ho hn
      simp only [List.map_append, List.mem_append] at this ⊢
      tauto
    · obtain ⟨around, hf, hin, ho⟩ := hys.sighted s hs
      refine ⟨around, hf, hin, fun n hn => ?_⟩
      have := ho hn
      simp only [List.map_append, List.mem_append] at this ⊢
      tauto
  · rcases List.mem_append.mp hd with hd | hd <;> rcases List.mem_append.mp hs with hs | hs
    · rw [pair_sublist_left (hx_ys hs), hxs.order d hd s hs]
    · refine iff_of_true (pair_sublist_append hd hs) ?_
      obtain ⟨aroundD, hfd, -⟩ := hxs.sighted d hd
      obtain ⟨aroundS, hfs, -, ho⟩ := hys.sighted s hs
      exact ⟨aroundD, aroundS, hfd, hfs, .inr ⟨haround hd ho, hbefore hd hs⟩⟩
    · refine iff_of_false ?_ ?_
      · rw [pair_sublist_left (hx_ys hs)]
        exact fun h => hx_ys (h.subset List.mem_cons_self) hd
      · rintro ⟨_, _, hfd, hfs, ha⟩
        obtain ⟨around, hf, -, ho⟩ := hys.sighted d hd
        rw [hf] at hfd
        cases hfd
        rcases ha with ha | ⟨-, ha⟩
        · exact haround hs ho ha
        · exact absurd ha (Nat.lt_asymm (hbefore hs hd))
    · rw [pair_sublist_right fun h => hx_ys h hd, hys.order d hd s hs]

theorem visit {seen done inside after : List String} {met₁ : List Sighting}
    {passed later : List (Source Subquery)} (ht : Tracks seen done enclosing met)
    (hs : s.cteName ∉ seen)
    (hi : Emission e (s.cteName :: seen) done (s :: enclosing) (met ++ [⟨s, enclosing⟩]) met₁
      (s.declared e) xs inside)
    (hl : Emission e inside (done ++ xs.map Source.cteName ++ [s.cteName]) enclosing met₁ met'
      passed later after)
    (hx : Ordered (s :: enclosing) met₁ xs) (hy : Ordered enclosing met' later) :
    Ordered enclosing met' (xs ++ s :: later) := by
  have henclosing (n : String) (hn : n ∉ seen) : n ∉ enclosing.map Source.cteName :=
    fun hin => hn ((ht.finished n).mpr (.inr hin))
  have hfresh (x : Source Subquery) (hin : x ∈ xs) : x.cteName ∉ seen :=
    fun hseen => hi.fresh x hin (List.mem_cons_of_mem _ hseen)
  have hentered : Ordered enclosing met₁ (xs ++ [s]) := by
    refine hx.enter (hi.grows.find?_eq_some (ht.first hs)) (fun x hin hmem => ?_) (henclosing _ hs)
    rcases List.mem_cons.mp hmem with heq | hmem
    · exact hi.fresh x hin (heq ▸ List.mem_cons_self)
    · exact henclosing _ (hfresh x hin) hmem
  rw [List.append_cons]
  refine hentered.append hl.grows hy (fun x hin => ?_) fun y hin => ?_
  · rcases List.mem_append.mp hin with hin | hin
    · exact henclosing _ (hfresh x hin)
    · exact List.mem_singleton.mp hin ▸ henclosing _ hs
  · have hnew := hl.fresh y hin
    rwa [hi.tracks.leave.met, Bool.not_eq_true] at hnew

end Ordered

def Orders (e : Engine) (n : Subquery) : Prop :=
  ∀ {seen done enclosing met found}, Tracks seen done enclosing met →
    n.findCtes e seen = .ok found → Ordered enclosing (n.sightings e enclosing met) found.1

theorem Source.ordered_innerCtes {s : Source Subquery} {seen done : List String}
    {enclosing : List (Source Subquery)} {met : List Sighting}
    {inner : List (Source Subquery) × List String}
    (hb : ∀ n ∈ (ClauseKind.source s).nested, Orders e n)
    (ht : Tracks seen done (s :: enclosing) met) (h : s.innerCtes e seen = .ok inner) :
    Ordered (s :: enclosing) (s.sightings e enclosing met) inner.1 := by
  cases s with
  | query body aliasName => exact hb body (List.mem_singleton.mpr rfl) ht h
  | table name =>
    cases h
    exact .nil _ _
  | raw sql bindings aliasName =>
    cases h
    exact .nil _ _

theorem ordered_walkCtes {cs : List (Clause Subquery)}
    (hb : ∀ c ∈ cs, ∀ n ∈ c.kind.nested, Orders e n) {seen done : List String}
    {enclosing : List (Source Subquery)} {met : List Sighting}
    {found : List (Source Subquery) × List String} (ht : Tracks seen done enclosing met)
    (h : walkCtes e seen cs = .ok found) :
    Ordered enclosing (sightingsIn e enclosing met cs) found.1 := by
  -- Induction on the clauses, as for what is emitted.
  induction cs generalizing seen done met found with
  | nil =>
    cases h
    exact .nil _ _
  | cons c cs ih =>
    have ih := fun {seen done met found} => @ih (fun c hm => hb c (List.mem_cons_of_mem _ hm))
      seen done met found
    obtain ⟨component, scope, kind⟩ := c
    by_cases hk : ∃ s, kind = .source s
    · obtain ⟨s, rfl⟩ := hk
      rw [sightingsIn_source]
      rcases walkCtes_source_ok h with ⟨hseen, h⟩ | ⟨hv, hs, inner, later, hi, hl, rfl⟩
      · split
        · next hv =>
          rw [if_pos ((ht.met _).mp (hseen hv))]
          exact ih (ht.again (hseen hv)) h
        · exact ih ht h
      · rw [if_pos hv, if_neg fun hm => hs ((ht.met _).mpr hm)]
        have hem := s.emission_innerCtes (fun n _ => emits n) ht.enter hi
        exact .visit ht hs hem (emission_walkCtes (fun _ _ n _ => emits n) hem.tracks.leave hl)
          (s.ordered_innerCtes (hb _ List.mem_cons_self) ht.enter hi) (ih hem.tracks.leave hl)
    · have hk : ∀ s, kind ≠ .source s := fun s hs => hk ⟨s, hs⟩
      rw [sightingsIn_other hk]
      rw [walkCtes_other hk] at h
      exact ih ht h

theorem orders (n : Subquery) : Orders e n := by
  induction n using Subquery.induction with
  | step q ih =>
    intro seen done enclosing met found ht h
    rw [Subquery.sightings_of]
    exact ordered_walkCtes (fun c hc n hn => ih n (Statement.mem_nested.mpr ⟨c, hc, hn⟩)) ht
      (walkCtes_of_findCtes h)

theorem Query.ordered_ctes {q : Query} {found : List (Source Subquery)}
    (h : q.ctes e = .ok found) : Ordered [] (q.walk e) found := by
  obtain ⟨_, hf⟩ := Query.ctes_eq_ok h
  have ht : Tracks [] [] [] [] := ⟨by simp, by simp⟩
  exact orders (.of q) ht hf

/-- When a search succeeds, an expression that it finds comes before another just when the walk is
ahead with it, and so the expressions stand behind all that they read just when the walk is ahead
with what each of them reads. -/
theorem CteSearch.run_precedes_iff {q : Query} {found : List (Source Subquery)} {search : CteSearch}
    (h : CteSearch.run { query := q, engine := e } = .ok (found, search)) :
    (∀ d ∈ found, ∀ s ∈ found, [d, s].Sublist found ↔ Ahead (q.walk e) d s) ∧
    ((∀ s ∈ found, ∀ d ∈ found, s.References e d → [d, s].Sublist found) ↔
      ∀ s ∈ found, ∀ d ∈ found, s.References e d → Ahead (q.walk e) d s) := by
  have horder := (Query.ordered_ctes (run_eq_ok h).1).order
  refine ⟨horder, fun hall s hs d hd hr => ?_, fun hall s hs d hd hr => ?_⟩
  · exact (horder d hd s hs).mp (hall s hs d hd hr)
  · exact (horder d hd s hs).mpr (hall s hs d hd hr)

def salesByDay : Query :=
  Query.selecting "totals" [.selecting "dates" "days" [],
    .selecting "days" "totals" [.selecting "orders" "sales" []]]

theorem CteSearch.run_precedes_iff_salesByDay :
    let days := Source.selecting "dates" "days" []
    let sales := Source.selecting "orders" "sales" []
    let totals := Source.selecting "days" "totals" [sales]
    let found := [days, sales, totals]
    CteSearch.run { query := salesByDay, engine := .generic } =
      .ok (found, { query := salesByDay, engine := .generic, found := some found }) ∧
    totals.References .generic days ∧ [days, totals].Sublist found := by
  intro days sales totals found
  have hrun : CteSearch.run { query := salesByDay, engine := .generic } =
      .ok (found, { query := salesByDay, engine := .generic, found := some found }) := rfl
  obtain ⟨hprecedes, -⟩ := CteSearch.run_precedes_iff hrun
  refine ⟨hrun, ?_, (hprecedes days (by simp [found]) totals (by simp [found])).mpr ?_⟩
  · decide
  · exact ⟨[], [], rfl, rfl, .inr ⟨by decide, by decide⟩⟩

/-- The one expression reads the other, which is declared behind it. -/
theorem CteSearch.declared_late_comes_late :
    ¬∀ (q : Query) (found : List (Source Subquery)) (search : CteSearch),
      CteSearch.run { query := q, engine := .generic } = .ok (found, search) →
      Acyclic .generic found →
      ∀ s ∈ found, ∀ d ∈ found, s.References .generic d → [d, s].Sublist found := by
  intro hall
  let user := Source.selecting "b" "a" []
  let used := Source.selecting "base" "b" []
  have hreads {s d : Source Subquery} (hs : s ∈ [user, used]) (hd : d ∈ [user, used])
      (h : s.References .generic d) : s = user ∧ d = used := by
    simp only [List.mem_cons, List.not_mem_nil, or_false] at hs hd
    rcases hs with rfl | rfl <;> rcases hd with rfl | rfl
    · exact absurd h (by decide)
    · exact ⟨rfl, rfl⟩
    · exact absurd h (by decide)
    · exact absurd h (by decide)
  have hne : user.cteName ≠ used.cteName := by decide
  have hacyclic : Acyclic .generic [user, used] := by
    intro s _ hcycle
    obtain ⟨_, ⟨hs, hd, hr⟩, -⟩ := Relation.TransGen.head'_iff.mp hcycle
    obtain ⟨_, -, hs', hd', hr'⟩ := Relation.TransGen.tail'_iff.mp hcycle
    exact hne (congrArg Source.cteName ((hreads hs hd hr).1.symm.trans (hreads hs' hd' hr').2))
  have hbefore : [used, user].Sublist [user, used] :=
    hall (.selecting "a" [user, used]) [user, used] _ rfl hacyclic user (by simp) used (by simp)
      (by decide)
  have hother : used ∉ [user] := fun h =>
    hne (congrArg Source.cteName (List.mem_singleton.mp h)).symm
  have hlength := ((pair_sublist_right hother).mp hbefore).length_le
  exact absurd hlength (by decide)

end SqlDialects
