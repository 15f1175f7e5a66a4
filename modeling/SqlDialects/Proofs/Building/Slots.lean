import SqlDialects.Proofs.Building.Calls
import SqlDialects.Proofs.Paging.Statements

/-!
Buckets that are written by replacing what stands there: the source, the limit and the offset. Main
statement: each of them holds at most one clause for a scope, and what an engine finds there is what
was written last for it alone, or else what was written last for all engines.
-/

namespace SqlDialects

variable {σ α : Type}

def Component.isSlot : Component → Bool
  | .source | .limit | .offset => true
  | _ => false

def Clause.stands (component : Component) (scope : Option Engine) (c : Clause σ) : Bool :=
  c.component == component && c.engine == scope

def Step.written : Step → Option (Component × ClauseKind Subquery)
  | .table name => some (.source, .source (.table name))
  | .source s => some (.source, .source s)
  | .limit n => some (.limit, .limit n)
  | .offset n => some (.offset, .offset n)
  | _ => none

/-- What has been written so far, each in the scope of its time; starting over forgets it. -/
structure Log where
  scope : Option Engine := none
  outer : List (Option Engine) := []
  writes : List (Clause Subquery) := []

namespace Log

def write (l : Log) (s : Step) : Log :=
  match s.written with
  | some (component, kind) => { l with writes := l.writes ++ [⟨component, l.scope, kind⟩] }
  | none => l

def call (l : Log) : Call → Log
  | .enter engine => { l with scope := some engine, outer := l.scope :: l.outer }
  | .leave => { l with scope := l.outer.headD none, outer := l.outer.tail }
  | .single s => (if s.startsOver then { l with scope := none, writes := [] } else l).write s

def run (l : Log) (calls : List Call) : Log := calls.foldl call l

def last (l : Log) (component : Component) (scope : Option Engine) : Option (Clause Subquery) :=
  (l.writes.filter (·.stands component scope)).getLast?

/-- What was written last for the engine alone, or else what was written last for all. -/
def latest (l : Log) (component : Component) (e : Engine) : Option (Clause Subquery) :=
  (l.last component (some e)).or (l.last component none)

def value (l : Log) (component : Component) (as? : ClauseKind Subquery → Option α) (e : Engine) :
    Option α :=
  (l.latest component e).bind (as? ·.kind)

theorem last_write_self {l : Log} {s : Step} {component : Component} {kind : ClauseKind Subquery}
    (h : s.written = some (component, kind)) :
    (l.write s).last component l.scope = some ⟨component, l.scope, kind⟩ := by
  have hnew : Clause.stands component l.scope (⟨component, l.scope, kind⟩ : Clause Subquery) := by
    simp [Clause.stands]
  simp only [write, h, last]
  rw [List.filter_append, List.filter_cons_of_pos hnew, List.filter_nil, List.getLast?_concat]

theorem last_write_of_ne {l : Log} {s : Step} {component : Component} {place : Option Engine}
    (h : ∀ kind, s.written = some (component, kind) → l.scope ≠ place) :
    (l.write s).last component place = l.last component place := by
  unfold write
  split
  · next other kind hs =>
    have hnew : ¬Clause.stands component place (⟨other, l.scope, kind⟩ : Clause Subquery) := by
      simp only [Clause.stands, Bool.and_eq_true, beq_iff_eq]
      rintro ⟨rfl, hscope⟩
      exact h kind hs hscope
    rw [last, List.filter_append, List.filter_cons_of_neg hnew, List.filter_nil, List.append_nil,
      last]
  · rfl

end Log

namespace Statement

theorem filter_stands_replaceFirst (component : Component) (scope : Option Engine)
    (kind : ClauseKind σ) (cs : List (Clause σ)) :
    (replaceFirst component scope kind cs).filter (·.stands component scope) =
      ⟨component, scope, kind⟩ :: (cs.filter (·.stands component scope)).tail := by
  have hnew : Clause.stands component scope (⟨component, scope, kind⟩ : Clause σ) := by
    simp [Clause.stands]
  induction cs with
  | nil => rw [replaceFirst, List.filter_cons_of_pos hnew]; rfl
  | cons c cs ih =>
    rw [replaceFirst]
    split
    · next hc =>
      have hold : c.stands component scope := by simp [Clause.stands, hc]
      rw [List.filter_cons_of_pos hnew, List.filter_cons_of_pos hold, List.tail_cons]
    · next hc =>
      have hother : ¬c.stands component scope := by simpa [Clause.stands] using hc
      rw [List.filter_cons_of_neg hother, List.filter_cons_of_neg hother, ih]

theorem filter_stands_replaceFirst_of_ne {component other : Component} {scope place : Option Engine}
    (h : component ≠ other ∨ scope ≠ place) (kind : ClauseKind σ) (cs : List (Clause σ)) :
    (replaceFirst component scope kind cs).filter (·.stands other place) =
      cs.filter (·.stands other place) := by
  refine filter_replaceFirst (fun c hc hs => ?_) cs
  rcases h with h | h
  · simp [Clause.stands, hc, h]
  · simp [Clause.stands, hs, h]

theorem choose_bucket (q : Statement σ) (component : Component) (e : Engine) :
    choose (some e) (q.bucket component (some e)) =
      (q.clauses.filter (·.stands component (some e))).head?.or
        (q.clauses.filter (·.stands component none)).head? := by
  have hfind {scope : Option Engine} (hs : scope = some e ∨ scope = none) :
      (q.bucket component (some e)).find? (·.engine == scope) =
        (q.clauses.filter (·.stands component scope)).head? := by
    rw [bucket, List.find?_filter, List.head?_filter]
    refine congrArg (List.find? · _) (funext fun c => ?_)
    rw [Bool.eq_iff_iff]
    rcases hs with rfl | rfl <;> simp only [Clause.visible, Clause.stands, Bool.and_eq_true,
      Bool.or_eq_true, beq_iff_eq, Option.isNone_iff_eq_none, reduceCtorEq, or_false,
      decide_eq_true_eq] <;> tauto
  have hisNone : (fun c : Clause σ => c.engine.isNone) = fun c => c.engine == none := by
    funext c
    cases c.engine <;> rfl
  simp only [choose, Option.isSome_some, Bool.true_and]
  rw [hisNone, ← hfind (.inl rfl), ← hfind (.inr rfl)]
  cases hown : (q.bucket component (some e)).find? (·.engine == some e) with
  | some c => rfl
  | none =>
    cases hall : (q.bucket component (some e)).find? (·.engine == none) with
    | some c => rfl
    | none =>
      -- Only then would any clause of the bucket do, and the engine sees no other there.
      have hempty : q.bucket component (some e) = [] := by
        refine List.eq_nil_iff_forall_not_mem.mpr fun c hc => ?_
        have hvisible := (List.mem_filter.mp hc).2
        simp only [Clause.visible, Bool.and_eq_true, Bool.or_eq_true, beq_iff_eq,
          Option.isNone_iff_eq_none, reduceCtorEq, or_false] at hvisible
        rcases hvisible.2 with hs | hs
        · exact absurd hs (by simpa using List.find?_eq_none.mp hall c hc)
        · exact absurd hs (by simpa using List.find?_eq_none.mp hown c hc)
      rw [hempty]
      rfl

end Statement

namespace Edit

def component : Edit → Component
  | add component _ | replace component _ | clear component _ => component

theorem filter_stands_apply {e : Edit} {component : Component} (h : e.component ≠ component)
    (scope place : Option Engine) (cs : List (Clause Subquery)) :
    (e.apply scope cs).filter (·.stands component place) =
      cs.filter (·.stands component place) := by
  cases e with
  | add other kind =>
    have hne : other ≠ component := h
    simp [apply, Clause.stands, hne]
  | replace other kind => exact Statement.filter_stands_replaceFirst_of_ne (.inl h) kind cs
  | clear other engine =>
    have hne : other ≠ component := h
    rw [apply, List.filter_filter]
    refine List.filter_congr fun c _ => ?_
    by_cases hc : c.component = component
    · simp [Clause.visible, hc, hne.symm]
    · simp [Clause.stands, hc]

theorem filter_stands_foldl_apply {es : List Edit} {component : Component}
    (h : ∀ e ∈ es, e.component ≠ component) (scope place : Option Engine)
    (cs : List (Clause Subquery)) :
    (es.foldl (apply scope) cs).filter (·.stands component place) =
      cs.filter (·.stands component place) := by
  induction es generalizing cs with
  | nil => rfl
  | cons e es ih =>
    obtain ⟨he, hes⟩ := List.forall_mem_cons.mp h
    exact (ih hes _).trans (filter_stands_apply he scope place cs)

end Edit

theorem Query.component_ne_of_mem_edits {component : Component} (hslot : component.isSlot = true)
    {s : Step} (hs : s.startsOver = false) (hfree : s.isFree = false)
    (hwritten : ∀ kind, s.written ≠ some (component, kind))
    (hclear : ∀ engine, s ≠ .clear component engine) (q : Query) :
    ∀ e ∈ q.edits s, e.component ≠ component := by
  have hne {other : Component} (h : other.isSlot = false) : other ≠ component := by
    rintro rfl
    exact absurd hslot (by simp [h])
  have hmap {α : Type} {other : Component} (h : other.isSlot = false)
      (kind : α → ClauseKind Subquery) (xs : List α) :
      ∀ e ∈ xs.map fun x => Edit.add other (kind x), e.component ≠ component := by
    intro e he
    obtain ⟨x, -, rfl⟩ := List.mem_map.mp he
    exact hne h
  cases s with
  | table => cases hs
  | add | addOrReplace => cases hfree
  | source | limit | offset =>
    refine List.forall_mem_singleton.mpr ?_
    rintro rfl
    exact hwritten _ rfl
  | clear other engine =>
    refine List.forall_mem_singleton.mpr ?_
    rintro rfl
    exact hclear engine rfl
  | select names => exact hmap rfl _ _
  | groupBy names => exact hmap rfl _ names
  | orderBy names ascending => exact hmap rfl _ names
  | insertRows columns rows returnId => exact List.forall_mem_cons.mpr ⟨hne rfl, hmap rfl _ rows⟩
  | insertQuery | update | assign | aggregate =>
    exact List.forall_mem_cons.mpr ⟨hne rfl, List.forall_mem_singleton.mpr (hne rfl)⟩
  | column | join | group | order | combine | filter | having | cte =>
    exact List.forall_mem_singleton.mpr (hne rfl)
  | _ => exact List.forall_mem_nil _

theorem Query.edits_of_written {s : Step} (hs : s.startsOver = false) {component : Component}
    {kind : ClauseKind Subquery} (h : s.written = some (component, kind)) (q : Query) :
    q.edits s = [.replace component kind] := by
  cases s <;> cases h
  case table => cases hs
  all_goals rfl

namespace Query

variable {component : Component} {s : Step} (hsingle : s.isSingle = true)
  (hs : s.startsOver = false) (q : Query) (place : Option Engine)

include hsingle hs

theorem stands_apply_of_written {kind : ClauseKind Subquery}
    (h : s.written = some (component, kind)) :
    (q.apply s).clauses.filter (·.stands component place) =
      if q.scope = place then
        ⟨component, q.scope, kind⟩ :: (q.clauses.filter (·.stands component place)).tail
      else q.clauses.filter (·.stands component place) := by
  rw [(q.edited_apply hsingle hs).clauses, q.edits_of_written hs h]
  split
  · next hplace =>
    subst hplace
    exact Statement.filter_stands_replaceFirst component q.scope kind q.clauses
  · next hplace => exact Statement.filter_stands_replaceFirst_of_ne (.inr hplace) kind q.clauses

theorem stands_apply (hslot : component.isSlot = true) (hfree : s.isFree = false)
    (hwritten : ∀ kind, s.written ≠ some (component, kind))
    (hclear : ∀ engine, s ≠ .clear component engine) :
    (q.apply s).clauses.filter (·.stands component place) =
      q.clauses.filter (·.stands component place) := by
  rw [(q.edited_apply hsingle hs).clauses]
  exact Edit.filter_stands_foldl_apply (component_ne_of_mem_edits hslot hs hfree hwritten hclear q)
    q.scope place q.clauses

end Query

namespace Draft

variable {component : Component} {d : Draft} {l : Log} {c : Call}

/-- No more than one clause stands in the bucket for each scope. -/
def Single (component : Component) (d : Draft) : Prop :=
  ∀ place, (d.query.clauses.filter (·.stands component place)).length ≤ 1

theorem Single.call (h : d.Single component) (hslot : component.isSlot = true)
    (hc : ∀ s, c = .single s → s.isSingle = true ∧ s.isFree = false) :
    (d.call c).Single component := by
  intro place
  cases c with
  | enter | leave => exact h place
  | single s =>
    obtain ⟨hsingle, hfree⟩ := hc s rfl
    cases hs : s.startsOver with
    | true =>
      cases s <;> cases hs
      exact List.length_filter_le _ [_]
    | false =>
      by_cases hwritten : ∃ kind, s.written = some (component, kind)
      · obtain ⟨kind, hkind⟩ := hwritten
        have hold := h place
        rw [Draft.call, Query.stands_apply_of_written hsingle hs _ _ hkind]
        split
        · rw [List.length_cons, List.length_tail]
          omega
        · exact hold
      · by_cases hclear : ∃ engine, s = .clear component engine
        · obtain ⟨engine, rfl⟩ := hclear
          exact Nat.le_trans (List.filter_sublist.filter _).length_le (h place)
        · rw [Draft.call, Query.stands_apply hsingle hs _ _ hslot hfree
            (fun kind hk => hwritten ⟨kind, hk⟩) fun engine he => hclear ⟨engine, he⟩]
          exact h place

/-- What stands in the bucket for each scope is what was last written there. -/
structure Logged (component : Component) (d : Draft) (l : Log) : Prop where
  scope : d.query.scope = l.scope
  outer : d.outer = l.outer
  stands : ∀ place,
    d.query.clauses.filter (·.stands component place) = (l.last component place).toList

theorem Logged.apply (h : d.Logged component l) (hslot : component.isSlot = true) {s : Step}
    (hsingle : s.isSingle = true) (hs : s.startsOver = false) (hfree : s.isFree = false)
    (hclear : ∀ engine, s ≠ .clear component engine) :
    Logged component { d with query := d.query.apply s } (l.write s) := by
  have hscope : (l.write s).scope = l.scope ∧ (l.write s).outer = l.outer := by
    unfold Log.write
    split <;> exact ⟨rfl, rfl⟩
  refine ⟨?_, h.outer.trans hscope.2.symm, fun place => ?_⟩
  · exact (d.query.edited_apply hsingle hs).scope.trans (h.scope.trans hscope.1.symm)
  · by_cases hwritten : ∃ kind, s.written = some (component, kind)
    · obtain ⟨kind, hkind⟩ := hwritten
      rw [Query.stands_apply_of_written hsingle hs _ _ hkind, h.scope]
      split
      · next hplace =>
        subst hplace
        rw [Log.last_write_self hkind, h.stands]
        cases l.last component l.scope <;> rfl
      · next hplace => rw [Log.last_write_of_ne fun _ _ => hplace, h.stands]
    · have hnone : ∀ kind, s.written ≠ some (component, kind) := fun kind hk => hwritten ⟨kind, hk⟩
      rw [Query.stands_apply hsingle hs _ _ hslot hfree hnone hclear,
        Log.last_write_of_ne fun kind hk => absurd hk (hnone kind), h.stands]

theorem Logged.call (h : d.Logged component l) (hslot : component.isSlot = true)
    (hc : ∀ s, c = .single s → s.isSingle = true ∧ s.isFree = false)
    (hclear : ∀ engine, c ≠ .single (.clear component engine)) :
    (d.call c).Logged component (l.call c) := by
  cases c with
  | enter engine => exact ⟨rfl, congrArg₂ List.cons h.scope h.outer, h.stands⟩
  | leave => exact ⟨congrArg (·.headD none) h.outer, congrArg List.tail h.outer, h.stands⟩
  | single s =>
    obtain ⟨hsingle, hfree⟩ := hc s rfl
    cases hs : s.startsOver with
    | true =>
      cases s <;> cases hs
      have hempty : Logged component ⟨{}, d.outer⟩ { l with scope := none, writes := [] } :=
        ⟨rfl, h.outer, fun _ => rfl⟩
      exact hempty.apply hslot (s := .source _) rfl rfl rfl nofun
    | false =>
      have hwrite := h.apply hslot hsingle hs hfree fun engine he => hclear engine (by rw [he])
      rw [Log.call, hs]
      exact hwrite

variable {calls : List Call} (hslot : component.isSlot = true)
  (hc : ∀ s, .single s ∈ calls → s.isSingle = true ∧ s.isFree = false)

include hslot hc

theorem Single.run (h : d.Single component) : (d.run calls).Single component := by
  induction calls generalizing d with
  | nil => exact h
  | cons c calls ih =>
    have hfirst := h.call hslot fun s hs => hc s (hs ▸ List.mem_cons_self)
    exact ih (fun s hs => hc s (List.mem_cons_of_mem _ hs)) hfirst

theorem Logged.run (h : d.Logged component l)
    (hclear : ∀ engine, .single (.clear component engine) ∉ calls) :
    (d.run calls).Logged component (l.run calls) := by
  induction calls generalizing d l with
  | nil => exact h
  | cons c calls ih =>
    have hfirst := h.call hslot (fun s hs => hc s (hs ▸ List.mem_cons_self))
      fun engine he => hclear engine (he ▸ List.mem_cons_self)
    exact ih (fun s hs => hc s (List.mem_cons_of_mem _ hs)) hfirst
      fun engine hm => hclear engine (List.mem_cons_of_mem _ hm)

end Draft

def Log.Fits (component : Component) (as? : ClauseKind Subquery → Option α) (l : Log) : Prop :=
  ∀ c ∈ l.writes, c.component = component → (as? c.kind).isSome = true

namespace Log

variable {component : Component} {as? : ClauseKind Subquery → Option α} {l : Log}

theorem Fits.call (h : l.Fits component as?)
    (hkind : ∀ s kind, Step.written s = some (component, kind) → (as? kind).isSome = true)
    (c : Call) : (l.call c).Fits component as? := by
  have hwrite {l : Log} (h : l.Fits component as?) (s : Step) : (l.write s).Fits component as? := by
    unfold write
    split
    · next other kind hs =>
      intro c hc hcomponent
      rcases List.mem_append.mp hc with hc | hc
      · exact h c hc hcomponent
      · rw [List.mem_singleton.mp hc] at hcomponent ⊢
        subst hcomponent
        exact hkind s kind hs
    · exact h
  cases c with
  | enter | leave => exact h
  | single s =>
    rw [Log.call]
    split
    · exact hwrite (l := { l with scope := none, writes := [] }) (List.forall_mem_nil _) s
    · exact hwrite h s

theorem Fits.run (h : l.Fits component as?)
    (hkind : ∀ s kind, Step.written s = some (component, kind) → (as? kind).isSome = true)
    (calls : List Call) : (l.run calls).Fits component as? := by
  induction calls generalizing l with
  | nil => exact h
  | cons c calls ih => exact ih (h.call hkind c)

end Log

theorem Draft.Logged.getOne_eq {component : Component} {d : Draft} {l : Log}
    (h : d.Logged component l) {as? : ClauseKind Subquery → Option α} (hl : l.Fits component as?)
    (e : Engine) : d.query.getOne component as? (some e) = .ok (l.value component as? e) := by
  have hhead (o : Option (Clause Subquery)) : o.toList.head? = o := by cases o <;> rfl
  have hchoose : Statement.choose (some e) (d.query.bucket component (some e)) =
      l.latest component e := by
    rw [Statement.choose_bucket, h.stands, h.stands, hhead, hhead, Log.latest]
  rw [Statement.getOne, hchoose, Log.value]
  cases hc : l.latest component e with
  | none => rfl
  | some c =>
    have hmem {scope : Option Engine} (hlast : l.last component scope = some c) :
        c ∈ l.writes ∧ c.component = component := by
      obtain ⟨hwritten, hstands⟩ := List.mem_filter.mp (List.mem_of_getLast? hlast)
      rw [Clause.stands, Bool.and_eq_true, beq_iff_eq] at hstands
      exact ⟨hwritten, hstands.1⟩
    obtain ⟨hwritten, hcomponent⟩ : c ∈ l.writes ∧ c.component = component :=
      (Option.or_eq_some_iff.mp hc).elim hmem fun h => hmem h.2
    obtain ⟨x, hx⟩ := Option.isSome_iff_exists.mp (hl c hwritten hcomponent)
    simp [Clause.view, hx]
    rfl

/-- However the scopes are nested, a slot holds one clause for each of them at most. Unless the slot
is cleared, an engine finds in it what was written last for it alone, or else what was written last
for all engines, or else nothing. -/
theorem slots_hold_last_written {steps : List Step}
    (h : ∀ s, .single s ∈ Step.allCalls steps → s.isFree = false) :
    Draft.run {} (Step.allCalls steps) = ⟨Query.build steps, []⟩ ∧
    ∀ calls, calls <+: Step.allCalls steps →
      let q := (Draft.run {} calls).query
      let written := Log.run {} calls
      (∀ component, component.isSlot = true → ∀ scope,
        (q.clauses.filter (·.stands component scope)).length ≤ 1) ∧
      ((∀ engine, .single (.clear .limit engine) ∉ calls) → ∀ e,
        q.limitFor (some e) = .ok ((written.value .limit ClauseKind.limit? e).getD 0)) ∧
      ((∀ engine, .single (.clear .offset engine) ∉ calls) → ∀ e,
        q.offsetFor (some e) = .ok ((written.value .offset ClauseKind.offset? e).getD 0)) ∧
      ((∀ engine, .single (.clear .source engine) ∉ calls) → ∀ e,
        q.getOne .source ClauseKind.source? (some e) =
          .ok (written.value .source ClauseKind.source? e)) := by
  refine ⟨Draft.run_allCalls {} steps, fun calls hprefix => ?_⟩
  have hcalls (s : Step) (hs : .single s ∈ calls) : s.isSingle = true ∧ s.isFree = false := by
    have hmem := hprefix.subset hs
    exact ⟨Step.isSingle_of_mem_allCalls steps hmem, h s hmem⟩
  have hget {α : Type} {component : Component} (hslot : component.isSlot = true)
      {as? : ClauseKind Subquery → Option α}
      (hkind : ∀ s kind, Step.written s = some (component, kind) → (as? kind).isSome = true)
      (hclear : ∀ engine, .single (.clear component engine) ∉ calls) (e : Engine) :
      (Draft.run {} calls).query.getOne component as? (some e) =
        .ok ((Log.run {} calls).value component as? e) := by
    have hlogged : Draft.Logged component {} {} := ⟨rfl, rfl, fun _ => rfl⟩
    have hfits : Log.Fits component as? {} := List.forall_mem_nil _
    exact (hlogged.run hslot hcalls hclear).getOne_eq (hfits.run hkind calls) e
  refine ⟨fun component hslot => ?_, fun hclear e => ?_, fun hclear e => ?_, fun hclear e => ?_⟩
  · have hnone : Draft.Single component {} := fun _ => Nat.zero_le 1
    exact hnone.run hslot hcalls
  · rw [Statement.limitFor, hget rfl (fun s kind hk => by cases s <;> cases hk; rfl) hclear]
    rfl
  · rw [Statement.offsetFor, hget rfl (fun s kind hk => by cases s <;> cases hk; rfl) hclear]
    rfl
  · exact hget rfl (fun s kind hk => by cases s <;> cases hk <;> rfl) hclear e

def nestedPages : List Step :=
  [.table "t", .limit 10, .forEngine .mySql [.limit 20,
    .forEngine .postgres [.limit 30, .offset 3], .forPage 3 40], .limit 50]

theorem slots_hold_last_written_nestedPages :
    (∀ s, .single s ∈ Step.allCalls nestedPages → s.isFree = false) ∧
    (Query.build nestedPages).limitFor (some .mySql) = .ok 40 ∧
    (Query.build nestedPages).offsetFor (some .mySql) = .ok 80 ∧
    (Query.build nestedPages).limitFor (some .postgres) = .ok 30 ∧
    (Query.build nestedPages).offsetFor (some .postgres) = .ok 3 ∧
    (Query.build nestedPages).limitFor (some .sqlite) = .ok 50 ∧
    (Query.build nestedPages).offsetFor (some .sqlite) = .ok 0 := by
  have hcalls : Step.allCalls nestedPages = [.single (.table "t"), .single (.limit 10),
      .enter .mySql, .single (.limit 20), .enter .postgres, .single (.limit 30),
      .single (.offset 3), .leave, .single (.limit 40), .single (.offset 80), .leave,
      .single (.limit 50)] := rfl
  have h : ∀ s, .single s ∈ Step.allCalls nestedPages → s.isFree = false := by
    intro s hs
    simp [hcalls] at hs
    rcases hs with rfl | rfl | rfl | rfl | rfl | rfl | rfl | rfl <;> rfl
  have hclear (component : Component) (engine : Option Engine) :
      .single (.clear component engine) ∉ Step.allCalls nestedPages := by simp [hcalls]
  obtain ⟨hrun, hprefix⟩ := slots_hold_last_written h
  obtain ⟨-, hlimit, hoffset, -⟩ := hprefix _ (List.prefix_refl _)
  have hquery : (Draft.run {} (Step.allCalls nestedPages)).query = Query.build nestedPages :=
    congrArg Draft.query hrun
  rw [hquery] at hlimit hoffset
  exact ⟨h, hlimit (hclear _) _, hoffset (hclear _) _, hlimit (hclear _) _, hoffset (hclear _) _,
    hlimit (hclear _) _, hoffset (hclear _) _⟩

end SqlDialects
