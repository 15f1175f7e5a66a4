import SqlDialects.Compiled
import SqlDialects.Proofs.Statement.Lookup
import SqlDialects.Proofs.Statement.Nested

/-!
The conditions that the SQL of a statement is made from: those of the clauses that an engine sees,
where they are rendered, and those of the statements nested there.
-/

namespace SqlDialects

variable {σ τ : Type}

namespace Statement

def kinds (e : Engine) (component : Component) (q : Statement σ) : List (ClauseKind σ) :=
  (q.bucket component (some e)).map (·.kind)

def chosen (e : Engine) (component : Component) (q : Statement σ) : Option (ClauseKind σ) :=
  (choose (some e) (q.bucket component (some e))).map (·.kind)

/-- What is rendered of a statement in a place. An aggregate stands for the columns. -/
def rendered (e : Engine) (q : Statement σ) : Place → List (ClauseKind σ)
  | .group => q.kinds e .filter
  | .joined => (q.chosen e .source).toList ++ q.kinds e .filter
  | .select =>
    (if (q.chosen e .aggregate).isSome then [] else q.kinds e .select) ++
      (q.chosen e .source).toList ++ q.kinds e .join ++ q.kinds e .filter ++
      q.kinds e .group ++ q.kinds e .having ++ q.kinds e .combine

variable {e : Engine} (q : Statement σ)

theorem kinds_map (f : σ → τ) (component : Component) :
    (q.map f).kinds e component = (q.kinds e component).map (·.map f) := by
  unfold kinds
  rw [bucket_map, List.map_map, List.map_map]
  rfl

theorem chosen_map (f : σ → τ) (component : Component) :
    (q.map f).chosen e component = (q.chosen e component).map (·.map f) := by
  unfold chosen
  rw [bucket_map, choose_map, Option.map_map, Option.map_map]
  rfl

theorem rendered_map (f : σ → τ) (place : Place) :
    (q.map f).rendered e place = (q.rendered e place).map (·.map f) := by
  have htoList (x : Option (ClauseKind σ)) :
      (x.map (·.map f)).toList = x.toList.map (·.map f) := by
    cases x <;> rfl
  cases place with
  | group => exact q.kinds_map f .filter
  | joined =>
    unfold rendered
    rw [chosen_map, kinds_map, htoList, List.map_append]
  | select =>
    unfold rendered
    simp only [chosen_map, kinds_map, htoList, Option.isSome_map, List.map_append]
    split <;> rfl

theorem rendered_subset {p q : Statement σ}
    (hb : ∀ component, component ≠ .select → component ≠ .order →
      q.bucket component (some e) = p.bucket component (some e))
    (hs : ∀ k ∈ p.kinds e .select, k ∈ q.kinds e .select) :
    ∀ k ∈ p.rendered e .select, k ∈ q.rendered e .select := by
  have hkinds (component : Component) (hn : component ≠ .select) (ho : component ≠ .order) :
      q.kinds e component = p.kinds e component := by
    unfold kinds
    rw [hb component hn ho]
  have hchosen (component : Component) (hn : component ≠ .select) (ho : component ≠ .order) :
      q.chosen e component = p.chosen e component := by
    unfold chosen
    rw [hb component hn ho]
  intro k hk
  unfold rendered at hk ⊢
  rw [hchosen .aggregate (by decide) (by decide), hchosen .source (by decide) (by decide),
    hkinds .join (by decide) (by decide), hkinds .filter (by decide) (by decide),
    hkinds .group (by decide) (by decide), hkinds .having (by decide) (by decide),
    hkinds .combine (by decide) (by decide)]
  simp only [List.append_assoc] at hk ⊢
  rw [List.mem_append] at hk ⊢
  refine hk.imp_left fun hk => ?_
  split at hk
  · cases hk
  · next ha =>
    rw [if_neg ha]
    exact hs k hk

end Statement

/-- The condition is rendered with a statement in a place, or with one nested in it. -/
inductive Renders (e : Engine) : Place → Query → Condition Subquery → Prop
  | here {place : Place} {q : Query} {x : Condition Subquery}
      (hx : .condition x ∈ q.rendered e place) : Renders e place q x
  | inside {place inner : Place} {q body : Query} {k : ClauseKind Subquery}
      {x : Condition Subquery} (hk : k ∈ q.rendered e place)
      (hb : (inner, Subquery.of body) ∈ k.parts) (hx : Renders e inner body x) :
      Renders e place q x

inductive Query.Renders (e : Engine) (q : Query) (x : Condition Subquery) : Prop
  | select (hm : q.method = .select) (hx : SqlDialects.Renders e .select q x)
  | aggregate {r : Query} (hm : q.method = .aggregate) (hr : q.aggregated e = .ok r)
      (hx : SqlDialects.Renders e .select r x)
  | insert {body : Query} {k : ClauseKind Subquery} {place : Place} (hm : q.method = .insert)
      (hk : k ∈ q.kinds e .insert) (hb : (place, Subquery.of body) ∈ k.parts)
      (hx : SqlDialects.Renders e place body x)
  | change (hm : q.method = .update ∨ q.method = .assign ∨ q.method = .delete)
      (hx : SqlDialects.Renders e .group q x)
  | cte {body : Query} {s : Source Subquery} {sources : List (Source Subquery)} {place : Place}
      (hs : q.ctes e = .ok sources) (hm : s ∈ sources)
      (hb : (place, Subquery.of body) ∈ s.parts) (hx : SqlDialects.Renders e place body x)

namespace Predicate

def operator? : Predicate σ → Option String
  | compare _ operator _ => some operator
  | like _ operator _ _ _ => some operator
  | datePart _ _ operator _ => some operator
  | columns _ operator _ => some operator
  | againstQuery _ operator _ => some operator
  | queryAgainst _ operator _ => some operator
  | _ => none

def isPattern : Predicate σ → Bool
  | like _ operator _ _ _ => ["starts", "ends", "contains"].contains operator
  | _ => false

@[simp] theorem operator?_map (f : σ → τ) (p : Predicate σ) :
    (p.map f).operator? = p.operator? := by
  cases p <;> rfl

@[simp] theorem isPattern_map (f : σ → τ) (p : Predicate σ) :
    (p.map f).isPattern = p.isPattern := by
  cases p <;> rfl

end Predicate

end SqlDialects
