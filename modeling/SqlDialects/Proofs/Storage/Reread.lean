import SqlDialects.Proofs.Storage.Values
import SqlDialects.Proofs.Statement.Terms
import SqlDialects.Statement.Same

/-! Clauses and statements as they are read back: each value in its place, as it is read back. -/

namespace SqlDialects

variable {σ τ : Type} (f : Value → Value)

def Source.mapValues : Source σ → Source σ
  | raw sql bindings aliasName => .raw sql (bindings.map f) aliasName
  | s => s

def Column.mapValues : Column σ → Column σ
  | raw sql bindings => .raw sql (bindings.map f)
  | c => c

def Predicate.mapValues : Predicate σ → Predicate σ
  | compare column operator value => .compare column operator (f value)
  | like column operator value caseSensitive escape =>
    .like column operator (f value) caseSensitive escape
  | datePart part column operator value => .datePart part column operator (f value)
  | oneOf column values => .oneOf column (values.map f)
  | between column lower higher => .between column (f lower) (f higher)
  | queryAgainst q operator value => .queryAgainst q operator (f value)
  | raw sql bindings => .raw sql (bindings.map f)
  | p => p

def Order.mapValues : Order → Order
  | raw sql bindings => .raw sql (bindings.map f)
  | o => o

def Combine.mapValues : Combine σ → Combine σ
  | raw sql bindings => .raw sql (bindings.map f)
  | c => c

def Insert.mapValues : Insert σ → Insert σ
  | values columns vs returnId => .values columns (vs.map f) returnId
  | i => i

def ClauseKind.mapValues : ClauseKind σ → ClauseKind σ
  | source s => .source (s.mapValues f)
  | column c => .column (c.mapValues f)
  | condition c => .condition { c with predicate := c.predicate.mapValues f }
  | order o => .order (o.mapValues f)
  | combine c => .combine (c.mapValues f)
  | insert i => .insert (i.mapValues f)
  | k => k

def Statement.mapValues (q : Statement σ) : Statement σ :=
  { q with
    clauses := q.clauses.map fun c => { c with kind := c.kind.mapValues f }
    vars := q.vars.map fun v => (v.1, f v.2) }

def Subquery.reread : Subquery → Subquery :=
  Subquery.fold fun q => .of (q.mapValues Value.reread)

def Query.reread (q : Query) : Query := (q.map Subquery.reread).mapValues Value.reread

theorem Subquery.reread_of (q : Query) : Subquery.reread (.of q) = .of (Query.reread q) := by
  rw [Subquery.reread, Subquery.fold_of]
  rfl

def noFloat : Terms where
  value := Value.NoFloat
  raw _ bindings := ∀ v ∈ bindings, v.NoFloat

mutual
theorem Value.same_reread : ∀ {v : Value}, v.NoFloat → v.same v.reread
  | .array _, h => Value.sameItems_reread h.item
  | .float x, h => absurd (List.mem_singleton.mpr rfl) (h x)
  | .decimal d, _ => d.sameNumber_reread
  | .null, _ => rfl
  | .bool _, _ | .int _, _ | .uint _, _ | .string _, _ | .bytes _, _ | .uuid _, _ | .date _, _
  | .dateTime _, _ | .raw _, _ | .var _, _ => beq_self_eq_true _

theorem Value.sameItems_reread : ∀ {vs : List Value}, (∀ v ∈ vs, v.NoFloat) →
    Value.sameItems vs (Value.rereadAll vs)
  | [], _ => rfl
  | _ :: _, h => by
    rw [Value.rereadAll, Value.sameItems, Value.same_reread (h _ List.mem_cons_self),
      Value.sameItems_reread fun v hv => h v (List.mem_cons_of_mem _ hv)]
    rfl
end

theorem Value.sameItems_map_reread {vs : List Value} (h : ∀ v ∈ vs, v.NoFloat) :
    Value.sameItems vs (vs.map Value.reread) := by
  rw [← Value.rereadAll_eq_map]
  exact Value.sameItems_reread h

section Same

variable {ρ : Type} {f : σ → ρ} {g : σ → τ} {r : ρ → τ → Bool}

abbrev Accepts (f : σ → ρ) (g : σ → τ) (r : ρ → τ → Bool) (n : σ) : Prop := r (f n) (g n)

theorem Source.same_reread {s : Source σ} (h : s.Obeys noFloat (Accepts f g r)) :
    (s.map f).same r ((s.map g).mapValues Value.reread) := by
  cases s with
  | table name => simp [map, mapValues, same]
  | raw sql bindings aliasName => simp [map, mapValues, same, Value.sameItems_map_reread h.1]
  | query n aliasName => simpa [map, mapValues, same] using h.1

theorem Column.same_reread {c : Column σ} (h : c.Obeys noFloat (Accepts f g r)) :
    (c.map f).same r ((c.map g).mapValues Value.reread) := by
  cases c with
  | named name => simp [map, mapValues, same]
  | raw sql bindings => simp [map, mapValues, same, Value.sameItems_map_reread h]
  | query n aliasName => simpa [map, mapValues, same] using h.1

theorem Predicate.same_reread {p : Predicate σ} (h : p.Obeys noFloat (Accepts f g r)) :
    (p.map f).same r ((p.map g).mapValues Value.reread) := by
  cases p with
  | compare column operator v => simp [map, mapValues, same, Value.same_reread h.2.2]
  | like column operator v caseSensitive escape =>
    simp [map, mapValues, same, Value.same_reread h.2.2.1]
  | datePart part column operator v => simp [map, mapValues, same, Value.same_reread h.2.2.2]
  | columns first operator second => simp [map, mapValues, same]
  | isNull column => simp [map, mapValues, same]
  | truth column v => simp [map, mapValues, same]
  | oneOf column vs => simp [map, mapValues, same, Value.sameItems_map_reread h.2]
  | oneOfQuery column n => simpa [map, mapValues, same] using h.2
  | between column lower higher =>
    simp [map, mapValues, same, Value.same_reread h.2.1, Value.same_reread h.2.2]
  | rowsExist n => exact h
  | againstQuery column operator n => simpa [map, mapValues, same] using h.2.2
  | queryAgainst n operator v =>
    simpa [map, mapValues, same, Value.same_reread h.2.2] using h.1
  | nested n => exact h
  | raw sql bindings => simp [map, mapValues, same, Value.sameItems_map_reread h]

theorem Order.same_reread {o : Order} (h : o.Obeys noFloat) :
    o.same (o.mapValues Value.reread) := by
  cases o with
  | raw sql bindings => simp [mapValues, same, Value.sameItems_map_reread h]
  | _ => simp [mapValues, same]

theorem Combine.same_reread {c : Combine σ} (h : c.Obeys noFloat (Accepts f g r)) :
    (c.map f).same r ((c.map g).mapValues Value.reread) := by
  cases c with
  | query operation all n =>
    have hn : r (f n) (g n) := h
    simp [map, mapValues, same, hn]
  | raw sql bindings => simp [map, mapValues, same, Value.sameItems_map_reread h]

theorem Insert.same_reread {i : Insert σ} (h : i.Obeys noFloat (Accepts f g r)) :
    (i.map f).same r ((i.map g).mapValues Value.reread) := by
  cases i with
  | values columns vs returnId =>
    simp [map, mapValues, same, Value.sameItems_map_reread h.2]
  | query columns n => simpa [map, mapValues, same] using h.2

theorem ClauseKind.same_reread {k : ClauseKind σ} (h : k.Obeys noFloat (Accepts f g r)) :
    (k.map f).same r ((k.map g).mapValues Value.reread) := by
  cases k with
  | source s => exact Source.same_reread h
  | column c => exact Column.same_reread h
  | condition c =>
    have hp := Predicate.same_reread h
    simpa [map, mapValues, same, Condition.map, Condition.same] using hp
  | join j =>
    have hn : r (f j.target) (g j.target) := h
    simp [map, mapValues, same, Join.map, Join.same, hn]
  | order o => exact Order.same_reread h
  | combine c => exact Combine.same_reread h
  | insert i => exact Insert.same_reread h
  | aggregate a => simp [map, mapValues, same]
  | limit n => simp [map, mapValues, same]
  | offset n => simp [map, mapValues, same]

theorem Clause.sameAll_reread {cs : List (Clause σ)}
    (h : ∀ c ∈ cs, c.kind.Obeys noFloat (Accepts f g r)) :
    Clause.sameAll r (cs.map (·.map f))
      ((cs.map (·.map g)).map fun c => { c with kind := c.kind.mapValues Value.reread }) := by
  induction cs with
  | nil => rfl
  | cons c cs ih =>
    have hk := ClauseKind.same_reread (h c List.mem_cons_self)
    have hcs := ih fun c hc => h c (List.mem_cons_of_mem _ hc)
    have hc : (c.map f).same r { c.map g with kind := (c.map g).kind.mapValues Value.reread } := by
      simp only [Clause.same, Clause.map, hk, beq_self_eq_true, Bool.and_self]
    simp only [List.map_cons, Clause.sameAll, hc, hcs, Bool.and_self]

end Same

theorem Variables.find?_map {vars : Variables} (h : (vars.map (·.1)).Nodup)
    {v : String × Value} (hv : v ∈ vars) (f : Value → Value) :
    Variables.find? (vars.map fun v => (v.1, f v.2)) v.1 = some (f v.2) := by
  induction vars with
  | nil => cases hv
  | cons w vars ih =>
    rw [List.map_cons, List.nodup_cons] at h
    rw [List.map_cons, Variables.find?]
    rcases List.mem_cons.mp hv with rfl | hv
    · rw [if_pos rfl]
    · rw [if_neg fun he => h.1 (List.mem_map.mpr ⟨v, hv, he.symm⟩), ih h.2 hv]

theorem Variables.same_reread {vars : Variables} (hn : (vars.map (·.1)).Nodup)
    (hv : ∀ v ∈ vars, v.2.NoFloat) :
    Variables.same vars (vars.map fun v => (v.1, v.2.reread)) := by
  simp only [Variables.same, List.length_map, beq_self_eq_true, Bool.true_and, List.all_eq_true]
  intro v hm
  rw [Variables.find?_map hn hm]
  exact Value.same_reread (hv v hm)

/-- Without a floating-point number, anything pending and a scope, and with each variable defined
once, all of a statement is stored. -/
structure Statement.Storable (P : σ → Prop) (q : Statement σ) : Prop where
  clauses : q.Obeys noFloat P
  vars : ∀ v ∈ q.vars, v.2.NoFloat
  names : (q.vars.map (·.1)).Nodup
  scope : q.scope = none
  pendingOr : q.pendingOr = false
  pendingNot : q.pendingNot = false

def Subquery.Storable (s : Subquery) : Prop := s.fold (Statement.Storable id)

def Query.Storable (q : Query) : Prop := Statement.Storable Subquery.Storable q

theorem Statement.storable_map {f : σ → τ} {P : τ → Prop} {q : Statement σ} :
    (q.map f).Storable P ↔ q.Storable (P ∘ f) :=
  ⟨fun h => ⟨obeys_map.mp h.1, h.2, h.3, h.4, h.5, h.6⟩,
    fun h => ⟨obeys_map.mpr h.1, h.2, h.3, h.4, h.5, h.6⟩⟩

theorem Subquery.storable_of {q : Query} : (Subquery.of q).Storable ↔ q.Storable := by
  rw [Storable, fold_of, Statement.storable_map]
  rfl

theorem Statement.Storable.imp {P Q : σ → Prop} {q : Statement σ} (h : q.Storable P)
    (hn : ∀ n ∈ q.nested, P n → Q n) : q.Storable Q :=
  { h with clauses := h.clauses.imp hn }

theorem Subquery.Storable.induction {P : Subquery → Prop}
    (step : ∀ q : Query, Statement.Storable P q → P (.of q)) (s : Subquery) (h : s.Storable) :
    P s := by
  induction s using Subquery.induction with
  | step q ih => exact step q (Statement.Storable.imp (storable_of.mp h) ih)

theorem Statement.same_reread {ρ : Type} {f : σ → ρ} {g : σ → τ} {r : ρ → τ → Bool}
    {q : Statement σ} (h : q.Storable (Accepts f g r)) :
    (q.map f).same r ((q.map g).mapValues Value.reread) := by
  have hc := Clause.sameAll_reread h.clauses.2
  have hv := Variables.same_reread h.names h.vars
  simp only [same, map, mapValues, hc, hv, beq_self_eq_true, Bool.and_self]

theorem Subquery.same_reread (s : Subquery) (h : s.Storable) : s.same s.reread = true := by
  refine Subquery.Storable.induction (P := fun s => s.same s.reread = true) (fun q hq => ?_) s h
  rw [same_of, reread_of]
  exact Statement.same_reread hq

/-- A statement that is read back is equal to the one that was stored. -/
theorem Query.same_reread {q : Query} (h : q.Storable) : q.same q.reread := by
  have hn := Statement.same_reread (f := id) (g := Subquery.reread) (r := Subquery.same)
    (Statement.Storable.imp h fun n _ hs => Subquery.same_reread n hs)
  rwa [Statement.map_id] at hn

end SqlDialects
