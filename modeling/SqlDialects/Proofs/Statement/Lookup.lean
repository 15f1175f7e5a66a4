import SqlDialects.Proofs.Outcome.Results
import SqlDialects.Proofs.Statement.Nested
import SqlDialects.Render.Page

/-!
Looking clauses up in statements whose nested statements are replaced, and where the clauses
found stand. Replacing nested statements does not change what is found.
-/

namespace SqlDialects

variable {α β σ τ : Type}

namespace ClauseKind

variable (f : σ → τ) (k : ClauseKind σ)

@[simp] theorem source?_map : (k.map f).source? = k.source?.map (Source.map f) := by
  cases k <;> rfl

@[simp] theorem column?_map : (k.map f).column? = k.column?.map (Column.map f) := by
  cases k <;> rfl

@[simp] theorem condition?_map : (k.map f).condition? = k.condition?.map (Condition.map f) := by
  cases k <;> rfl

@[simp] theorem join?_map : (k.map f).join? = k.join?.map (Join.map f) := by
  cases k <;> rfl

@[simp] theorem order?_map : (k.map f).order? = k.order?.map id := by
  cases k <;> rfl

@[simp] theorem combine?_map : (k.map f).combine? = k.combine?.map (Combine.map f) := by
  cases k <;> rfl

@[simp] theorem insert?_map : (k.map f).insert? = k.insert?.map (Insert.map f) := by
  cases k <;> rfl

@[simp] theorem aggregate?_map : (k.map f).aggregate? = k.aggregate?.map id := by
  cases k <;> rfl

@[simp] theorem limit?_map : (k.map f).limit? = k.limit?.map id := by
  cases k <;> rfl

@[simp] theorem offset?_map : (k.map f).offset? = k.offset?.map id := by
  cases k <;> rfl

/-! What a clause is read as is what it holds. -/

section Read

variable (k : ClauseKind σ)

theorem source?_eq_some (s : Source σ) (h : k.source? = some s) : k = .source s := by
  cases k <;> cases h
  rfl

theorem column?_eq_some (x : Column σ) (h : k.column? = some x) : k = .column x := by
  cases k <;> cases h
  rfl

theorem condition?_eq_some (x : Condition σ) (h : k.condition? = some x) : k = .condition x := by
  cases k <;> cases h
  rfl

theorem join?_eq_some (j : Join σ) (h : k.join? = some j) : k = .join j := by
  cases k <;> cases h
  rfl

theorem order?_eq_some (o : Order) (h : k.order? = some o) : k = .order o := by
  cases k <;> cases h
  rfl

theorem aggregate?_eq_some (a : Aggregate) (h : k.aggregate? = some a) : k = .aggregate a := by
  cases k <;> cases h
  rfl

theorem combine?_eq_some (x : Combine σ) (h : k.combine? = some x) : k = .combine x := by
  cases k <;> cases h
  rfl

theorem insert?_eq_some (i : Insert σ) (h : k.insert? = some i) : k = .insert i := by
  cases k <;> cases h
  rfl

end Read

end ClauseKind

theorem Clause.view_map {f : σ → τ} {g : α → β} {as? : ClauseKind σ → Option α}
    {bs? : ClauseKind τ → Option β} (h : ∀ k, bs? (k.map f) = (as? k).map g)
    (component : Component) (c : Clause σ) :
    (c.map f).view component bs? = (c.view component as?).map g := by
  have hk : bs? (c.map f).kind = (as? c.kind).map g := h c.kind
  have hf : (c.map f).kind.family = c.kind.family := ClauseKind.family_map f c.kind
  unfold view
  rw [hk, hf]
  cases as? c.kind <;> rfl

namespace Statement

variable (f : σ → τ) (q : Statement σ) (component : Component) (engine : Option Engine)

@[simp] theorem bucket_map :
    (q.map f).bucket component engine = (q.bucket component engine).map (·.map f) := by
  simp [bucket, Statement.map, List.filter_map, Function.comp_def]

@[simp] theorem has_map : (q.map f).has component engine = q.has component engine := by
  simp [has, Statement.map, List.any_map, Function.comp_def]

theorem choose_map (cs : List (Clause σ)) :
    choose engine (cs.map (·.map f)) = (choose engine cs).map (·.map f) := by
  simp only [choose, List.find?_map, List.head?_map, Function.comp_def, Clause.map]
  cases cs.find? fun c => engine.isSome && c.engine == engine with
  | some c => rfl
  | none => cases cs.find? (·.engine.isNone) <;> rfl

variable {f} in
theorem getAll_map {g : α → β} {as? : ClauseKind σ → Option α} {bs? : ClauseKind τ → Option β}
    (h : ∀ k, bs? (k.map f) = (as? k).map g) :
    (q.map f).getAll component bs? engine = (q.getAll component as? engine).map (List.map g) := by
  rw [getAll, getAll, bucket_map, List.mapM_map, ← mapM_map_result]
  exact congrArg (List.mapM · _) (funext fun c => c.view_map h component)

variable {f} in
theorem getOne_map {g : α → β} {as? : ClauseKind σ → Option α} {bs? : ClauseKind τ → Option β}
    (h : ∀ k, bs? (k.map f) = (as? k).map g) :
    (q.map f).getOne component bs? engine = (q.getOne component as? engine).map (Option.map g) := by
  rw [getOne, getOne, bucket_map, choose_map]
  cases choose engine (q.bucket component engine) with
  | none => rfl
  | some c =>
    show ((c.map f).view component bs?).map some =
      ((c.view component as?).map some).map (Option.map g)
    rw [Clause.view_map h]
    cases c.view component as? <;> rfl

@[simp] theorem limitFor_map : (q.map f).limitFor engine = q.limitFor engine := by
  rw [limitFor, limitFor, getOne_map q _ _ (ClauseKind.limit?_map f)]
  cases q.getOne .limit ClauseKind.limit? engine <;> simp [Except.map]

@[simp] theorem offsetFor_map : (q.map f).offsetFor engine = q.offsetFor engine := by
  rw [offsetFor, offsetFor, getOne_map q _ _ (ClauseKind.offset?_map f)]
  cases q.getOne .offset ClauseKind.offset? engine <;> simp [Except.map]

@[simp] theorem window_map : (q.map f).window engine = q.window engine := by
  simp [window]

variable {q component engine}

theorem getAll_eq_ok {as? : ClauseKind σ → Option α} {xs : List α} :
    q.getAll component as? engine = .ok xs ↔
      List.Forall₂ (fun c x => as? c.kind = some x) (q.bucket component engine) xs := by
  have hv (c : Clause σ) (x : α) : c.view component as? = .ok x ↔ as? c.kind = some x := by
    unfold Clause.view
    cases as? c.kind <;> simp
  simp only [getAll, mapM_eq_ok, hv]

theorem mem_of_getAll {as? : ClauseKind σ → Option α} {xs : List α}
    (h : q.getAll component as? engine = .ok xs) {x : α} (hx : x ∈ xs) :
    ∃ c ∈ q.bucket component engine, as? c.kind = some x :=
  forall₂_mem_right (getAll_eq_ok.mp h) hx

theorem mem_bucket {c : Clause σ} :
    c ∈ q.bucket component engine ↔ c ∈ q.clauses ∧ c.visible component engine :=
  List.mem_filter

theorem bucket_eq_nil (h : q.has component engine = false) : q.bucket component engine = [] := by
  by_contra hne
  rw [(q.has_eq_true_iff component engine).mpr hne] at h
  cases h

theorem bucket_add_of_ne (q : Statement σ) {component other : Component} (h : other ≠ component)
    (kind : ClauseKind σ) (engine : Option Engine) :
    (q.add component kind).bucket other engine = q.bucket other engine := by
  have hv : Clause.visible other engine ⟨component, q.scope, kind⟩ = false := by
    simp [Clause.visible, Ne.symm h]
  rw [bucket_add, List.filter_cons_of_neg (by rw [hv]; decide), List.filter_nil, List.append_nil]

theorem bucket_clear_of_ne (q : Statement σ) {component other : Component} (h : other ≠ component)
    (cleared engine : Option Engine) :
    (q.clear component cleared).bucket other engine = q.bucket other engine := by
  unfold bucket clear
  rw [List.filter_filter]
  refine List.filter_congr fun c _ => ?_
  by_cases hc : c.component = other
  · simp [Clause.visible, hc, h]
  · simp [Clause.visible, hc]

theorem mem_of_choose {cs : List (Clause σ)} {c : Clause σ} (h : choose engine cs = some c) :
    c ∈ cs := by
  unfold choose at h
  rcases Option.or_eq_some_iff.mp h with h | ⟨-, h⟩
  · exact List.mem_of_find?_eq_some h
  rcases Option.or_eq_some_iff.mp h with h | ⟨-, h⟩
  · exact List.mem_of_find?_eq_some h
  · exact List.mem_of_head? h

theorem getOne_eq_some {as? : ClauseKind σ → Option α} {x : α} :
    q.getOne component as? engine = .ok (some x) ↔
      ∃ c, choose engine (q.bucket component engine) = some c ∧ as? c.kind = some x := by
  unfold getOne
  cases choose engine (q.bucket component engine) with
  | none => simp
  | some c =>
    cases hc : as? c.kind <;> simp [Clause.view, hc, Except.map]

end Statement

end SqlDialects
