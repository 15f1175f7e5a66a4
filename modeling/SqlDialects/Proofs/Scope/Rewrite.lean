import SqlDialects.Proofs.Statement.Building

/-!
Statements whose values and nested statements are replaced, each where it stands. The clauses stay
in their buckets, so looking one up finds it as it is replaced.
-/

namespace SqlDialects

variable {σ τ υ α β : Type}

section

variable (f : Value → Value)

def Predicate.rewrite (g : Place → σ → τ) : Predicate σ → Predicate τ
  | compare column operator value => .compare column operator (f value)
  | like column operator value caseSensitive escape =>
    .like column operator (f value) caseSensitive escape
  | datePart part column operator value => .datePart part column operator (f value)
  | columns first operator second => .columns first operator second
  | isNull column => .isNull column
  | truth column value => .truth column value
  | oneOf column values => .oneOf column (values.map f)
  | oneOfQuery column q => .oneOfQuery column (g .select q)
  | between column lower higher => .between column (f lower) (f higher)
  | rowsExist q => .rowsExist (g .select q)
  | againstQuery column operator q => .againstQuery column operator (g .select q)
  | queryAgainst q operator value => .queryAgainst (g .select q) operator (f value)
  | nested q => .nested (g .group q)
  | raw sql bindings => .raw sql bindings

def Condition.rewrite (g : Place → σ → τ) (c : Condition σ) : Condition τ :=
  ⟨c.predicate.rewrite f g, c.isOr, c.isNot⟩

def Insert.rewrite (g : Place → σ → τ) : Insert σ → Insert τ
  | values columns cells returnId => .values columns (cells.map f) returnId
  | query columns q => .query columns (g .select q)

def ClauseKind.rewrite (g : Place → σ → τ) : ClauseKind σ → ClauseKind τ
  | source s => .source (s.map (g .select))
  | column c => .column (c.map (g .select))
  | condition c => .condition (c.rewrite f g)
  | join j => .join (j.map (g .joined))
  | order o => .order o
  | combine c => .combine (c.map (g .select))
  | insert i => .insert (i.rewrite f g)
  | aggregate a => .aggregate a
  | limit n => .limit n
  | offset n => .offset n

def Clause.rewrite (g : Component → Place → σ → τ) (c : Clause σ) : Clause τ :=
  ⟨c.component, c.engine, c.kind.rewrite f (g c.component)⟩

/-- The statement, rewritten, with definitions of its own. -/
def Statement.rewrite (g : Component → Place → σ → τ) (vars : Variables) (q : Statement σ) :
    Statement τ :=
  ⟨q.method, q.aliasName, q.distinct, q.clauses.map (·.rewrite f g), vars, q.scope,
    q.pendingOr, q.pendingNot⟩

end

variable (f : Value → Value)

namespace ClauseKind

theorem map_eq_rewrite (g : σ → τ) (k : ClauseKind σ) : k.map g = k.rewrite id fun _ => g := by
  cases k with
  | source s => rfl
  | column c => rfl
  | condition c =>
    obtain ⟨p, _, _⟩ := c
    cases p <;> simp [map, Condition.map, Predicate.map, rewrite, Condition.rewrite,
      Predicate.rewrite]
  | insert i => cases i <;> simp [map, Insert.map, rewrite, Insert.rewrite]
  | _ => rfl

theorem rewrite_rewrite (f' : Value → Value) (g : Place → σ → τ) (h : Place → τ → υ)
    (k : ClauseKind σ) :
    (k.rewrite f g).rewrite f' h = k.rewrite (f' ∘ f) fun place n => h place (g place n) := by
  cases k with
  | source s => cases s <;> rfl
  | column c => cases c <;> rfl
  | condition c =>
    obtain ⟨p, _, _⟩ := c
    cases p <;> simp [rewrite, Condition.rewrite, Predicate.rewrite]
  | combine c => cases c <;> rfl
  | insert i => cases i <;> simp [rewrite, Insert.rewrite]
  | _ => rfl

theorem held_rewrite (g : Place → σ → τ) (k : ClauseKind σ) :
    (k.rewrite f g).held = k.held.map f := by
  cases k with
  | condition c =>
    obtain ⟨p, _, _⟩ := c
    cases p <;> rfl
  | insert i => cases i <;> rfl
  | _ => rfl

theorem parts_rewrite (g : Place → σ → τ) (k : ClauseKind σ) :
    (k.rewrite f g).parts = k.parts.map fun n => (n.1, g n.1 n.2) := by
  cases k with
  | source s => cases s <;> rfl
  | column c => cases c <;> rfl
  | condition c =>
    obtain ⟨p, _, _⟩ := c
    cases p <;> rfl
  | combine c => cases c <;> rfl
  | insert i => cases i <;> rfl
  | _ => rfl

theorem rewrite_congr {f f' : Value → Value} {g g' : Place → σ → τ} {k : ClauseKind σ}
    (hf : ∀ v ∈ k.held, f v = f' v) (hg : ∀ n ∈ k.parts, g n.1 n.2 = g' n.1 n.2) :
    k.rewrite f g = k.rewrite f' g' := by
  cases k with
  | source s =>
    cases s with
    | query q aliasName => simp [rewrite, Source.map, hg (.select, q) (.head _)]
    | _ => rfl
  | column c =>
    cases c with
    | query q aliasName => simp [rewrite, Column.map, hg (.select, q) (.head _)]
    | _ => rfl
  | condition c =>
    obtain ⟨p, isOr, isNot⟩ := c
    have hp : p.rewrite f g = p.rewrite f' g' := by
      cases p with
      | compare column operator value => simp [Predicate.rewrite, hf value (.head _)]
      | like column operator value => simp [Predicate.rewrite, hf value (.head _)]
      | datePart part column operator value => simp [Predicate.rewrite, hf value (.head _)]
      | oneOf column values =>
        have hvalues : values.map f = values.map f' := List.map_congr_left hf
        simp [Predicate.rewrite, hvalues]
      | oneOfQuery column q => simp [Predicate.rewrite, hg (.select, q) (.head _)]
      | between column lower higher =>
        simp [Predicate.rewrite, hf lower (.head _), hf higher (.tail _ (.head _))]
      | rowsExist q => simp [Predicate.rewrite, hg (.select, q) (.head _)]
      | againstQuery column operator q => simp [Predicate.rewrite, hg (.select, q) (.head _)]
      | queryAgainst q operator value =>
        simp [Predicate.rewrite, hg (.select, q) (.head _), hf value (.head _)]
      | nested q => simp [Predicate.rewrite, hg (.group, q) (.head _)]
      | _ => rfl
    simp [rewrite, Condition.rewrite, hp]
  | join j => simp [rewrite, Join.map, hg (.joined, j.target) (.head _)]
  | combine c =>
    cases c with
    | query operation all q => simp [rewrite, Combine.map, hg (.select, q) (.head _)]
    | raw sql bindings => rfl
  | insert i =>
    cases i with
    | values columns cells returnId =>
      have hcells : cells.map f = cells.map f' := List.map_congr_left hf
      simp [rewrite, Insert.rewrite, hcells]
    | query columns q => simp [rewrite, Insert.rewrite, hg (.select, q) (.head _)]
  | _ => rfl

@[simp] theorem family_rewrite (g : Place → σ → τ) (k : ClauseKind σ) :
    (k.rewrite f g).family = k.family := by
  cases k <;> rfl

variable (g : Place → σ → τ) (k : ClauseKind σ)

@[simp] theorem source?_rewrite :
    (k.rewrite f g).source? = k.source?.map (Source.map (g .select)) := by
  cases k <;> rfl

@[simp] theorem column?_rewrite :
    (k.rewrite f g).column? = k.column?.map (Column.map (g .select)) := by
  cases k <;> rfl

@[simp] theorem condition?_rewrite :
    (k.rewrite f g).condition? = k.condition?.map (Condition.rewrite f g) := by
  cases k <;> rfl

@[simp] theorem join?_rewrite : (k.rewrite f g).join? = k.join?.map (Join.map (g .joined)) := by
  cases k <;> rfl

@[simp] theorem order?_rewrite : (k.rewrite f g).order? = k.order?.map id := by
  cases k <;> rfl

@[simp] theorem combine?_rewrite :
    (k.rewrite f g).combine? = k.combine?.map (Combine.map (g .select)) := by
  cases k <;> rfl

@[simp] theorem insert?_rewrite :
    (k.rewrite f g).insert? = k.insert?.map (Insert.rewrite f g) := by
  cases k <;> rfl

@[simp] theorem aggregate?_rewrite : (k.rewrite f g).aggregate? = k.aggregate?.map id := by
  cases k <;> rfl

@[simp] theorem limit?_rewrite : (k.rewrite f g).limit? = k.limit?.map id := by
  cases k <;> rfl

@[simp] theorem offset?_rewrite : (k.rewrite f g).offset? = k.offset?.map id := by
  cases k <;> rfl

end ClauseKind

namespace Statement

variable (g : Component → Place → σ → τ) (vars : Variables) (q : Statement σ)
  (component : Component) (engine : Option Engine)

theorem map_eq_rewrite (g : σ → τ) : q.map g = q.rewrite id (fun _ _ => g) q.vars := by
  simp [Statement.map, rewrite, Clause.map, Clause.rewrite, ClauseKind.map_eq_rewrite]

theorem rewrite_rewrite (f' : Value → Value) (h : Component → Place → τ → υ)
    (vars' : Variables) :
    (q.rewrite f g vars).rewrite f' h vars' = q.rewrite (f' ∘ f)
      (fun component place n => h component place (g component place n)) vars' := by
  simp [rewrite, Clause.rewrite, ClauseKind.rewrite_rewrite]

theorem rewrite_map (h : τ → υ) :
    (q.rewrite f g vars).map h =
      q.rewrite f (fun component place n => h (g component place n)) vars := by
  rw [map_eq_rewrite, rewrite_rewrite]
  rfl

theorem map_rewrite (g : σ → τ) (h : Component → Place → τ → υ) :
    (q.map g).rewrite f h vars =
      q.rewrite f (fun component place n => h component place (g n)) vars := by
  rw [map_eq_rewrite, rewrite_rewrite]
  rfl

theorem rewrite_congr {f f' : Value → Value} {g g' : Component → Place → σ → τ} {q : Statement σ}
    (hf : ∀ c ∈ q.clauses, ∀ v ∈ c.kind.held, f v = f' v)
    (hg : ∀ c ∈ q.clauses, ∀ n ∈ c.kind.parts, g c.component n.1 n.2 = g' c.component n.1 n.2) :
    q.rewrite f g vars = q.rewrite f' g' vars := by
  have hclauses : q.clauses.map (·.rewrite f g) = q.clauses.map (·.rewrite f' g') := by
    refine List.map_congr_left fun c hc => ?_
    rw [Clause.rewrite, Clause.rewrite, ClauseKind.rewrite_congr (hf c hc) (hg c hc)]
  rw [rewrite, rewrite, hclauses]

@[simp] theorem bucket_rewrite :
    (q.rewrite f g vars).bucket component engine =
      (q.bucket component engine).map (·.rewrite f g) := by
  simp only [bucket, rewrite, List.filter_map]
  rfl

@[simp] theorem has_rewrite :
    (q.rewrite f g vars).has component engine = q.has component engine := by
  simp only [has, rewrite, List.any_map]
  rfl

theorem choose_rewrite (cs : List (Clause σ)) :
    choose engine (cs.map (·.rewrite f g)) = (choose engine cs).map (·.rewrite f g) := by
  simp only [choose, List.find?_map, List.head?_map, Function.comp_def, Clause.rewrite]
  cases cs.find? fun c => engine.isSome && c.engine == engine with
  | some c => rfl
  | none => cases cs.find? (·.engine.isNone) <;> rfl

variable {f g vars component}

theorem view_rewrite {m : α → β} {as? : ClauseKind σ → Option α} {bs? : ClauseKind τ → Option β}
    (h : ∀ k, bs? (k.rewrite f (g component)) = (as? k).map m) {c : Clause σ}
    (hc : c.component = component) :
    (c.rewrite f g).view component bs? = (c.view component as?).map m := by
  have hk : bs? (c.rewrite f g).kind = (as? c.kind).map m := by
    rw [Clause.rewrite, hc]
    exact h c.kind
  have hf : (c.rewrite f g).kind.family = c.kind.family := ClauseKind.family_rewrite f _ c.kind
  unfold Clause.view
  rw [hk, hf]
  cases as? c.kind <;> rfl

theorem component_of_mem_bucket {c : Clause σ} (h : c ∈ q.bucket component engine) :
    c.component = component := by
  obtain ⟨-, hv⟩ := mem_bucket.mp h
  simp only [Clause.visible, Bool.and_eq_true, beq_iff_eq] at hv
  exact hv.1

theorem getAll_rewrite {m : α → β} {as? : ClauseKind σ → Option α} {bs? : ClauseKind τ → Option β}
    (h : ∀ k, bs? (k.rewrite f (g component)) = (as? k).map m) :
    (q.rewrite f g vars).getAll component bs? engine =
      (q.getAll component as? engine).map (List.map m) := by
  have hview (c : Clause σ) (hc : c ∈ q.bucket component engine) :
      (c.rewrite f g).view component bs? = (c.view component as?).map m :=
    view_rewrite h (q.component_of_mem_bucket engine hc)
  rw [getAll, getAll, bucket_rewrite, List.mapM_map, ← mapM_map_result]
  exact mapM_congr hview

theorem getOne_rewrite {m : α → β} {as? : ClauseKind σ → Option α} {bs? : ClauseKind τ → Option β}
    (h : ∀ k, bs? (k.rewrite f (g component)) = (as? k).map m) :
    (q.rewrite f g vars).getOne component bs? engine =
      (q.getOne component as? engine).map (Option.map m) := by
  rw [getOne, getOne, bucket_rewrite, choose_rewrite]
  cases hc : choose engine (q.bucket component engine) with
  | none => rfl
  | some c =>
    have hview := view_rewrite h (q.component_of_mem_bucket engine (mem_of_choose hc))
    show ((c.rewrite f g).view component bs?).map some =
      ((c.view component as?).map some).map (Option.map m)
    rw [hview]
    cases c.view component as? <;> rfl

variable (f g vars)

@[simp] theorem limitFor_rewrite : (q.rewrite f g vars).limitFor engine = q.limitFor engine := by
  rw [limitFor, limitFor, getOne_rewrite q _ (ClauseKind.limit?_rewrite f _)]
  cases q.getOne .limit ClauseKind.limit? engine <;> simp [Except.map]

@[simp] theorem offsetFor_rewrite : (q.rewrite f g vars).offsetFor engine = q.offsetFor engine := by
  rw [offsetFor, offsetFor, getOne_rewrite q _ (ClauseKind.offset?_rewrite f _)]
  cases q.getOne .offset ClauseKind.offset? engine <;> simp [Except.map]

@[simp] theorem window_rewrite : (q.rewrite f g vars).window engine = q.window engine := by
  simp [window]

section Building

variable (component)

theorem rewrite_add (kind : ClauseKind σ) :
    (q.add component kind).rewrite f g vars =
      (q.rewrite f g vars).add component (kind.rewrite f (g component)) := by
  simp [add, rewrite, Clause.rewrite]

theorem rewrite_clear :
    (q.clear component engine).rewrite f g vars = (q.rewrite f g vars).clear component engine := by
  simp only [clear, rewrite, List.filter_map]
  rfl

theorem rewrite_addColumns (names : List String) :
    (q.addColumns names).rewrite f g vars = (q.rewrite f g vars).addColumns names := by
  induction names generalizing q with
  | nil => rfl
  | cons name names ih =>
    show ((q.addColumn (.named name)).addColumns names).rewrite f g vars = _
    rw [ih, addColumn, rewrite_add]
    rfl

theorem rewrite_select (names : List String) :
    (q.select names).rewrite f g vars = (q.rewrite f g vars).select names :=
  rewrite_addColumns f g vars q _

theorem rewrite_numberRows (order : Fragment) :
    (Compiler.numberRows q order).rewrite f g vars =
      Compiler.numberRows (q.rewrite f g vars) order := by
  unfold Compiler.numberRows addColumn
  rw [rewrite_clear, rewrite_add]
  rfl

end Building

end Statement

end SqlDialects
