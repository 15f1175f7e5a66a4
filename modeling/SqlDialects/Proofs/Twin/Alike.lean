import SqlDialects.Proofs.Statement.Nested
import SqlDialects.Proofs.Twin.Tie
import SqlDialects.Render.Page
import SqlDialects.Statement.Build

/-!
Statements that are alike to an engine: it sees the same clauses in both, up to the values in
them. Looking a clause up finds the like in both.
-/

namespace SqlDialects

variable {σ τ σ' τ' : Type}

inductive Source.Alike (t : Tie) (R : σ → τ → Prop) : Source σ → Source τ → Prop
  | table (name : String) : Alike t R (.table name) (.table name)
  | raw (sql : String) {bs cs : List Value} (h : List.Forall₂ t.bound bs cs)
      (aliasName : Option String) : Alike t R (.raw sql bs aliasName) (.raw sql cs aliasName)
  | query {p : σ} {q : τ} (h : R p q) (aliasName : Option String) :
      Alike t R (.query p aliasName) (.query q aliasName)

inductive Column.Alike (t : Tie) (R : σ → τ → Prop) : Column σ → Column τ → Prop
  | named (name : String) : Alike t R (.named name) (.named name)
  | raw (sql : String) {bs cs : List Value} (h : List.Forall₂ t.bound bs cs) :
      Alike t R (.raw sql bs) (.raw sql cs)
  | query {p : σ} {q : τ} (h : R p q) (aliasName : Option String) :
      Alike t R (.query p aliasName) (.query q aliasName)

inductive Predicate.Alike (t : Tie) (R : σ → τ → Prop) : Predicate σ → Predicate τ → Prop
  | compare (column operator : String) {v w : Value} (h : t.value v w) :
      Alike t R (.compare column operator v) (.compare column operator w)
  | like (column operator : String) {v w : Value} (h : t.value v w) (caseSensitive : Bool)
      (escape : Option Char) :
      Alike t R (.like column operator v caseSensitive escape)
        (.like column operator w caseSensitive escape)
  | datePart (part column operator : String) {v w : Value} (h : t.value v w) :
      Alike t R (.datePart part column operator v) (.datePart part column operator w)
  | columns (first operator second : String) :
      Alike t R (.columns first operator second) (.columns first operator second)
  | isNull (column : String) : Alike t R (.isNull column) (.isNull column)
  | truth (column : String) (value : Bool) : Alike t R (.truth column value) (.truth column value)
  | oneOf (column : String) {vs ws : List Value} (h : List.Forall₂ t.value vs ws) :
      Alike t R (.oneOf column vs) (.oneOf column ws)
  | oneOfQuery (column : String) {p : σ} {q : τ} (h : R p q) :
      Alike t R (.oneOfQuery column p) (.oneOfQuery column q)
  | between (column : String) {v w v' w' : Value} (h : t.value v w) (h' : t.value v' w') :
      Alike t R (.between column v v') (.between column w w')
  | rowsExist {p : σ} {q : τ} (h : R p q) : Alike t R (.rowsExist p) (.rowsExist q)
  | againstQuery (column operator : String) {p : σ} {q : τ} (h : R p q) :
      Alike t R (.againstQuery column operator p) (.againstQuery column operator q)
  | queryAgainst {p : σ} {q : τ} (h : R p q) (operator : String) {v w : Value}
      (h' : t.value v w) : Alike t R (.queryAgainst p operator v) (.queryAgainst q operator w)
  | nested {p : σ} {q : τ} (h : R p q) : Alike t R (.nested p) (.nested q)
  | raw (sql : String) {bs cs : List Value} (h : List.Forall₂ t.bound bs cs) :
      Alike t R (.raw sql bs) (.raw sql cs)

inductive Condition.Alike (t : Tie) (R : σ → τ → Prop) : Condition σ → Condition τ → Prop
  | mk {p : Predicate σ} {q : Predicate τ} (h : p.Alike t R q) (isOr isNot : Bool) :
      Alike t R ⟨p, isOr, isNot⟩ ⟨q, isOr, isNot⟩

inductive Join.Alike (R : σ → τ → Prop) : Join σ → Join τ → Prop
  | mk (kind : JoinKind) {p : σ} {q : τ} (h : R p q) : Alike R ⟨kind, p⟩ ⟨kind, q⟩

inductive Order.Alike (t : Tie) : Order → Order → Prop
  | column (name : String) (ascending : Bool) :
      Alike t (.column name ascending) (.column name ascending)
  | raw (sql : String) {bs cs : List Value} (h : List.Forall₂ t.bound bs cs) :
      Alike t (.raw sql bs) (.raw sql cs)
  | random (seed : String) : Alike t (.random seed) (.random seed)

inductive Combine.Alike (t : Tie) (R : σ → τ → Prop) : Combine σ → Combine τ → Prop
  | query (operation : SetOperation) (all : Bool) {p : σ} {q : τ} (h : R p q) :
      Alike t R (.query operation all p) (.query operation all q)
  | raw (sql : String) {bs cs : List Value} (h : List.Forall₂ t.bound bs cs) :
      Alike t R (.raw sql bs) (.raw sql cs)

inductive Insert.Alike (t : Tie) (R : σ → τ → Prop) : Insert σ → Insert τ → Prop
  | values (columns : List String) {vs ws : List Value} (h : List.Forall₂ t.value vs ws)
      (returnId : Bool) : Alike t R (.values columns vs returnId) (.values columns ws returnId)
  | query (columns : List String) {p : σ} {q : τ} (h : R p q) :
      Alike t R (.query columns p) (.query columns q)

inductive ClauseKind.Alike (t : Tie) (R : σ → τ → Prop) : ClauseKind σ → ClauseKind τ → Prop
  | source {s : Source σ} {s' : Source τ} (h : s.Alike t R s') : Alike t R (.source s) (.source s')
  | column {c : Column σ} {c' : Column τ} (h : c.Alike t R c') : Alike t R (.column c) (.column c')
  | condition {c : Condition σ} {c' : Condition τ} (h : c.Alike t R c') :
      Alike t R (.condition c) (.condition c')
  | join {j : Join σ} {j' : Join τ} (h : j.Alike R j') : Alike t R (.join j) (.join j')
  | order {o o' : Order} (h : o.Alike t o') : Alike t R (.order o) (.order o')
  | combine {c : Combine σ} {c' : Combine τ} (h : c.Alike t R c') :
      Alike t R (.combine c) (.combine c')
  | insert {i : Insert σ} {i' : Insert τ} (h : i.Alike t R i') : Alike t R (.insert i) (.insert i')
  | aggregate (a : Aggregate) : Alike t R (.aggregate a) (.aggregate a)
  | limit (n : UInt64) : Alike t R (.limit n) (.limit n)
  | offset (n : UInt64) : Alike t R (.offset n) (.offset n)

inductive Clause.Alike (t : Tie) (R : σ → τ → Prop) : Clause σ → Clause τ → Prop
  | mk (component : Component) (engine : Option Engine) {k : ClauseKind σ} {l : ClauseKind τ}
      (h : k.Alike t R l) : Alike t R ⟨component, engine, k⟩ ⟨component, engine, l⟩

/-- The engine sees clauses that are alike; all but them and the variables is the same. -/
inductive Statement.Alike (t : Tie) (e : Engine) (R : σ → τ → Prop) :
    Statement σ → Statement τ → Prop
  | mk (method : Method) (aliasName : Option String) (distinct : Bool) (scope : Option Engine)
      (pendingOr pendingNot : Bool) {cs : List (Clause σ)} {ds : List (Clause τ)}
      {vs ws : Variables} (hv : t.vars vs ws)
      (hc : ∀ component, List.Forall₂ (Clause.Alike t R)
        (cs.filter (·.visible component (some e))) (ds.filter (·.visible component (some e)))) :
      Alike t e R ⟨method, aliasName, distinct, cs, vs, scope, pendingOr, pendingNot⟩
        ⟨method, aliasName, distinct, ds, ws, scope, pendingOr, pendingNot⟩

inductive Subquery.Alike (t : Tie) (e : Engine) : Subquery → Subquery → Prop
  | of {p q : Query} (h : Statement.Alike t e (Subquery.Alike t e) p q) :
      Subquery.Alike t e (.of p) (.of q)

variable {t : Tie} {e : Engine} {R : σ → τ → Prop}

theorem ClauseKind.Alike.map {f : σ → σ'} {g : τ → τ'} {S : σ' → τ' → Prop} {k : ClauseKind σ}
    {l : ClauseKind τ} (h : k.Alike t R l)
    (hn : ∀ m ∈ k.nested, ∀ n, R m n → S (f m) (g n)) : (k.map f).Alike t S (l.map g) := by
  have mem (n : σ) : n ∈ [n] := List.mem_singleton.mpr rfl
  cases h with
  | source h =>
    cases h with
    | table name => exact .source (.table name)
    | raw sql h aliasName => exact .source (.raw sql h aliasName)
    | query h aliasName => exact .source (.query (hn _ (mem _) _ h) aliasName)
  | column h =>
    cases h with
    | named name => exact .column (.named name)
    | raw sql h => exact .column (.raw sql h)
    | query h aliasName => exact .column (.query (hn _ (mem _) _ h) aliasName)
  | condition h =>
    obtain ⟨h, isOr, isNot⟩ := h
    refine .condition (.mk ?_ isOr isNot)
    cases h with
    | compare column operator h => exact .compare column operator h
    | like column operator h caseSensitive escape =>
      exact .like column operator h caseSensitive escape
    | datePart part column operator h => exact .datePart part column operator h
    | columns first operator second => exact .columns first operator second
    | isNull column => exact .isNull column
    | truth column value => exact .truth column value
    | oneOf column h => exact .oneOf column h
    | oneOfQuery column h => exact .oneOfQuery column (hn _ (mem _) _ h)
    | between column h h' => exact .between column h h'
    | rowsExist h => exact .rowsExist (hn _ (mem _) _ h)
    | againstQuery column operator h => exact .againstQuery column operator (hn _ (mem _) _ h)
    | queryAgainst h operator h' => exact .queryAgainst (hn _ (mem _) _ h) operator h'
    | nested h => exact .nested (hn _ (mem _) _ h)
    | raw sql h => exact .raw sql h
  | join h =>
    obtain ⟨kind, h⟩ := h
    exact .join (.mk kind (hn _ (mem _) _ h))
  | order h => exact .order h
  | combine h =>
    cases h with
    | query operation all h => exact .combine (.query operation all (hn _ (mem _) _ h))
    | raw sql h => exact .combine (.raw sql h)
  | insert h =>
    cases h with
    | values columns h returnId => exact .insert (.values columns h returnId)
    | query columns h => exact .insert (.query columns (hn _ (mem _) _ h))
  | aggregate a => exact .aggregate a
  | limit n => exact .limit n
  | offset n => exact .offset n

theorem ClauseKind.Alike.refl {R : σ → σ → Prop} {k : ClauseKind σ}
    (hv : ∀ v ∈ k.held, t.value v v) (hb : ∀ v ∈ k.brought, t.bound v v)
    (hn : ∀ m ∈ k.nested, R m m) : k.Alike t R k := by
  have mem {α : Type} (a : α) : a ∈ [a] := List.mem_singleton.mpr rfl
  cases k with
  | source s =>
    cases s with
    | table name => exact .source (.table name)
    | raw sql bindings aliasName => exact .source (.raw sql (List.forall₂_same.mpr hb) aliasName)
    | query q aliasName => exact .source (.query (hn _ (mem _)) aliasName)
  | column x =>
    cases x with
    | named name => exact .column (.named name)
    | raw sql bindings => exact .column (.raw sql (List.forall₂_same.mpr hb))
    | query q aliasName => exact .column (.query (hn _ (mem _)) aliasName)
  | condition x =>
    obtain ⟨p, isOr, isNot⟩ := x
    refine .condition (.mk ?_ isOr isNot)
    cases p with
    | compare column operator value => exact .compare column operator (hv _ (mem _))
    | like column operator value caseSensitive escape =>
      exact .like column operator (hv _ (mem _)) caseSensitive escape
    | datePart part column operator value => exact .datePart part column operator (hv _ (mem _))
    | columns first operator second => exact .columns first operator second
    | isNull column => exact .isNull column
    | truth column value => exact .truth column value
    | oneOf column values => exact .oneOf column (List.forall₂_same.mpr hv)
    | oneOfQuery column q => exact .oneOfQuery column (hn _ (mem _))
    | between column lower higher =>
      obtain ⟨hl, hh⟩ := List.forall_mem_cons.mp hv
      exact .between column hl (hh _ (mem _))
    | rowsExist q => exact .rowsExist (hn _ (mem _))
    | againstQuery column operator q => exact .againstQuery column operator (hn _ (mem _))
    | queryAgainst q operator value => exact .queryAgainst (hn _ (mem _)) operator (hv _ (mem _))
    | nested q => exact .nested (hn _ (mem _))
    | raw sql bindings => exact .raw sql (List.forall₂_same.mpr hb)
  | join j => exact .join (.mk j.kind (hn _ (mem _)))
  | order o =>
    cases o with
    | column name ascending => exact .order (.column name ascending)
    | raw sql bindings => exact .order (.raw sql (List.forall₂_same.mpr hb))
    | random seed => exact .order (.random seed)
  | combine x =>
    cases x with
    | query operation all q => exact .combine (.query operation all (hn _ (mem _)))
    | raw sql bindings => exact .combine (.raw sql (List.forall₂_same.mpr hb))
  | insert i =>
    cases i with
    | values columns values returnId =>
      exact .insert (.values columns (List.forall₂_same.mpr hv) returnId)
    | query columns q => exact .insert (.query columns (hn _ (mem _)))
  | aggregate a => exact .aggregate a
  | limit n => exact .limit n
  | offset n => exact .offset n

theorem ClauseKind.Alike.family {k : ClauseKind σ} {l : ClauseKind τ} (h : k.Alike t R l) :
    k.family = l.family := by
  cases h <;> rfl

theorem forall₂_imp_mem {α β : Type} {R S : α → β → Prop} {xs : List α} {ys : List β}
    (h : List.Forall₂ R xs ys) (hm : ∀ x ∈ xs, ∀ y, R x y → S x y) : List.Forall₂ S xs ys := by
  induction h with
  | nil => exact .nil
  | cons hr _ ih =>
    refine .cons (hm _ List.mem_cons_self _ hr) (ih fun x hx => ?_)
    exact hm x (List.mem_cons_of_mem _ hx)

theorem forall₂_filter {α β : Type} {R : α → β → Prop} {xs : List α} {ys : List β}
    (h : List.Forall₂ R xs ys) {f : α → Bool} {g : β → Bool} (hfg : ∀ x y, R x y → f x = g y) :
    List.Forall₂ R (xs.filter f) (ys.filter g) := by
  induction h with
  | nil => exact .nil
  | cons hr _ ih =>
    rw [List.filter_cons, List.filter_cons, hfg _ _ hr]
    split
    · exact .cons hr ih
    · exact ih

theorem Clause.Alike.visible {c : Clause σ} {d : Clause τ} (h : c.Alike t R d)
    (component : Component) (engine : Option Engine) :
    c.visible component engine = d.visible component engine := by
  cases h
  rfl

theorem rel_find? {α β : Type} {R : α → β → Prop} {xs : List α} {ys : List β}
    (h : List.Forall₂ R xs ys) {f : α → Bool} {g : β → Bool} (hfg : ∀ x y, R x y → f x = g y) :
    Option.Rel R (xs.find? f) (ys.find? g) := by
  induction h with
  | nil => exact .none
  | cons hr _ ih =>
    rw [List.find?_cons, List.find?_cons, hfg _ _ hr]
    split
    · exact .some hr
    · exact ih

theorem rel_or {α β : Type} {R : α → β → Prop} {x x' : Option α} {y y' : Option β}
    (h : Option.Rel R x y) (h' : Option.Rel R x' y') : Option.Rel R (x.or x') (y.or y') := by
  cases h with
  | none => exact h'
  | some h => exact .some h

/-- The clause chosen for an engine is the like in both. -/
theorem rel_choose (engine : Option Engine) {cs : List (Clause σ)} {ds : List (Clause τ)}
    (h : List.Forall₂ (Clause.Alike t R) cs ds) :
    Option.Rel (Clause.Alike t R) (Statement.choose engine cs) (Statement.choose engine ds) := by
  have hengine (c : Clause σ) (d : Clause τ) (h : c.Alike t R d) : c.engine = d.engine := by
    cases h
    rfl
  have hhead : Option.Rel (Clause.Alike t R) cs.head? ds.head? := by
    cases h with
    | nil => exact .none
    | cons h _ => exact .some h
  refine rel_or (rel_find? h fun c d hcd => ?_) (rel_or (rel_find? h fun c d hcd => ?_) hhead)
  · rw [hengine c d hcd]
  · rw [hengine c d hcd]

namespace Statement.Alike

variable {p : Statement σ} {q : Statement τ} (h : p.Alike t e R q)

include h

theorem method : p.method = q.method := by
  cases h
  rfl

theorem aliasName : p.aliasName = q.aliasName := by
  cases h
  rfl

theorem distinct : p.distinct = q.distinct := by
  cases h
  rfl

theorem vars : t.vars p.vars q.vars := by
  cases h with
  | mk _ _ _ _ _ _ hv _ => exact hv

theorem bucket (component : Component) : List.Forall₂ (Clause.Alike t R)
    (p.bucket component (some e)) (q.bucket component (some e)) := by
  cases h with
  | mk _ _ _ _ _ _ _ hc => exact hc component

theorem map {f : σ → σ'} {g : τ → τ'} {S : σ' → τ' → Prop}
    (hn : ∀ m ∈ p.nested, ∀ n, R m n → S (f m) (g n)) : (p.map f).Alike t e S (q.map g) := by
  cases h with
  | @mk method aliasName distinct scope pendingOr pendingNot cs ds vs ws hv hc =>
    refine .mk method aliasName distinct scope pendingOr pendingNot hv fun component => ?_
    rw [List.filter_map, List.filter_map, List.forall₂_map_left_iff, List.forall₂_map_right_iff]
    refine forall₂_imp_mem (hc component) fun c hm d hcd => ?_
    obtain ⟨component, engine, hk⟩ := hcd
    refine .mk component engine (hk.map fun m hmk n hmn => hn m ?_ n hmn)
    exact Statement.mem_nested.mpr ⟨_, List.mem_of_mem_filter hm, hmk⟩

theorem add (component : Component) {k : ClauseKind σ} {l : ClauseKind τ} (hk : k.Alike t R l) :
    (p.add component k).Alike t e R (q.add component l) := by
  cases h with
  | @mk method aliasName distinct scope pendingOr pendingNot cs ds vs ws hv hc =>
    refine .mk method aliasName distinct scope pendingOr pendingNot hv fun other => ?_
    rw [List.filter_append, List.filter_append]
    refine List.rel_append (hc other) (forall₂_filter (.cons (.mk component scope hk) .nil) ?_)
    exact fun c d hcd => hcd.visible other (some e)

theorem clear (component : Component) (engine : Option Engine) :
    (p.clear component engine).Alike t e R (q.clear component engine) := by
  cases h with
  | @mk method aliasName distinct scope pendingOr pendingNot cs ds vs ws hv hc =>
    refine .mk method aliasName distinct scope pendingOr pendingNot hv fun other => ?_
    rw [List.filter_filter, List.filter_filter]
    simp only [Bool.and_comm _ (!_)]
    rw [← List.filter_filter, ← List.filter_filter]
    refine forall₂_filter (hc other) fun c d hcd => ?_
    rw [hcd.visible]

theorem select (names : List String) : (p.select names).Alike t e R (q.select names) := by
  unfold Statement.select
  generalize names.flatMap Text.expandBraces = columns
  induction columns generalizing p q with
  | nil => exact h
  | cons name columns ih => exact ih (h.add .select (.column (.named name)))

theorem has (component : Component) :
    p.has component (some e) = q.has component (some e) := by
  have hb := h.bucket component
  rw [Bool.eq_iff_iff, Statement.has_eq_true_iff, Statement.has_eq_true_iff]
  have hl := hb.length_eq
  rw [ne_eq, ne_eq, ← List.length_eq_zero_iff, ← List.length_eq_zero_iff, hl]

end Statement.Alike

theorem Statement.Alike.refl {R : σ → σ → Prop} {q : Statement σ}
    (hv : ∀ d ∈ q.clauses, ∀ v ∈ d.kind.held, t.value v v)
    (hb : ∀ d ∈ q.clauses, ∀ v ∈ d.kind.brought, t.bound v v) (hvars : t.vars q.vars q.vars)
    (hn : ∀ m ∈ q.nested, R m m) : q.Alike t e R q := by
  obtain ⟨method, aliasName, distinct, clauses, vars, scope, pendingOr, pendingNot⟩ := q
  refine .mk method aliasName distinct scope pendingOr pendingNot hvars fun component => ?_
  refine List.forall₂_same.mpr fun d hd => ?_
  have hd := List.mem_of_mem_filter hd
  refine .mk d.component d.engine (.refl (hv d hd) (hb d hd) fun m hm => hn m ?_)
  exact Statement.mem_nested.mpr ⟨d, hd, hm⟩

theorem Subquery.Alike.refl (hv : ∀ v, t.value v v) (hb : ∀ v, t.bound v v)
    (hvars : ∀ vs, t.vars vs vs) (m : Subquery) : Subquery.Alike t e m m := by
  induction m using Subquery.induction with
  | step q ih =>
    exact .of (.refl (fun _ _ v _ => hv v) (fun _ _ v _ => hb v) (hvars q.vars) ih)

namespace ClauseKind.Alike

variable {k : ClauseKind σ} {l : ClauseKind τ} (h : k.Alike t R l)

include h

theorem source? : Option.Rel (Source.Alike t R) k.source? l.source? := by
  cases h with
  | source h => exact .some h
  | _ => exact .none

theorem column? : Option.Rel (Column.Alike t R) k.column? l.column? := by
  cases h with
  | column h => exact .some h
  | _ => exact .none

theorem condition? : Option.Rel (Condition.Alike t R) k.condition? l.condition? := by
  cases h with
  | condition h => exact .some h
  | _ => exact .none

theorem join? : Option.Rel (Join.Alike R) k.join? l.join? := by
  cases h with
  | join h => exact .some h
  | _ => exact .none

theorem order? : Option.Rel (Order.Alike t) k.order? l.order? := by
  cases h with
  | order h => exact .some h
  | _ => exact .none

theorem combine? : Option.Rel (Combine.Alike t R) k.combine? l.combine? := by
  cases h with
  | combine h => exact .some h
  | _ => exact .none

theorem insert? : Option.Rel (Insert.Alike t R) k.insert? l.insert? := by
  cases h with
  | insert h => exact .some h
  | _ => exact .none

theorem aggregate? : Option.Rel Eq k.aggregate? l.aggregate? := by
  cases h with
  | aggregate a => exact .some rfl
  | _ => exact .none

theorem limit? : Option.Rel Eq k.limit? l.limit? := by
  cases h with
  | limit n => exact .some rfl
  | _ => exact .none

theorem offset? : Option.Rel Eq k.offset? l.offset? := by
  cases h with
  | offset n => exact .some rfl
  | _ => exact .none

end ClauseKind.Alike

namespace Statement.Alike

variable {α β : Type} {as? : ClauseKind σ → Option α} {bs? : ClauseKind τ → Option β}
  {A : α → β → Prop} {p : Statement σ} {q : Statement τ}

theorem view (hf : ∀ e, t.fault e e)
    (hA : ∀ {k l}, ClauseKind.Alike t R k l → Option.Rel A (as? k) (bs? l)) {c : Clause σ}
    {d : Clause τ} (h : c.Alike t R d) (component : Component) :
    t.Yields A (c.view component as?) (d.view component bs?) := by
  obtain ⟨_, _, hk⟩ := h
  have ha := hA hk
  have hfamily := hk.family
  unfold Clause.view
  dsimp only
  rw [hfamily]
  generalize as? _ = x at ha ⊢
  generalize bs? _ = y at ha ⊢
  cases ha with
  | none => exact .error (hf _)
  | some h => exact .ok h

section Lookup

variable (hf : ∀ e, t.fault e e) (h : p.Alike t e R q)
  (hA : ∀ {k l}, ClauseKind.Alike t R k l → Option.Rel A (as? k) (bs? l))

include hf h hA

theorem getAll (component : Component) :
    t.Yields (List.Forall₂ A) (p.getAll component as? (some e))
      (q.getAll component bs? (some e)) :=
  Tie.Yields.mapM (h.bucket component) fun _ _ hcd => view hf hA hcd component

theorem getOne (component : Component) :
    t.Yields (Option.Rel A) (p.getOne component as? (some e))
      (q.getOne component bs? (some e)) := by
  have hc := rel_choose (some e) (h.bucket component)
  unfold Statement.getOne
  generalize Statement.choose (some e) (p.bucket component (some e)) = x at hc ⊢
  generalize Statement.choose (some e) (q.bucket component (some e)) = y at hc ⊢
  cases hc with
  | none => exact .ok .none
  | some hcd => exact (view hf hA hcd component).map fun _ _ h => .some h

end Lookup

variable (hf : ∀ e, t.fault e e) (h : p.Alike t e R q)

include hf h

theorem getOneD (component : Component) {as? : ClauseKind σ → Option UInt64}
    {bs? : ClauseKind τ → Option UInt64}
    (hA : ∀ {k l}, ClauseKind.Alike t R k l → Option.Rel Eq (as? k) (bs? l)) :
    t.Yields Eq ((p.getOne component as? (some e)).map (·.getD 0))
      ((q.getOne component bs? (some e)).map (·.getD 0)) := by
  refine (getOne hf h hA component).map fun x y hxy => ?_
  cases hxy with
  | none => rfl
  | some h => exact h

theorem limitFor : t.Yields Eq (p.limitFor (some e)) (q.limitFor (some e)) :=
  getOneD hf h .limit ClauseKind.Alike.limit?

theorem offsetFor : t.Yields Eq (p.offsetFor (some e)) (q.offsetFor (some e)) :=
  getOneD hf h .offset ClauseKind.Alike.offset?

theorem window : t.Yields Eq (p.window (some e)) (q.window (some e)) := by
  refine (limitFor hf h).bind fun m _ hm => ?_
  subst hm
  refine (offsetFor hf h).bind fun n _ hn => ?_
  subst hn
  exact .ok rfl

end Statement.Alike

end SqlDialects
