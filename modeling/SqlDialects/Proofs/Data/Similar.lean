import SqlDialects.Proofs.Twin.Compiled

/-!
Statements that differ in their data only. Data are the contents of values: SQL text that stands
in the place of a value, and the names of variables, are not among them.
-/

namespace SqlDialects

/-- Values of one kind. Arrays have as many items, which are similar in turn. -/
inductive Value.Similar : Value → Value → Prop
  | null : Similar .null .null
  | bool (a b : Bool) : Similar (.bool a) (.bool b)
  | int (m n : Int64) : Similar (.int m) (.int n)
  | uint (m n : UInt64) : Similar (.uint m) (.uint n)
  | float (x y : Float) : Similar (.float x) (.float y)
  | decimal (d e : Number.Decimal) : Similar (.decimal d) (.decimal e)
  | string (s u : String) : Similar (.string s) (.string u)
  | bytes (bs cs : List UInt8) : Similar (.bytes bs) (.bytes cs)
  | uuid (u v : Uuid) : Similar (.uuid u) (.uuid v)
  | date (d e : Calendar.Date) : Similar (.date d) (.date e)
  | dateTime (d e : Calendar.DateTime) : Similar (.dateTime d) (.dateTime e)
  | array {vs ws : List Value} (h : List.Forall₂ Similar vs ws) : Similar (.array vs) (.array ws)
  | raw (sql : String) : Similar (.raw sql) (.raw sql)
  | var (name : String) : Similar (.var name) (.var name)

def Variables.Similar (vs ws : Variables) : Prop :=
  ∀ name, Option.Rel Value.Similar (vs.find? name) (ws.find? name)

inductive Fault.Similar : Fault → Fault → Prop
  | same (e : Fault) : Similar e e
  | likeOperand {v w : Value} (h : v.Similar w) : Similar (.likeOperand v) (.likeOperand w)

def similarity : Tie where
  value := Value.Similar
  bound := Value.Similar
  vars := Variables.Similar
  scopes := List.Forall₂ Variables.Similar
  fault := Fault.Similar
  spared _ := False

inductive Statement.Similar {σ τ : Type} (R : σ → τ → Prop) : Statement σ → Statement τ → Prop
  | mk (method : Method) (aliasName : Option String) (distinct : Bool) (scope : Option Engine)
      (pendingOr pendingNot : Bool) {cs : List (Clause σ)} {ds : List (Clause τ)}
      {vs ws : Variables} (hv : vs.Similar ws)
      (hc : List.Forall₂ (Clause.Alike similarity R) cs ds) :
      Similar R ⟨method, aliasName, distinct, cs, vs, scope, pendingOr, pendingNot⟩
        ⟨method, aliasName, distinct, ds, ws, scope, pendingOr, pendingNot⟩

/-- Nested statements that differ in their data only, at any depth. -/
inductive Subquery.Similar : Subquery → Subquery → Prop
  | of {p q : Query} (h : Statement.Similar Subquery.Similar p q) : Similar (.of p) (.of q)

def Query.Similar (p q : Query) : Prop := Statement.Similar Subquery.Similar p q

namespace Value

variable {v w : Value}

theorem Similar.text? (h : v.Similar w) : Option.Rel (fun _ _ => True) v.text? w.text? := by
  cases h with
  | string s u => exact .some trivial
  | raw sql => exact .some trivial
  | _ => exact .none

/-- A marker is expanded by the kind of its value and the number of its items. -/
theorem Similar.expandMarker {x y : Option Value} (h : Option.Rel Value.Similar x y)
    (placeholder : String) :
    SqlDialects.expandMarker placeholder x = SqlDialects.expandMarker placeholder y := by
  cases h with
  | none => rfl
  | some h =>
    cases h with
    | array h => rw [SqlDialects.expandMarker, SqlDialects.expandMarker, h.length_eq]
    | _ => rfl

end Value

theorem Statement.Similar.alike {σ τ : Type} {R S : σ → τ → Prop} {p : Statement σ}
    {q : Statement τ} (h : p.Similar R q) (e : Engine)
    (hn : ∀ m ∈ p.nested, ∀ n, R m n → S m n) : p.Alike similarity e S q := by
  obtain @⟨method, aliasName, distinct, scope, pendingOr, pendingNot, cs, ds, vs, ws, hv, hc⟩ := h
  refine .mk method aliasName distinct scope pendingOr pendingNot hv fun component => ?_
  refine forall₂_filter (forall₂_imp_mem hc fun c hm d hcd => ?_) fun c d hcd => hcd.visible _ _
  obtain ⟨component, engine, hk⟩ := hcd
  -- Mapping by the identity changes the relation between nested statements only.
  have hmap := hk.map (f := id) (g := id) (S := S) fun m hmk n hmn =>
    hn m (Statement.mem_nested.mpr ⟨_, hm, hmk⟩) n hmn
  rw [ClauseKind.map_id, ClauseKind.map_id] at hmap
  exact .mk component engine hmap

theorem Subquery.Similar.alike (e : Engine) (m : Subquery) :
    ∀ n, m.Similar n → Subquery.Alike similarity e m n := by
  induction m using Subquery.induction with
  | step p ih =>
    intro n hn
    obtain ⟨h⟩ := hn
    exact .of (h.alike e ih)

theorem Query.Similar.alike {p q : Query} (h : p.Similar q) (e : Engine) :
    Statement.Alike similarity e (Subquery.Alike similarity e) p q :=
  Statement.Similar.alike h e fun m _ => Subquery.Similar.alike e m

end SqlDialects
