import SqlDialects.Proofs.Data.Kinds
import SqlDialects.Proofs.Storage.Pending
import SqlDialects.Proofs.Storage.RoundTrip

/-!
A statement that is stored and read back compiles to what it did before. What is pending in it is
not stored, so this takes that nothing looks at it.
-/

namespace SqlDialects

/-- The second value is the first as it is read back, and equal to it. -/
structure Value.Restored (v w : Value) : Prop where
  reread : w = v.reread
  same : v.same w = true

def Variables.Restored (vs ws : Variables) : Prop :=
  List.Forall₂ (fun v w => v.1 = w.1 ∧ v.2.Restored w.2) vs ws

inductive Fault.Restored : Fault → Fault → Prop
  | same (e : Fault) : Restored e e
  | likeOperand {v w : Value} (h : v.Restored w) : Restored (.likeOperand v) (.likeOperand w)

def restoring : Tie where
  value := Value.Restored
  bound := Value.Restored
  vars := Variables.Restored
  scopes := List.Forall₂ Variables.Restored
  fault := Fault.Restored
  spared _ := False

mutual
theorem Value.similar_reread : ∀ v : Value, v.Similar v.reread
  | .array items => .array (Value.similar_rereadAll items)
  | .decimal d => .decimal d d.reread
  | .null => .null
  | .bool b => .bool b b
  | .int n => .int n n
  | .uint n => .uint n n
  | .float x => .float x x
  | .string s => .string s s
  | .bytes bs => .bytes bs bs
  | .uuid u => .uuid u u
  | .date d => .date d d
  | .dateTime d => .dateTime d d
  | .raw sql => .raw sql
  | .var name => .var name

theorem Value.similar_rereadAll : ∀ vs : List Value,
    List.Forall₂ Value.Similar vs (Value.rereadAll vs)
  | [] => .nil
  | v :: vs => .cons v.similar_reread (Value.similar_rereadAll vs)
end

namespace Value

theorem NoFloat.restored {v : Value} (h : v.NoFloat) : v.Restored v.reread :=
  ⟨rfl, same_reread h⟩

theorem restored_map {vs : List Value} (h : ∀ v ∈ vs, v.NoFloat) :
    List.Forall₂ Value.Restored vs (vs.map reread) :=
  List.forall₂_map_right_iff.mpr (List.forall₂_same.mpr fun v hv => (h v hv).restored)

theorem Restored.items {vs ws : List Value} (h : (Value.array vs).Restored (.array ws)) :
    List.Forall₂ Value.Restored vs ws := by
  obtain ⟨hr, hs⟩ := h
  rw [Value.reread, array.injEq] at hr
  rw [Value.same] at hs
  subst hr
  induction vs with
  | nil => exact .nil
  | cons v vs ih =>
    rw [rereadAll, sameItems, Bool.and_eq_true] at hs
    exact .cons ⟨rfl, hs.1⟩ (ih hs.2)

theorem text?_reread (v : Value) : v.reread.text? = v.text? := by
  cases v <;> rfl

end Value

theorem Variables.find?_restored {vs ws : Variables} (h : vs.Restored ws) (name : String) :
    Option.Rel Value.Restored (vs.find? name) (ws.find? name) := by
  induction h with
  | nil => exact .none
  | cons hv _ ih =>
    obtain ⟨hname, hvalue⟩ := hv
    rw [find?, find?, ← hname]
    split
    · exact .some hvalue
    · exact ih

theorem keepsKinds_restoring : restoring.KeepsKinds where
  similar h := h.reread ▸ Value.similar_reread _
  bound := rfl
  uint n := ⟨rfl, beq_self_eq_true n⟩
  items h := h.items
  pattern h ha hb f := by
    rw [h.reread, Value.text?_reread, ha, Option.some.injEq] at hb
    subst hb
    exact ⟨rfl, beq_self_eq_true _⟩
  scopes := rfl
  noVars := .nil
  find? h := Variables.find?_restored h
  fault := Fault.Restored.same
  likeOperand := Fault.Restored.likeOperand
  spared _ h := h

variable {σ τ : Type}

theorem ClauseKind.alike_reread {g : σ → τ} {R : σ → τ → Prop} {k : ClauseKind σ}
    (h : k.Obeys noFloat fun n => R n (g n)) :
    k.Alike restoring R ((k.map g).mapValues Value.reread) := by
  cases k with
  | source s =>
    cases s with
    | table name => exact .source (.table name)
    | raw sql bindings aliasName => exact .source (.raw sql (Value.restored_map h.1) aliasName)
    | query n aliasName => exact .source (.query h.1 aliasName)
  | column c =>
    cases c with
    | named name => exact .column (.named name)
    | raw sql bindings => exact .column (.raw sql (Value.restored_map h))
    | query n aliasName => exact .column (.query h.1 aliasName)
  | condition c =>
    obtain ⟨p, isOr, isNot⟩ := c
    refine .condition (.mk ?_ isOr isNot)
    cases p with
    | compare column operator v => exact .compare column operator h.2.2.restored
    | like column operator v caseSensitive escape =>
      exact .like column operator h.2.2.1.restored caseSensitive escape
    | datePart part column operator v => exact .datePart part column operator h.2.2.2.restored
    | columns first operator second => exact .columns first operator second
    | isNull column => exact .isNull column
    | truth column v => exact .truth column v
    | oneOf column vs => exact .oneOf column (Value.restored_map h.2)
    | oneOfQuery column n => exact .oneOfQuery column h.2
    | between column lower higher => exact .between column h.2.1.restored h.2.2.restored
    | rowsExist n => exact .rowsExist h
    | againstQuery column operator n => exact .againstQuery column operator h.2.2
    | queryAgainst n operator v => exact .queryAgainst h.1 operator h.2.2.restored
    | nested n => exact .nested h
    | raw sql bindings => exact .raw sql (Value.restored_map h)
  | join j => exact .join (.mk j.kind h)
  | order o =>
    cases o with
    | column name ascending => exact .order (.column name ascending)
    | raw sql bindings => exact .order (.raw sql (Value.restored_map h))
    | random seed => exact .order (.random seed)
  | combine c =>
    cases c with
    | query operation all n => exact .combine (.query operation all h)
    | raw sql bindings => exact .combine (.raw sql (Value.restored_map h))
  | insert i =>
    cases i with
    | values columns vs returnId =>
      exact .insert (.values columns (Value.restored_map h.2) returnId)
    | query columns n => exact .insert (.query columns h.2)
  | aggregate a => exact .aggregate a
  | limit n => exact .limit n
  | offset n => exact .offset n

structure Statement.FloatFree (P : σ → Prop) (q : Statement σ) : Prop where
  clauses : q.Obeys noFloat P
  vars : ∀ v ∈ q.vars, v.2.NoFloat

def Subquery.FloatFree (s : Subquery) : Prop := s.fold (Statement.FloatFree id)

def Query.FloatFree (q : Query) : Prop := Statement.FloatFree Subquery.FloatFree q

theorem Statement.floatFree_map {f : σ → τ} {P : τ → Prop} {q : Statement σ} :
    (q.map f).FloatFree P ↔ q.FloatFree (P ∘ f) :=
  ⟨fun h => ⟨obeys_map.mp h.1, h.2⟩, fun h => ⟨obeys_map.mpr h.1, h.2⟩⟩

theorem Subquery.floatFree_of {q : Query} : (Subquery.of q).FloatFree ↔ q.FloatFree := by
  rw [FloatFree, fold_of, Statement.floatFree_map]
  rfl

theorem Statement.alike_reread {e : Engine} {g : σ → τ} {R : σ → τ → Prop} {q : Statement σ}
    (h : q.FloatFree fun n => R n (g n)) :
    q.Alike restoring e R ((q.map g).mapValues Value.reread) := by
  obtain ⟨method, aliasName, distinct, clauses, vars, scope, pendingOr, pendingNot⟩ := q
  have hvars : Variables.Restored vars (vars.map fun v => (v.1, v.2.reread)) :=
    List.forall₂_map_right_iff.mpr (List.forall₂_same.mpr fun v hv => ⟨rfl, (h.vars v hv).restored⟩)
  refine .mk method aliasName distinct scope pendingOr pendingNot hvars fun component => ?_
  refine forall₂_filter ?_ fun c d hcd => hcd.visible component (some e)
  rw [map, List.map_map, List.forall₂_map_right_iff, List.forall₂_same]
  intro c hc
  exact .mk c.component c.engine (ClauseKind.alike_reread (h.clauses.2 c hc))

theorem Subquery.alike_reread {e : Engine} (n : Subquery) (h : n.FloatFree) :
    Subquery.Alike restoring e n n.reread := by
  induction n using Subquery.induction with
  | step q ih =>
    have hq : q.FloatFree := floatFree_of.mp h
    rw [reread_of]
    exact .of (Statement.alike_reread ⟨hq.clauses.imp ih, hq.vars⟩)

namespace Compiler

variable (c : Compiler) {p q : Query}

theorem assemble_reread (h : q.FloatFree) :
    restoring.Yields restoring.Fragments (c.assemble q) (c.assemble q.reread) := by
  have hq := Statement.FloatFree.clauses h
  refine (keepsKinds_restoring.holds c).assemble (Statement.alike_reread ⟨?_, h.vars⟩)
  exact hq.imp fun n _ hn => Subquery.alike_reread n hn

/-- Compiling the second statement gives what compiling the first one gives: the same SQL with
bindings as they are read back, or the same fault. -/
def Restores (p q : Query) : Prop :=
  (∃ r s, c.compile p = .ok r ∧ c.compile q = .ok s ∧ r.Alike restoring s) ∨
    ∃ e e', c.compile p = .error e ∧ c.compile q = .error e' ∧ e.Restored e'

variable {c} in
theorem Restores.rawSql (h : c.Restores p q) :
    (c.compile p).toOption.map (·.rawSql) = (c.compile q).toOption.map (·.rawSql) := by
  rcases h with ⟨r, s, hr, hs, h⟩ | ⟨e, e', hr, hs, -⟩
  · rw [hr, hs]
    exact congrArg some h.rawSql
  · rw [hr, hs]
    rfl

theorem restores_reread (h : q.FloatFree) (hp : c.assemble q = c.assemble p) :
    c.Restores p q.reread :=
  keepsKinds_restoring.compile c (hp ▸ c.assemble_reread h)

end Compiler

/-- Of a statement that was built, all is stored but what is pending. -/
theorem Subquery.storable_shed (n : Subquery) (hn : n.statement.Reachable) (hf : n.FloatFree) :
    n.shed.Storable := by
  induction n using Subquery.induction with
  | step q ih =>
    have hq : Query.Reachable q := hn
    have hfree : q.FloatFree := floatFree_of.mp hf
    have hclauses := hfree.clauses.imp fun n hm hn => ih n hm (hq.nested hm) hn
    rw [shed_of, storable_of]
    exact ⟨Statement.obeys_map.mpr hclauses, hfree.vars, hq.composed.names, rfl, rfl, rfl⟩

theorem Subquery.toJson_shed (n : Subquery) : n.shed.toJson = n.toJson := by
  induction n using Subquery.induction with
  | step q ih =>
    have hmap : (q.map shed).map toJson = q.map toJson := by
      rw [Statement.map_map]
      exact Statement.map_congr ih
    have hidle : Query.toJson (Query.shed q) = Statement.toJson ((q.map shed).map toJson) := rfl
    rw [shed_of, toJson_of, toJson_of, hidle, hmap]
    rfl

theorem Query.toJson_shed (q : Query) : Query.toJson q.shed = q.toJson := by
  have h := Subquery.toJson_shed (.of q)
  rwa [Subquery.shed_of, Subquery.toJson_of, Subquery.toJson_of] at h

theorem Query.storable_shed {q : Query} (h : q.Reachable) (hf : q.FloatFree) :
    Query.Storable q.shed := by
  have hs := Subquery.storable_shed (.of q) h (Subquery.floatFree_of.mpr hf)
  rwa [Subquery.shed_of, Subquery.storable_of] at hs

theorem Subquery.Storable.floatFree (n : Subquery) (h : n.Storable) : n.FloatFree :=
  Subquery.Storable.induction
    (fun _ hq => Subquery.floatFree_of.mpr ⟨hq.clauses, hq.vars⟩) n h

theorem Query.Storable.floatFree {q : Query} (h : q.Storable) : q.FloatFree :=
  Subquery.floatFree_of.mp (Subquery.Storable.floatFree _ (Subquery.storable_of.mpr h))

theorem Query.reads_shed {q : Query} (h : q.Reachable) (hf : q.FloatFree)
    (hd : q.toJson.depth ≤ Storage.maxDepth) :
    Query.ofText? q.toJson.text = some (Query.reread q.shed) := by
  rw [← toJson_shed] at hd ⊢
  exact reads_text (storable_shed h hf) hd

/-- A statement that was built is stored without what is pending in it. What is read back compiles
to what the statement does with nothing pending, and that is what it does anyway, but for an
aggregate that takes up what is pending. The engine in scope is not stored either: nothing that was
built has one. -/
theorem Compiler.compile_stored (c : Compiler) {q : Query} (hq : q.Reachable) (hf : q.FloatFree)
    (hd : q.toJson.depth ≤ Storage.maxDepth) :
    ∃ s, Query.ofText? q.toJson.text = some s ∧ c.Restores q.idle s ∧
      (¬q.TakesPending c.engine → c.Restores q s) := by
  have hfree := (Query.storable_shed hq hf).floatFree
  have hnested : ∀ n ∈ q.nested, n.statement.Reachable := fun _ hn => hq.nested hn
  have hidle : ¬Query.TakesPending c.engine q.idle := by
    rintro ⟨-, -, -, hp⟩
    simp [Statement.idle] at hp
  have hassemble : c.assemble q.shed = c.assemble q.idle :=
    assemble_shed (q := q.idle) rfl hnested hidle
  refine ⟨_, Query.reads_shed hq hf hd, c.restores_reread hfree hassemble, fun ht => ?_⟩
  exact c.restores_reread hfree (assemble_shed hq.scope hnested ht)

theorem Query.floatFree_of_clauses {q : Query} {clauses : List (Clause Subquery)}
    (hc : q.clauses = clauses) (ha : q.aliasName = none) (hv : q.vars = [])
    (h : ∀ c ∈ clauses, c.kind.Obeys noFloat Subquery.FloatFree) : q.FloatFree :=
  ⟨⟨by simp [ha], hc ▸ h⟩, by simp [hv]⟩

def dearOrders : Query :=
  .build [.table "orders", .select ["user"], .compare "amount" ">" (.int 100), .notNext]

def dearBuyers : Query :=
  .build [.table "users", .filter (.oneOfQuery "id" (.of dearOrders)), .orNext]

theorem Compiler.compile_stored_dearBuyers :
    dearBuyers.Reachable ∧ dearBuyers.FloatFree ∧ dearBuyers.toJson.depth ≤ Storage.maxDepth ∧
      ¬dearBuyers.TakesPending .generic ∧
      ((Compiler.ofEngine .generic).compile dearBuyers).toOption.map (·.rawSql) =
        some ("SELECT * FROM \"users\" WHERE \"id\" IN (SELECT \"user\" FROM \"orders\"" ++
          " WHERE \"amount\" > ?)") ∧
      ∃ s, Query.ofText? dearBuyers.toJson.text = some s ∧
        (Compiler.ofEngine .generic).Restores dearBuyers s := by
  have hreachable : dearBuyers.Reachable := by
    refine .build _ fun n hn => ?_
    obtain rfl : n = .of dearOrders := List.mem_singleton.mp hn
    exact .build _ (List.forall_mem_nil _)
  have horders : (Subquery.of dearOrders).FloatFree := by
    have hclauses : dearOrders.clauses = [⟨.source, none, .source (.table "orders")⟩,
        ⟨.select, none, .column (.named "user")⟩,
        ⟨.filter, none, .condition ⟨.compare "amount" ">" (.int 100), false, false⟩⟩] := rfl
    refine Subquery.floatFree_of.mpr (Query.floatFree_of_clauses hclauses rfl rfl ?_)
    simp [ClauseKind.Obeys, Source.Obeys, Column.Obeys, Condition.Obeys, Predicate.Obeys, noFloat,
      Value.NoFloat, Value.leaves]
  have hfree : dearBuyers.FloatFree := by
    have hclauses : dearBuyers.clauses = [⟨.source, none, .source (.table "users")⟩,
        ⟨.filter, none, .condition ⟨.oneOfQuery "id" (.of dearOrders), false, false⟩⟩] := rfl
    refine Query.floatFree_of_clauses hclauses rfl rfl ?_
    simp [ClauseKind.Obeys, Source.Obeys, Condition.Obeys, Predicate.Obeys, noFloat, horders]
  have hdepth : dearBuyers.toJson.depth ≤ Storage.maxDepth := by decide +kernel
  have hidle : ¬dearBuyers.TakesPending .generic :=
    fun h => absurd h.method (by decide)
  obtain ⟨s, hread, -, hrestores⟩ :=
    (Compiler.ofEngine .generic).compile_stored hreachable hfree hdepth
  exact ⟨hreachable, hfree, hdepth, hidle, by decide +kernel, s, hread, hrestores hidle⟩

def deniedCount : Query := .build [.table "t", .notNext, .aggregate "count" ["a", "b"]]

def deniedCountSql (test : String) : String :=
  "SELECT COUNT(*) AS \"count\" FROM (SELECT * FROM \"t\" WHERE \"a\" " ++ test ++
    " AND \"b\" IS NOT NULL) AS \"countQuery\""

/-- The count takes up the NOT, which what is read back does not have. -/
theorem Compiler.deniedCount_not_restored :
    deniedCount.Reachable ∧ deniedCount.FloatFree ∧
      deniedCount.toJson.depth ≤ Storage.maxDepth ∧
      ∃ s, Query.ofText? deniedCount.toJson.text = some s ∧
        ((Compiler.ofEngine .generic).compile deniedCount).toOption.map (·.rawSql) =
          some (deniedCountSql "IS NULL") ∧
        ((Compiler.ofEngine .generic).compile s).toOption.map (·.rawSql) =
          some (deniedCountSql "IS NOT NULL") ∧
        ¬(Compiler.ofEngine .generic).Restores deniedCount s := by
  have hreachable : deniedCount.Reachable := .build _ (List.forall_mem_nil _)
  have hfree : deniedCount.FloatFree := by
    have hclauses : deniedCount.clauses = [⟨.source, none, .source (.table "t")⟩,
        ⟨.aggregate, none, .aggregate ⟨"count", ["a", "b"]⟩⟩] := rfl
    refine Query.floatFree_of_clauses hclauses rfl rfl ?_
    simp [ClauseKind.Obeys, Source.Obeys, Aggregate.Obeys, noFloat]
  have hdepth : deniedCount.toJson.depth ≤ Storage.maxDepth := by decide +kernel
  have hread := Query.reads_shed hreachable hfree hdepth
  have hsql : ((Compiler.ofEngine .generic).compile deniedCount).toOption.map (·.rawSql) =
      some (deniedCountSql "IS NULL") := by decide +kernel
  have hstored : ((Compiler.ofEngine .generic).compile (Query.reread deniedCount.shed)).toOption.map
      (·.rawSql) = some (deniedCountSql "IS NOT NULL") := by decide +kernel
  refine ⟨hreachable, hfree, hdepth, _, hread, hsql, hstored, fun h => ?_⟩
  have hsame := hsql.symm.trans (h.rawSql.trans hstored)
  exact absurd hsame (by decide)

end SqlDialects
