import SqlDialects.Proofs.Storage.Families
import SqlDialects.Proofs.Storage.Written

/-!
A statement that is stored as a text is read back from it, with its clauses and its variables in
their order.
-/

namespace SqlDialects

open Json

variable {σ τ : Type}

namespace Storage

variable {limit : Nat} {f : σ → Json} {g : σ → τ} {sub : Reader τ}

namespace Reads

theorem engine (e : Option Engine) :
    Reads limit (Storage.nullable (Storage.name Engine.ofName?))
      (ofOption (ofText ·.name) e) e := by
  have h : Reads limit (Storage.nullable (Storage.name Engine.ofName?)) (ofOption (ofText ·.name) e)
      (e.map id) := .nullable nofun fun e _ => .name (Engine.ofName?_name e)
  rwa [Option.map_id] at h

theorem clause {c : Clause σ} (h : c.kind.Obeys noFloat (ReadsNested limit sub f g)) :
    Reads limit (Storage.clause sub) (c.map f).toJson
      { c.map g with kind := (c.map g).kind.mapValues Value.reread } :=
  .fields rfl (by decide) fun d hd => by
    simp only [Clause.map, List.forall_mem_cons] at hd
    have hc := name (Component.ofTag?_tag c.component) d hd.1
    have he := engine c.engine d hd.2.1
    have hk := clauseKind h d hd.2.2.1
    simp [Clause.map, hc, he, hk]

end Reads

theorem define_of_not_mem {vars : Variables} {name : String} (h : name ∉ vars.map (·.1))
    (v : Value) : vars.define name v = vars ++ [(name, v)] := by
  induction vars with
  | nil => rfl
  | cons w vars ih =>
    rw [List.map_cons, List.mem_cons, not_or] at h
    rw [Variables.define, if_neg (Ne.symm h.1), ih h.2, List.cons_append]

theorem foldlM_define {vars done : Variables} {depth : Nat}
    (hn : ((done ++ vars).map (·.1)).Nodup) (hv : ∀ v ∈ vars, v.2.NoFloat)
    (hd : ∀ v ∈ vars, Fits limit depth v.2.toJson) :
    (vars.map fun v => (v.1, v.2.toJson)).foldlM
        (fun vars (name, j) => (value depth j).map (Variables.define vars name)) done =
      some (done ++ vars.map fun v => (v.1, v.2.reread)) := by
  -- Induction on what is still to be defined: each name is new, so it goes behind those done.
  induction vars generalizing done with
  | nil => simp
  | cons v vars ih =>
    have hread := Reads.value (hv v List.mem_cons_self) depth (hd v List.mem_cons_self)
    have hnew : v.1 ∉ done.map (·.1) := by
      intro hm
      rw [List.map_append, List.map_cons] at hn
      exact (List.nodup_append.mp hn).2.2 _ hm _ List.mem_cons_self rfl
    have hrest := @ih (done ++ [(v.1, v.2.reread)]) (by simpa using hn)
      (fun w hw => hv w (List.mem_cons_of_mem _ hw)) (fun w hw => hd w (List.mem_cons_of_mem _ hw))
    simp only [List.map_cons, List.foldlM_cons, hread, Option.map_some, define_of_not_mem hnew,
      Option.bind_eq_bind, Option.bind_some, hrest]
    simp

theorem Reads.definitions {vars : Variables} (hn : (vars.map (·.1)).Nodup)
    (hv : ∀ v ∈ vars, v.2.NoFloat) :
    Reads limit Storage.definitions vars.toJson (vars.map fun v => (v.1, v.2.reread)) := by
  intro depth hfit
  obtain ⟨d, rfl, hd⟩ := hfit.mono.record
  have hnames : decodeNames? ((vars.map fun v => (v.1, v.2.toJson)).map escaped) =
      some ((vars.map fun v => (v.1, v.2.toJson)).map id) := mapM_map fun m _ => by simp [escaped]
  have hfold := @foldlM_define limit vars [] d (by simpa using hn) hv
    fun v hm => hd _ (List.mem_map_of_mem hm)
  rw [Variables.toJson, record_eq, Storage.definitions, hnames, List.map_id]
  exact hfold

theorem Reads.clauses {cs : List (Clause σ)}
    (h : ∀ c ∈ cs, c.kind.Obeys noFloat (ReadsNested limit sub f g)) :
    Reads limit (Storage.list (Storage.clause sub)) (.array ((cs.map (·.map f)).map Clause.toJson))
      ((cs.map (·.map g)).map fun c => { c with kind := c.kind.mapValues Value.reread }) := by
  rw [List.map_map, List.map_map]
  exact .list fun c hc => .clause (h c hc)

theorem Reads.statement {q : Statement σ} (h : q.Storable (ReadsNested limit sub f g)) :
    Reads (limit + 1) (Storage.statement sub) (q.map f).toJson
      ((q.map g).mapValues Value.reread) :=
  .fields_succ rfl (by decide) fun d hd => by
    simp only [Statement.map, List.forall_mem_cons] at hd
    have hm := name (Method.ofTag?_tag q.method) d hd.1
    have ha := optionalText q.aliasName d hd.2.1
    have hc := clauses h.clauses.2 d hd.2.2.2.1
    have hv := definitions h.names h.vars d hd.2.2.2.2.1
    simp [-List.map_map, Statement.map, Statement.mapValues, hm, ha, hc, hv, h.scope, h.pendingOr,
      h.pendingNot]

theorem Reads.subqueryWithin (tries : Nat) (s : Subquery) (hs : s.Storable) :
    Reads tries (Storage.subqueryWithin (tries + 1)) s.toJson s.reread := by
  induction tries generalizing s with
  | zero =>
    obtain ⟨q⟩ := s
    intro depth hfit
    rw [Subquery.toJson_of] at hfit
    exact absurd (Nat.le_trans hfit.1 hfit.2.1) (Nat.not_succ_le_zero _)
  | succ tries ih =>
    obtain ⟨q⟩ := s
    have hq := Statement.Storable.imp (Subquery.storable_of.mp hs) fun n _ hn => ih n hn
    rw [Subquery.toJson_of, Subquery.reread_of]
    exact .map (.statement hq)

end Storage

theorem Query.reads_text {q : Query} (h : q.Storable) (hd : q.toJson.depth ≤ Storage.maxDepth) :
    Query.ofText? q.toJson.text = some q.reread := by
  have hq := Statement.Storable.imp h fun n _ hn =>
    Storage.Reads.subqueryWithin Storage.maxDepth n hn
  rw [ofText?, (written_toJson h).parse?_text]
  exact Storage.Reads.statement hq _ ⟨hd, Nat.le_succ _, Nat.le_refl _⟩

/-- A statement of which all is stored is read back from its text, where nothing but the sign of a
decimal zero is lost, so it is equal to the one that was stored. -/
theorem Query.ofText?_toJson {q : Query} (h : q.Storable)
    (hd : q.toJson.depth ≤ Storage.maxDepth) :
    Query.ofText? q.toJson.text = some q.reread ∧ q.same q.reread = true :=
  ⟨Query.reads_text h hd, Query.same_reread h⟩

def largeOrders : Query where
  clauses := [⟨.source, none, .source (.table "orders")⟩,
    ⟨.filter, none, .condition ⟨.compare "amount" ">" (.var "amount"), false, false⟩⟩]
  vars := [("amount", .uint 18446744073709551615), ("by \"name\"", .bytes [0, 255])]

def buyers : Query where
  clauses := [⟨.source, none, .source (.table "users")⟩,
    ⟨.filter, some .postgres,
      .condition ⟨.like "name" "contains" (.string "50%\n") false (some '\\'), false, true⟩⟩,
    ⟨.filter, none, .condition ⟨.oneOfQuery "id" (.of largeOrders), true, false⟩⟩,
    ⟨.limit, none, .limit 10⟩]
  vars := [("ids", .array [.int (-1), .null])]

theorem Query.ofText?_toJson_buyers :
    buyers.Storable ∧ buyers.toJson.depth ≤ Storage.maxDepth ∧
      Query.ofText? buyers.toJson.text = some buyers := by
  have horders : (Subquery.of largeOrders).Storable := by
    refine Subquery.storable_of.mpr ⟨⟨nofun, ?_⟩, ?_, by decide, rfl, rfl, rfl⟩
    · simp [largeOrders, ClauseKind.Obeys, Source.Obeys, Condition.Obeys, Predicate.Obeys, noFloat,
        Value.NoFloat, Value.leaves]
    · simp [largeOrders, Value.NoFloat, Value.leaves]
  have hbuyers : buyers.Storable := by
    refine ⟨⟨nofun, ?_⟩, ?_, by decide, rfl, rfl, rfl⟩
    · simp [buyers, ClauseKind.Obeys, Source.Obeys, Condition.Obeys, Predicate.Obeys, noFloat,
        Value.NoFloat, Value.leaves, horders]
    · simp [buyers, Value.NoFloat, Value.leaves, Value.leavesOf]
  have hdepth : buyers.toJson.depth ≤ Storage.maxDepth := by decide +kernel
  exact ⟨hbuyers, hdepth, (Query.ofText?_toJson hbuyers hdepth).1⟩

end SqlDialects
