import SqlDialects.Proofs.Storage.Reread

/-!
Each family of clauses is read as it was written, if that is so for the statements nested in it. The
names of the members, their order and what each of them holds are those of the writer.
-/

namespace SqlDialects

variable {σ τ : Type}

namespace Storage

open Json

variable {limit : Nat} {f : σ → Json} {g : σ → τ} {sub : Reader τ}

abbrev ReadsNested (limit : Nat) (sub : Reader τ) (f : σ → Json) (g : σ → τ) (n : σ) : Prop :=
  Reads limit sub (f n) (g n)

namespace Reads

theorem rawText {α : Type} {make : String → List Value → α} {sql : String} {bindings : List Value}
    (h : ∀ v ∈ bindings, v.NoFloat) :
    Reads limit (Storage.raw make Storage.value) (.record (rawMembers sql bindings))
      (make sql (bindings.map Value.reread)) :=
  .fields rfl (by decide) fun d hd => by
    simp only [rawMembers, List.forall_mem_cons] at hd
    simp [rawMembers, Reads.values h d hd.2.1]

theorem source {s : Source σ} (h : s.Obeys noFloat (ReadsNested limit sub f g)) :
    Reads limit (Storage.source sub) (s.map f).toJson ((s.map g).mapValues Value.reread) := by
  cases s with
  | table name => exact .variant rfl (.fields rfl (by decide) fun d _ => by simp; rfl)
  | raw sql bindings aliasName =>
    exact .variant rfl (.fields rfl (by decide) fun d hd => by
      simp only [rawMembers, List.cons_append, List.nil_append, List.forall_mem_cons] at hd
      simp [rawMembers, values h.1 d hd.2.1, optionalText aliasName d hd.2.2.1]
      rfl)
  | query n aliasName =>
    exact .variant rfl (.fields rfl (by decide) fun d hd => by
      simp only [List.forall_mem_cons] at hd
      simp [h.1 d hd.1, optionalText aliasName d hd.2.1]
      rfl)

theorem column {c : Column σ} (h : c.Obeys noFloat (ReadsNested limit sub f g)) :
    Reads limit (Storage.column sub) (c.map f).toJson ((c.map g).mapValues Value.reread) := by
  cases c with
  | named name => exact .variant rfl (.map (.text name))
  | raw sql bindings => exact .variant rfl (.rawText h)
  | query n aliasName =>
    exact .variant rfl (.fields rfl (by decide) fun d hd => by
      simp only [List.forall_mem_cons] at hd
      simp [h.1 d hd.1, optionalText aliasName d hd.2.1]
      rfl)

theorem predicate {p : Predicate σ} (h : p.Obeys noFloat (ReadsNested limit sub f g)) :
    Reads limit (Storage.predicate sub) (p.map f).toJson ((p.map g).mapValues Value.reread) := by
  cases p with
  | compare column operator v =>
    exact .variant rfl (.fields rfl (by decide) fun d hd => by
      simp only [List.forall_mem_cons] at hd
      simp [value h.2.2 d hd.2.2.1]
      rfl)
  | like column operator v caseSensitive escape =>
    exact .variant rfl (.fields rfl (by decide) fun d hd => by
      simp only [List.forall_mem_cons] at hd
      simp [value h.2.2.1 d hd.2.2.1, optionalChar escape d hd.2.2.2.2.1]
      rfl)
  | datePart part column operator v =>
    exact .variant rfl (.fields rfl (by decide) fun d hd => by
      simp only [List.forall_mem_cons] at hd
      simp [value h.2.2.2 d hd.2.2.2.1]
      rfl)
  | columns first operator second =>
    exact .variant rfl (.fields rfl (by decide) fun d _ => by simp; rfl)
  | isNull column => exact .variant rfl (.fields rfl (by decide) fun d _ => by simp; rfl)
  | truth column v => exact .variant rfl (.fields rfl (by decide) fun d _ => by simp; rfl)
  | oneOf column vs =>
    exact .variant rfl (.fields rfl (by decide) fun d hd => by
      simp only [List.forall_mem_cons] at hd
      simp [values h.2 d hd.2.1]
      rfl)
  | oneOfQuery column n =>
    exact .variant rfl (.fields rfl (by decide) fun d hd => by
      simp only [List.forall_mem_cons] at hd
      simp [h.2 d hd.2.1]
      rfl)
  | between column lower higher =>
    exact .variant rfl (.fields rfl (by decide) fun d hd => by
      simp only [List.forall_mem_cons] at hd
      simp [value h.2.1 d hd.2.1, value h.2.2 d hd.2.2.1]
      rfl)
  | rowsExist n =>
    exact .variant rfl (.fields rfl (by decide) fun d hd => by
      simp only [List.forall_mem_cons] at hd
      simp [h d hd.1]
      rfl)
  | againstQuery column operator n =>
    exact .variant rfl (.fields rfl (by decide) fun d hd => by
      simp only [List.forall_mem_cons] at hd
      simp [h.2.2 d hd.2.2.1]
      rfl)
  | queryAgainst n operator v =>
    exact .variant rfl (.fields rfl (by decide) fun d hd => by
      simp only [List.forall_mem_cons] at hd
      simp [h.1 d hd.1, value h.2.2 d hd.2.2.1]
      rfl)
  | nested n =>
    exact .variant rfl (.fields rfl (by decide) fun d hd => by
      simp only [List.forall_mem_cons] at hd
      simp [h d hd.1]
      rfl)
  | raw sql bindings => exact .variant rfl (.rawText h)

theorem condition {c : Condition σ} (h : c.Obeys noFloat (ReadsNested limit sub f g)) :
    Reads limit (Storage.condition sub) (c.map f).toJson
      { c.map g with predicate := (c.map g).predicate.mapValues Value.reread } :=
  .fields rfl (by decide) fun d hd => by
    simp only [List.forall_mem_cons] at hd
    have hp := predicate h d hd.1
    simp [Condition.map, hp]

theorem join {j : Join σ} (h : j.Obeys (ReadsNested limit sub f g)) :
    Reads limit (Storage.join sub) (j.map f).toJson (j.map g) :=
  .fields rfl (by decide) fun d hd => by
    simp only [Join.map, List.forall_mem_cons] at hd
    have hk := name (JoinKind.ofTag?_tag j.kind) d hd.1
    have hn := h d hd.2.1
    simp [Join.map, hk, hn]

theorem order {o : Order} (h : o.Obeys noFloat) :
    Reads limit Storage.order o.toJson (o.mapValues Value.reread) := by
  cases o with
  | column name ascending => exact .variant rfl (.fields rfl (by decide) fun d _ => by simp; rfl)
  | raw sql bindings => exact .variant rfl (.rawText h)
  | random seed => exact .variant rfl (.fields rfl (by decide) fun d _ => by simp; rfl)

theorem combine {c : Combine σ} (h : c.Obeys noFloat (ReadsNested limit sub f g)) :
    Reads limit (Storage.combine sub) (c.map f).toJson ((c.map g).mapValues Value.reread) := by
  cases c with
  | query operation all n =>
    exact .variant rfl (.fields rfl (by decide) fun d hd => by
      simp only [List.forall_mem_cons] at hd
      have ho := name (SetOperation.ofTag?_tag operation) d hd.1
      simp [ho, h d hd.2.2.1]
      rfl)
  | raw sql bindings => exact .variant rfl (.rawText h)

theorem insert {i : Insert σ} (h : i.Obeys noFloat (ReadsNested limit sub f g)) :
    Reads limit (Storage.insert sub) (i.map f).toJson ((i.map g).mapValues Value.reread) := by
  cases i with
  | values columns vs returnId =>
    exact .variant rfl (.fields rfl (by decide) fun d hd => by
      simp only [List.forall_mem_cons] at hd
      simp [texts columns d hd.1, values h.2 d hd.2.1]
      rfl)
  | query columns n =>
    exact .variant rfl (.fields rfl (by decide) fun d hd => by
      simp only [List.forall_mem_cons] at hd
      simp [texts columns d hd.1, h.2 d hd.2.1]
      rfl)

theorem aggregate (a : Aggregate) : Reads limit Storage.aggregate a.toJson a :=
  .fields rfl (by decide) fun d hd => by
    simp only [List.forall_mem_cons] at hd
    simp [texts a.columns d hd.2.1]

theorem clauseKind {k : ClauseKind σ} (h : k.Obeys noFloat (ReadsNested limit sub f g)) :
    Reads limit (Storage.clauseKind sub) (k.map f).toJson ((k.map g).mapValues Value.reread) := by
  cases k with
  | source s => exact .variant rfl (.map (source h))
  | column c => exact .variant rfl (.map (column h))
  | condition c => exact .variant rfl (.map (condition h))
  | join j => exact .variant rfl (.map (join h))
  | order o => exact .variant rfl (.map (order h))
  | combine c => exact .variant rfl (.map (combine h))
  | insert i => exact .variant rfl (.map (insert h))
  | aggregate a => exact .variant rfl (.map (aggregate a))
  | limit n => exact .variant rfl (.map (.uint64 n))
  | offset n => exact .variant rfl (.map (.uint64 n))

end Reads

end Storage

end SqlDialects
