import SqlDialects.Proofs.Storage.Reread

/-! What is stored of a statement is a document of escaped texts and whole numbers. -/

namespace SqlDialects

open Json

variable {σ : Type} {f : σ → Json}

namespace Json

theorem Written.tagged {tag : String} {j : Json} (h : j.Written) : (tagged tag j).Written :=
  .record fun _ hm => List.mem_singleton.mp hm ▸ h

@[simp] theorem written_ofText (s : String) : (ofText s).Written := .text s

@[simp] theorem written_bool (b : Bool) : (bool b).Written := .bool b

@[simp] theorem written_ofOption {α : Type} {write : α → Json} {o : Option α}
    (h : ∀ a ∈ o, (write a).Written) : (ofOption write o).Written := by
  cases o with
  | none => exact .null
  | some a => exact h a rfl

@[simp] theorem written_textsJson (ss : List String) : (textsJson ss).Written :=
  .array fun _ hj => by
    obtain ⟨s, -, rfl⟩ := List.mem_map.mp hj
    exact .text s

end Json

mutual
theorem Value.written_toJson : ∀ {v : Value}, v.NoFloat → v.toJson.Written
  | .null, _ => .text _
  | .bool b, _ => .tagged (.bool b)
  | .int n, _ => .tagged (.int n.toInt)
  | .uint n, _ => .tagged (.nat n.toNat)
  | .float x, h => absurd (List.mem_singleton.mpr rfl) (h x)
  | .decimal d, _ => .tagged (.text d.text)
  | .string s, _ => .tagged (.text s)
  | .bytes bs, _ => .tagged (.array fun _ hj => by
      obtain ⟨b, -, rfl⟩ := List.mem_map.mp hj
      exact .nat b.toNat)
  | .uuid u, _ => .tagged (.text u.text)
  | .date d, _ => .tagged (.text d.text)
  | .dateTime d, _ => .tagged (.text d.text)
  | .array _, h => .tagged (.array (Value.written_listToJson h.item))
  | .raw sql, _ => .tagged (.text sql)
  | .var name, _ => .tagged (.text name)

theorem Value.written_listToJson : ∀ {vs : List Value}, (∀ v ∈ vs, v.NoFloat) →
    ∀ j ∈ Value.listToJson vs, j.Written
  | [], _ => nofun
  | v :: _, h => by
    rw [Value.listToJson]
    refine List.forall_mem_cons.mpr ⟨Value.written_toJson (h v List.mem_cons_self), ?_⟩
    exact Value.written_listToJson fun w hw => h w (List.mem_cons_of_mem _ hw)
end

theorem written_valuesJson {vs : List Value} (h : ∀ v ∈ vs, v.NoFloat) :
    (valuesJson vs).Written := .array (Value.written_listToJson h)

theorem written_rawMembers {sql : String} {bindings : List Value}
    (h : ∀ v ∈ bindings, v.NoFloat) : ∀ m ∈ rawMembers sql bindings, m.2.Written := by
  simp [rawMembers, written_valuesJson h]

abbrev WritesNested (f : σ → Json) (n : σ) : Prop := (f n).Written

theorem Source.written_toJson {s : Source σ} (h : s.Obeys noFloat (WritesNested f)) :
    (s.map f).toJson.Written := by
  cases s with
  | table name => exact .tagged (.record (by simp))
  | raw sql bindings aliasName =>
    exact .tagged (.record (by simp [rawMembers, written_valuesJson h.1]))
  | query n aliasName =>
    have hn : (f n).Written := h.1
    exact .tagged (.record (by simp [hn]))

theorem Column.written_toJson {c : Column σ} (h : c.Obeys noFloat (WritesNested f)) :
    (c.map f).toJson.Written := by
  cases c with
  | named name => exact .tagged (.text name)
  | raw sql bindings => exact .tagged (.record (written_rawMembers h))
  | query n aliasName =>
    have hn : (f n).Written := h.1
    exact .tagged (.record (by simp [hn]))

theorem Predicate.written_toJson {p : Predicate σ} (h : p.Obeys noFloat (WritesNested f)) :
    (p.map f).toJson.Written := by
  cases p with
  | compare column operator v =>
    exact .tagged (.record (by simp [Value.written_toJson h.2.2]))
  | like column operator v caseSensitive escape =>
    exact .tagged (.record (by simp [Value.written_toJson h.2.2.1]))
  | datePart part column operator v =>
    exact .tagged (.record (by simp [Value.written_toJson h.2.2.2]))
  | columns first operator second => exact .tagged (.record (by simp))
  | isNull column => exact .tagged (.record (by simp))
  | truth column v => exact .tagged (.record (by simp))
  | oneOf column vs => exact .tagged (.record (by simp [written_valuesJson h.2]))
  | oneOfQuery column n =>
    have hn : (f n).Written := h.2
    exact .tagged (.record (by simp [hn]))
  | between column lower higher =>
    exact .tagged (.record (by simp [Value.written_toJson h.2.1, Value.written_toJson h.2.2]))
  | rowsExist n =>
    have hn : (f n).Written := h
    exact .tagged (.record (by simp [hn]))
  | againstQuery column operator n =>
    have hn : (f n).Written := h.2.2
    exact .tagged (.record (by simp [hn]))
  | queryAgainst n operator v =>
    have hn : (f n).Written := h.1
    exact .tagged (.record (by simp [hn, Value.written_toJson h.2.2]))
  | nested n =>
    have hn : (f n).Written := h
    exact .tagged (.record (by simp [hn]))
  | raw sql bindings => exact .tagged (.record (written_rawMembers h))

theorem Order.written_toJson {o : Order} (h : o.Obeys noFloat) : o.toJson.Written := by
  cases o with
  | column name ascending => exact .tagged (.record (by simp))
  | raw sql bindings => exact .tagged (.record (written_rawMembers h))
  | random seed => exact .tagged (.record (by simp))

theorem Combine.written_toJson {c : Combine σ} (h : c.Obeys noFloat (WritesNested f)) :
    (c.map f).toJson.Written := by
  cases c with
  | query operation all n =>
    have hn : (f n).Written := h
    exact .tagged (.record (by simp [hn]))
  | raw sql bindings => exact .tagged (.record (written_rawMembers h))

theorem Insert.written_toJson {i : Insert σ} (h : i.Obeys noFloat (WritesNested f)) :
    (i.map f).toJson.Written := by
  cases i with
  | values columns vs returnId =>
    exact .tagged (.record (by simp [written_valuesJson h.2]))
  | query columns n =>
    have hn : (f n).Written := h.2
    exact .tagged (.record (by simp [hn]))

theorem ClauseKind.written_toJson {k : ClauseKind σ} (h : k.Obeys noFloat (WritesNested f)) :
    (k.map f).toJson.Written := by
  cases k with
  | source s => exact .tagged (Source.written_toJson h)
  | column c => exact .tagged (Column.written_toJson h)
  | condition c =>
    have hp : (c.map f).predicate.toJson.Written := Predicate.written_toJson h
    exact .tagged (.record (by simp [hp]))
  | join j =>
    have hn : (j.map f).target.Written := h
    exact .tagged (.record (by simp [hn]))
  | order o => exact .tagged (Order.written_toJson h)
  | combine c => exact .tagged (Combine.written_toJson h)
  | insert i => exact .tagged (Insert.written_toJson h)
  | aggregate a => exact .tagged (.record (by simp))
  | limit n => exact .tagged (.nat n.toNat)
  | offset n => exact .tagged (.nat n.toNat)

theorem Variables.written_toJson {vars : Variables} (h : ∀ v ∈ vars, v.2.NoFloat) :
    vars.toJson.Written :=
  .record fun m hm => by
    obtain ⟨v, hv, rfl⟩ := List.mem_map.mp hm
    exact Value.written_toJson (h v hv)

theorem Statement.written_toJson {q : Statement σ} (h : q.Storable (WritesNested f)) :
    (q.map f).toJson.Written := by
  have hc : (array ((q.map f).clauses.map Clause.toJson)).Written := .array fun j hj => by
    simp only [map, List.map_map] at hj
    obtain ⟨c, hc, rfl⟩ := List.mem_map.mp hj
    have hk : (c.map f).kind.toJson.Written := ClauseKind.written_toJson (h.clauses.2 c hc)
    exact .record (by simp [hk])
  have hv : (q.map f).vars.toJson.Written := Variables.written_toJson h.vars
  exact .record (by simp [hc, hv])

theorem Query.written_toJson {q : Query} (h : q.Storable) : q.toJson.Written := by
  refine Statement.written_toJson (Statement.Storable.imp h fun n _ hn => ?_)
  refine Subquery.Storable.induction (P := fun n => n.toJson.Written) (fun p hp => ?_) n hn
  rw [Subquery.toJson_of]
  exact Statement.written_toJson hp

end SqlDialects
