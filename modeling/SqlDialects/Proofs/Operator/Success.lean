import SqlDialects.Proofs.Operator.Rendered
import SqlDialects.Proofs.Outcome.Emit
import SqlDialects.Proofs.Text.Occurs
import SqlDialects.Render.Write

/-!
A rendering that succeeds has rendered every part with success, and what the parts rendered to
stands in its SQL. From a whole select down, each clause that is rendered is reached, and from a
clause the statements nested in it.
-/

namespace SqlDialects

open Text (Occurs)

namespace Emit

def Succeeds {α : Type} (x : Emit α) : Prop := ∃ a, x.outcome = .ok a

/-- Succeeds with a text that stands in the SQL. -/
def Shows (x : Emit String) (sql : String) : Prop := ∃ text, x.outcome = .ok text ∧ Occurs text sql

theorem Shows.mono {x : Emit String} {sql more : String} (h : x.Shows sql) (hs : Occurs sql more) :
    x.Shows more := by
  obtain ⟨text, hx, ht⟩ := h
  exact ⟨text, hx, ht.trans hs⟩

theorem Shows.succeeds {x : Emit String} {sql : String} (h : x.Shows sql) : x.Succeeds := by
  obtain ⟨text, hx, -⟩ := h
  exact ⟨text, hx⟩

end Emit

def Rendering.Shows (r : Rendering) (sql : String) : Place → Prop
  | .select => ∃ ss f, r.select ss = .ok f ∧ Occurs f.sql sql
  | .group => ∃ ss, (r.conditions ss).Shows sql
  | .joined => ∃ ss, (r.joined ss).Shows sql

theorem Rendering.Shows.mono {r : Rendering} {sql more : String} {place : Place}
    (h : r.Shows sql place) (hs : Occurs sql more) : r.Shows more place := by
  cases place with
  | select =>
    obtain ⟨ss, f, hf, h⟩ := h
    exact ⟨ss, f, hf, h.trans hs⟩
  | group =>
    obtain ⟨ss, h⟩ := h
    exact ⟨ss, h.mono hs⟩
  | joined =>
    obtain ⟨ss, h⟩ := h
    exact ⟨ss, h.mono hs⟩

namespace Compiler

variable (c : Compiler)

/-- What is nested in a clause stands in the SQL, and the clause as well if it is a condition. -/
def Reaches (sql : String) (k : ClauseKind Rendering) : Prop :=
  (∀ n ∈ k.parts, n.2.Shows sql n.1) ∧ ∀ x, k = .condition x → ∃ ss, (c.condition ss x).Shows sql

variable {c}

theorem Reaches.mono {sql more : String} {k : ClauseKind Rendering} (h : c.Reaches sql k)
    (hs : Occurs sql more) : c.Reaches more k := by
  refine ⟨fun n hn => (h.1 n hn).mono hs, fun x hx => ?_⟩
  obtain ⟨ss, hx⟩ := h.2 x hx
  exact ⟨ss, hx.mono hs⟩

variable {ss : Scopes} {sql : String}

theorem condition_parts {x : Condition Rendering} (h : (c.condition ss x).outcome = .ok sql) :
    ∀ n ∈ x.predicate.parts, n.2.Shows sql n.1 := by
  intro n hn
  unfold Compiler.condition at h
  generalize x.predicate = p at h hn
  have hquery {q : Rendering} {sub : String} (hs : (Emit.embed (q.select ss)).outcome = .ok sub)
      (hsub : Occurs sub sql) (hq : n = (.select, q)) : n.2.Shows sql n.1 := by
    subst hq
    obtain ⟨f, hf, rfl⟩ := Emit.embed_eq_ok hs
    exact ⟨ss, f, hf, hsub⟩
  cases p with
  | oneOfQuery column q =>
    obtain ⟨sub, hs, h⟩ := Emit.bind_eq_ok h
    cases h
    exact hquery hs (.between _ _ _) (List.mem_singleton.mp hn)
  | rowsExist q =>
    obtain ⟨sub, hs, h⟩ := Emit.bind_eq_ok h
    cases h
    exact hquery hs (.between _ _ _) (List.mem_singleton.mp hn)
  | againstQuery column operator q =>
    obtain ⟨op, -, h⟩ := Emit.bind_eq_ok h
    obtain ⟨sub, hs, h⟩ := Emit.bind_eq_ok h
    cases h
    refine hquery hs ?_ (List.mem_singleton.mp hn)
    exact (Occurs.between _ _ _).trans (occurs_negate _ _)
  | queryAgainst q operator value =>
    obtain ⟨op, -, h⟩ := Emit.bind_eq_ok h
    obtain ⟨sub, hs, h⟩ := Emit.bind_eq_ok h
    obtain ⟨marker, -, h⟩ := Emit.bind_eq_ok h
    cases h
    refine hquery hs ?_ (List.mem_singleton.mp hn)
    refine Occurs.trans ?_ (occurs_negate _ _)
    exact ((((Occurs.between _ _ _).append_right _).append_right _).append_right _)
  | nested q =>
    obtain ⟨sub, hs, h⟩ := Emit.bind_eq_ok h
    obtain rfl := List.mem_singleton.mp hn
    have htext := Except.ok.inj h
    refine ⟨ss, sub, hs, ?_⟩
    rw [← htext]
    split
    · next he =>
      rw [String.isEmpty_iff.mp he]
      exact .empty _
    · exact .between _ _ _
  | _ => cases hn

theorem reaches_condition {x : Condition Rendering} (h : (c.condition ss x).Shows sql) :
    c.Reaches sql (.condition x) := by
  obtain ⟨text, ht, hs⟩ := h
  refine ⟨fun n hn => (condition_parts ht n hn).mono hs, ?_⟩
  rintro _ ⟨⟩
  exact ⟨ss, text, ht, hs⟩

theorem reaches_of_parts {k : ClauseKind Rendering} (hk : ∀ x, k ≠ .condition x)
    (h : ∀ n ∈ k.parts, n.2.Shows sql n.1) : c.Reaches sql k :=
  ⟨h, fun x hx => absurd hx (hk x)⟩

theorem shows_embed {q : Rendering} {sub : String}
    (h : (Emit.embed (q.select ss)).outcome = .ok sub) (hs : Occurs sub sql) :
    ∀ n ∈ [(Place.select, q)], n.2.Shows sql n.1 := by
  obtain ⟨f, hf, rfl⟩ := Emit.embed_eq_ok h
  intro n hn
  obtain rfl := List.mem_singleton.mp hn
  exact ⟨ss, f, hf, hs⟩

theorem tableExpression_reaches {s : Source Rendering}
    (h : (c.tableExpression ss s).outcome = .ok sql) : c.Reaches sql (.source s) := by
  refine reaches_of_parts nofun fun n hn => ?_
  cases s with
  | query q aliasName =>
    obtain ⟨sub, hs, h⟩ := Emit.bind_eq_ok h
    cases h
    exact shows_embed hs ((Occurs.between _ _ _).append_right _) n hn
  | _ => cases hn

theorem column_encloses {x : Column Rendering} (h : (c.column ss x).outcome = .ok sql) :
    ∀ n ∈ (ClauseKind.column x).parts, n.1 = .select ∧
      ∃ f, n.2.select ss = .ok f ∧ Enclosed f.sql sql := by
  intro n hn
  cases x with
  | query q aliasName =>
    obtain ⟨sub, hs, h⟩ := Emit.bind_eq_ok h
    obtain ⟨f, hf, rfl⟩ := Emit.embed_eq_ok hs
    obtain rfl := List.mem_singleton.mp hn
    have htext := (Except.ok.inj h).symm
    rw [String.append_assoc ] at htext
    exact ⟨rfl, f, hf, "", _, htext⟩
  | _ => cases hn

theorem column_reaches {x : Column Rendering} (h : (c.column ss x).outcome = .ok sql) :
    c.Reaches sql (.column x) := by
  refine reaches_of_parts nofun fun n hn => ?_
  obtain ⟨hplace, f, hf, hs⟩ := column_encloses h n hn
  rw [hplace]
  exact ⟨ss, f, hf, hs.occurs⟩

theorem join_reaches {j : Join Rendering} (h : (join ss j).outcome = .ok sql) :
    c.Reaches sql (.join j) := by
  obtain ⟨text, ht, h⟩ := Emit.bind_eq_ok h
  cases h
  refine reaches_of_parts nofun fun n hn => ?_
  obtain rfl := List.mem_singleton.mp hn
  exact ⟨ss, text, ht, (Occurs.refl text).append_left _⟩

theorem combination_reaches {x : Combine Rendering} (h : (c.combination ss x).outcome = .ok sql) :
    c.Reaches sql (.combine x) := by
  refine reaches_of_parts nofun fun n hn => ?_
  cases x with
  | query operation all q =>
    obtain ⟨sub, hs, h⟩ := Emit.bind_eq_ok h
    cases h
    exact shows_embed hs ((Occurs.refl sub).append_left _) n hn
  | raw sql bindings => cases hn

theorem firstRows_reaches {table : String} {i : Insert Rendering}
    (h : (c.firstRows ss table i).outcome = .ok sql) : c.Reaches sql (.insert i) := by
  refine reaches_of_parts nofun fun n hn => ?_
  cases i with
  | query columns q =>
    obtain ⟨sub, hs, h⟩ := Emit.bind_eq_ok h
    cases h
    exact shows_embed hs ((Occurs.refl sub).append_left _) n hn
  | values columns vs returnId => cases hn

theorem nextRow_reaches {i : Insert Rendering} (h : (c.nextRow ss i).outcome = .ok sql) :
    c.Reaches sql (.insert i) := by
  refine reaches_of_parts nofun fun n hn => ?_
  cases i with
  | query columns q => cases h
  | values columns vs returnId => cases hn

section Parts

variable {q : Statement Rendering}

theorem reaches_getAll {α : Type} {component : Component} {as? : ClauseKind Rendering → Option α}
    {wrap : α → ClauseKind Rendering} (hw : ∀ k x, as? k = some x → k = wrap x) {xs : List α}
    (hxs : q.getAll component as? (some c.engine) = .ok xs)
    (h : ∀ x ∈ xs, c.Reaches sql (wrap x)) :
    ∀ k ∈ q.kinds c.engine component, c.Reaches sql k := by
  intro k hk
  obtain ⟨d, hd, rfl⟩ := List.mem_map.mp hk
  have hread := Statement.getAll_eq_ok.mp hxs
  obtain ⟨x, hx, hdx⟩ := forall₂_mem_left hread hd
  rw [hw _ _ hdx]
  exact h x hx

theorem reaches_getOne {α : Type} {component : Component} {as? : ClauseKind Rendering → Option α}
    {wrap : α → ClauseKind Rendering} (hw : ∀ k x, as? k = some x → k = wrap x) {x : α}
    (hx : q.getOne component as? (some c.engine) = .ok (some x)) (h : c.Reaches sql (wrap x)) :
    ∀ k ∈ (q.chosen c.engine component).toList, c.Reaches sql k := by
  intro k hk
  obtain ⟨d, hd, hdx⟩ := Statement.getOne_eq_some.mp hx
  unfold Statement.chosen at hk
  rw [hd] at hk
  obtain rfl := List.mem_singleton.mp hk
  show c.Reaches sql d.kind
  rw [hw _ _ hdx]
  exact h

theorem reaches_of_mapM {α : Type} {f : α → Emit String} {wrap : α → ClauseKind Rendering}
    {xs : List α} {texts : List String} (ht : (xs.mapM f).outcome = .ok texts)
    (hf : ∀ x ∈ xs, ∀ text, (f x).outcome = .ok text → c.Reaches text (wrap x))
    (hs : ∀ text ∈ texts, Occurs text sql) : ∀ x ∈ xs, c.Reaches sql (wrap x) := by
  intro x hx
  obtain ⟨text, hm, htext⟩ := forall₂_mem_left (Emit.mapM_eq_ok ht) hx
  exact (hf x hx text htext).mono (hs text hm)

theorem conditions_reach {xs : List (Condition Rendering)}
    (h : (c.conditions ss xs).outcome = .ok sql) : ∀ x ∈ xs, c.Reaches sql (.condition x) := by
  obtain ⟨parts, hp, h⟩ := Emit.bind_eq_ok h
  cases h
  intro x hx
  obtain ⟨text, hm, ht⟩ := forall₂_mem_zip (Emit.mapM_eq_ok hp) hx
  exact reaches_condition ⟨text, ht, occurs_chain hm⟩

theorem filterText_reaches (h : (c.filterText ss q).outcome = .ok sql) :
    ∀ k ∈ q.kinds c.engine .filter, c.Reaches sql k := by
  obtain ⟨xs, hxs, h⟩ := Emit.bind_eq_ok h
  exact reaches_getAll ClauseKind.condition?_eq_some hxs (conditions_reach h)

theorem sourceFor_eq_ok {operation : Operation} {s : Source Rendering}
    (h : c.sourceFor operation q = .ok s) :
    q.getOne .source ClauseKind.source? (some c.engine) = .ok (some s) := by
  unfold sourceFor at h
  cases hx : q.getOne .source ClauseKind.source? (some c.engine) with
  | error e =>
    rw [hx] at h
    cases h
  | ok x =>
    rw [hx] at h
    cases x with
    | none => cases h
    | some s' =>
      cases h
      rfl

theorem joinedTable_reaches (h : (c.joinedTable ss q).outcome = .ok sql) :
    ∀ k ∈ q.rendered c.engine .joined, c.Reaches sql k := by
  obtain ⟨s, hs, h⟩ := Emit.bind_eq_ok h
  obtain ⟨xs, hxs, h⟩ := Emit.bind_eq_ok h
  obtain ⟨text, ht, h⟩ := Emit.bind_eq_ok h
  obtain ⟨constraints, hc, h⟩ := Emit.bind_eq_ok h
  have htext : Occurs text sql ∧ Occurs constraints sql := by
    rw [← Except.ok.inj h]
    split
    · next he =>
      rw [String.isEmpty_iff.mp he]
      exact ⟨.refl text, .empty text⟩
    · exact ⟨((Occurs.refl text).append_right _).append_right _, (Occurs.refl _).append_left _⟩
  intro k hk
  rcases List.mem_append.mp hk with hk | hk
  · have hreach := (tableExpression_reaches ht).mono htext.1
    exact reaches_getOne ClauseKind.source?_eq_some (sourceFor_eq_ok hs) hreach k hk
  · have hreach := fun x hx => (conditions_reach hc x hx).mono htext.2
    exact reaches_getAll ClauseKind.condition?_eq_some hxs hreach k hk

theorem columns_cases (h : (c.columns ss q).outcome = .ok sql) :
    ∃ basic, (c.basicColumns ss q).outcome = .ok basic ∧ (sql = basic ∨ sql = insertTop basic) := by
  unfold columns at h
  cases ho : (c.basicColumns ss q).outcome with
  | ok basic =>
    refine ⟨basic, rfl, ?_⟩
    dsimp only at h
    rw [ho] at h
    split at h
    · split at h
      · next hbasic _ =>
        cases hbasic
        split at h
        · exact .inr (Except.ok.inj h).symm
        · exact .inl (Except.ok.inj (ho ▸ h)).symm
      · cases h
      · next hbasic => cases hbasic
    · exact .inl (Except.ok.inj (ho ▸ h)).symm
  | error e =>
    dsimp only at h
    rw [ho] at h
    split at h
    · rw [ho] at h
      cases h
    · rw [ho] at h
      cases h

theorem basicColumns_encloses (h : (c.basicColumns ss q).outcome = .ok sql)
    (ha : ¬(q.chosen c.engine .aggregate).isSome) :
    ∀ k ∈ q.kinds c.engine .select, (∀ x, k ≠ .condition x) ∧ ∀ n ∈ k.parts, n.1 = .select ∧
      ∃ f, n.2.select ss = .ok f ∧ Enclosed f.sql sql := by
  obtain ⟨a, hone, h⟩ := Emit.bind_eq_ok h
  have hnone : a = none := by
    cases a with
    | none => rfl
    | some a =>
      obtain ⟨d, hd, -⟩ := Statement.getOne_eq_some.mp hone
      unfold Statement.chosen at ha
      rw [hd] at ha
      exact absurd rfl ha
  subst hnone
  obtain ⟨xs, hxs, h⟩ := Emit.bind_eq_ok h
  obtain ⟨texts, ht, h⟩ := Emit.bind_eq_ok h
  intro k hk
  obtain ⟨d, hd, rfl⟩ := List.mem_map.mp hk
  obtain ⟨x, hx, hdx⟩ := forall₂_mem_left (Statement.getAll_eq_ok.mp hxs) hd
  obtain ⟨text, hm, htext⟩ := forall₂_mem_left (Emit.mapM_eq_ok ht) hx
  rw [ClauseKind.column?_eq_some _ _ hdx]
  refine ⟨nofun, fun n hn => ?_⟩
  obtain ⟨hplace, f, hf, hs⟩ := column_encloses htext n hn
  obtain ⟨front, back, hjoined⟩ := Text.exists_intercalate ", " hm
  have hsome : texts.isEmpty = false := by
    cases texts with
    | nil => cases hm
    | cons _ _ => rfl
  have hall : ("SELECT " ++ if q.distinct then "DISTINCT " else "") ++
      ", ".intercalate texts = sql := by
    rw [hsome] at h
    exact Except.ok.inj h
  rw [hjoined, ← String.append_assoc, ← String.append_assoc] at hall
  exact ⟨hplace, f, hf, hs.trans hall.symm⟩

theorem columns_reach (h : (c.columns ss q).outcome = .ok sql) :
    ∀ k ∈ (if (q.chosen c.engine .aggregate).isSome then [] else q.kinds c.engine .select),
      c.Reaches sql k := by
  intro k hk
  split at hk
  · cases hk
  · next ha =>
    obtain ⟨basic, hbasic, hcase⟩ := columns_cases h
    obtain ⟨hcondition, hparts⟩ := basicColumns_encloses hbasic ha k hk
    refine reaches_of_parts hcondition fun n hn => ?_
    obtain ⟨hplace, f, hf, hs⟩ := hparts n hn
    rw [hplace]
    refine ⟨ss, f, hf, ?_⟩
    rcases hcase with rfl | rfl
    · exact hs.occurs
    · exact hs.insertTop

theorem table_reaches (h : (c.table ss q).outcome = .ok sql) :
    ∀ k ∈ (q.chosen c.engine .source).toList, c.Reaches sql k := by
  obtain ⟨s, hs, h⟩ := Emit.bind_eq_ok h
  obtain ⟨text, ht, h⟩ := Emit.bind_eq_ok h
  cases h
  have hreach := (tableExpression_reaches ht).mono ((Occurs.refl text).append_left "FROM ")
  exact reaches_getOne ClauseKind.source?_eq_some (sourceFor_eq_ok hs) hreach

theorem optional_reaches {α : Type} {component : Component} {part : Option String}
    {as? : ClauseKind Rendering → Option α} {wrap : α → ClauseKind Rendering}
    (hw : ∀ k x, as? k = some x → k = wrap x) {f : List α → Emit (Option String)}
    (h : (do
      let xs ← Emit.lift (q.getAll component as? (some c.engine))
      if xs.isEmpty then pure none else f xs).outcome = .ok part)
    (hf : ∀ xs, (f xs).outcome = .ok part → ∀ x ∈ xs, c.Reaches (part.getD "") (wrap x)) :
    ∀ k ∈ q.kinds c.engine component, c.Reaches (part.getD "") k := by
  obtain ⟨xs, hxs, h⟩ := Emit.bind_eq_ok h
  refine reaches_getAll hw hxs fun x hx => ?_
  split at h
  · next he =>
    rw [List.isEmpty_iff.mp he] at hx
    cases hx
  · exact hf xs h x hx

variable {part : Option String}

theorem joins_reach (h : (c.joins ss q).outcome = .ok part) :
    ∀ k ∈ q.kinds c.engine .join, c.Reaches (part.getD "") k := by
  refine optional_reaches ClauseKind.join?_eq_some h fun xs h => ?_
  obtain ⟨texts, ht, h⟩ := Emit.bind_eq_ok h
  cases h
  exact reaches_of_mapM ht (fun j _ _ => join_reaches) fun text hm =>
    (Occurs.intercalate _ hm).append_left _

theorem groups_reach (h : (c.groups ss q).outcome = .ok part) :
    ∀ k ∈ q.kinds c.engine .group, c.Reaches (part.getD "") k := by
  refine optional_reaches ClauseKind.column?_eq_some h fun xs h => ?_
  obtain ⟨texts, ht, h⟩ := Emit.bind_eq_ok h
  cases h
  refine reaches_of_mapM ht (fun x _ text hx => ?_) fun text hm =>
    (Occurs.intercalate _ hm).append_left _
  exact column_reaches hx

theorem having_reaches (h : (c.having ss q).outcome = .ok part) :
    ∀ k ∈ q.kinds c.engine .having, c.Reaches (part.getD "") k := by
  refine optional_reaches ClauseKind.condition?_eq_some h fun xs h x hx => ?_
  obtain ⟨sql, hs, h⟩ := Emit.bind_eq_ok h
  refine (conditions_reach hs x hx).mono ?_
  rw [← Except.ok.inj h]
  split
  · next he =>
    rw [String.isEmpty_iff.mp he]
    exact .empty _
  · exact (Occurs.refl sql).append_left _

theorem combinations_reach (h : (c.combinations ss q).outcome = .ok part) :
    ∀ k ∈ q.kinds c.engine .combine, c.Reaches (part.getD "") k := by
  refine optional_reaches ClauseKind.combine?_eq_some h fun xs h => ?_
  obtain ⟨texts, ht, h⟩ := Emit.bind_eq_ok h
  cases h
  exact reaches_of_mapM ht (fun x _ _ => combination_reaches) fun text hm =>
    Occurs.intercalate _ hm

theorem wheres_reach (hs : (q.chosen c.engine .source).isSome)
    (h : (c.wheres ss q).outcome = .ok part) :
    ∀ k ∈ q.kinds c.engine .filter, c.Reaches (part.getD "") k := by
  intro k hk
  have hsource : q.has .source (some c.engine) = true := by
    rw [Statement.has_eq_true_iff]
    intro he
    unfold Statement.chosen at hs
    rw [he] at hs
    cases hs
  have hfilter : q.has .filter (some c.engine) = true := by
    rw [Statement.has_eq_true_iff]
    obtain ⟨d, hd, -⟩ := List.mem_map.mp hk
    exact List.ne_nil_of_mem hd
  unfold wheres at h
  rw [hsource, hfilter] at h
  obtain ⟨sql, hsql, h⟩ := Emit.bind_eq_ok h
  refine (filterText_reaches hsql k hk).mono ((Occurs.refl sql).trim.trans ?_)
  rw [← Except.ok.inj h]
  split
  · next he =>
    rw [String.isEmpty_iff.mp he]
    exact .empty _
  · exact (Occurs.refl _).append_left _

theorem chosen_source {operation : Operation} {s : Source Rendering}
    (h : c.sourceFor operation q = .ok s) : (q.chosen c.engine .source).isSome := by
  obtain ⟨d, hd, -⟩ := Statement.getOne_eq_some.mp (sourceFor_eq_ok h)
  unfold Statement.chosen
  rw [hd]
  rfl

theorem selectText_reaches (h : (c.selectText ss q).outcome = .ok sql) :
    ∀ k ∈ q.rendered c.engine .select, c.Reaches sql k := by
  obtain ⟨columns, hcolumns, h⟩ := Emit.bind_eq_ok h
  obtain ⟨table, htable, h⟩ := Emit.bind_eq_ok h
  obtain ⟨joins, hjoins, h⟩ := Emit.bind_eq_ok h
  obtain ⟨wheres, hwheres, h⟩ := Emit.bind_eq_ok h
  obtain ⟨groups, hgroups, h⟩ := Emit.bind_eq_ok h
  obtain ⟨having, hhaving, h⟩ := Emit.bind_eq_ok h
  obtain ⟨orders, -, h⟩ := Emit.bind_eq_ok h
  obtain ⟨page, -, h⟩ := Emit.bind_eq_ok h
  obtain ⟨combinations, hcombinations, h⟩ := Emit.bind_eq_ok h
  cases h
  obtain ⟨s, hs, -⟩ := Emit.bind_eq_ok htable
  intro k hk
  unfold Statement.rendered at hk
  simp only [List.mem_append] at hk
  rcases hk with (((((hk | hk) | hk) | hk) | hk) | hk) | hk
  · exact (columns_reach hcolumns k hk).mono (occurs_joinParts (some columns) (by simp))
  · exact (table_reaches htable k hk).mono (occurs_joinParts (some table) (by simp))
  · exact (joins_reach hjoins k hk).mono (occurs_joinParts _ (by simp))
  · exact (wheres_reach (chosen_source hs) hwheres k hk).mono (occurs_joinParts _ (by simp))
  · exact (groups_reach hgroups k hk).mono (occurs_joinParts _ (by simp))
  · exact (having_reaches hhaving k hk).mono (occurs_joinParts _ (by simp))
  · exact (combinations_reach hcombinations k hk).mono (occurs_joinParts _ (by simp))

theorem basicSelect_reaches {outer : Scopes} {f : Fragment} (h : c.basicSelect q outer = .ok f) :
    ∀ k ∈ q.rendered c.engine .select, c.Reaches f.sql k :=
  selectText_reaches (Emit.outcome_of_toFragment h)

theorem rendered_numberRows (f : Fragment) (names : List String) (all : Bool) :
    ∀ k ∈ q.rendered c.engine .select,
      k ∈ (numberRows (if all then q else q.select names) f).rendered c.engine .select := by
  have hadd (p : Statement Rendering) (kind : ClauseKind Rendering) :
      ∀ k ∈ p.rendered c.engine .select, k ∈ (p.add .select kind).rendered c.engine .select := by
    refine Statement.rendered_subset (fun component hs _ => p.bucket_add_of_ne hs _ _) ?_
    intro k hk
    unfold Statement.kinds at hk ⊢
    rw [Statement.bucket_add, List.map_append]
    exact List.mem_append_left _ hk
  have hselect (columns : List String) (p : Statement Rendering) :
      ∀ k ∈ p.rendered c.engine .select,
        k ∈ (p.addColumns columns).rendered c.engine .select := by
    induction columns generalizing p with
    | nil =>
      intro k hk
      exact hk
    | cons name columns ih =>
      intro k hk
      exact ih (p.addColumn (.named name)) k (hadd p _ k hk)
  have hclear (p : Statement Rendering) :
      ∀ k ∈ p.rendered c.engine .select,
        k ∈ (p.clear .order none).rendered c.engine .select := by
    refine Statement.rendered_subset (fun component _ ho => p.bucket_clear_of_ne ho _ _) ?_
    intro k hk
    unfold Statement.kinds at hk ⊢
    rw [p.bucket_clear_of_ne (by decide)]
    exact hk
  -- Only the order is cleared, and nothing nested stands in it.
  intro k hk
  unfold numberRows
  refine hclear _ k (hadd _ _ k ?_)
  cases all with
  | true => exact hk
  | false => exact hselect _ q k hk

theorem numberedSelect_reaches {outer : Scopes} {f : Fragment}
    (h : c.numberedSelect q outer = .ok f) :
    ∀ k ∈ q.rendered c.engine .select, c.Reaches f.sql k := by
  unfold numberedSelect at h
  obtain ⟨w, -, h⟩ := bind_eq_ok h
  obtain ⟨text, -, h⟩ := bind_eq_ok h
  obtain ⟨inner, hinner, h⟩ := bind_eq_ok h
  have hsql : Occurs inner.sql f.sql := by
    have hinside (sql : String) : Occurs inner.sql
        ("SELECT * FROM (" ++ inner.sql ++ ") AS [results_wrapper] WHERE [row_num] " ++ sql) :=
      (Occurs.between _ _ _).append_right sql
    split at h
    · cases h
      exact hinside ">= ?"
    · cases h
      exact hinside "BETWEEN ? AND ?"
  intro k hk
  exact (basicSelect_reaches hinner k (rendered_numberRows _ _ _ k hk)).mono hsql

theorem select_reaches {outer : Scopes} {f : Fragment} (h : c.select q outer = .ok f) :
    ∀ k ∈ q.rendered c.engine .select, c.Reaches f.sql k := by
  unfold select at h
  split at h
  · obtain ⟨offset, -, h⟩ := bind_eq_ok h
    split at h
    · exact basicSelect_reaches h
    · exact numberedSelect_reaches h
  · exact basicSelect_reaches h

theorem target_source {operation : Operation} {table : String}
    (h : (c.target operation q).outcome = .ok table) :
    (q.chosen c.engine .source).isSome := by
  obtain ⟨s, hs, -⟩ := Emit.bind_eq_ok h
  exact chosen_source hs

theorem whereSuffix_reaches (hs : (q.chosen c.engine .source).isSome)
    (h : (c.whereSuffix ss q).outcome = .ok sql) :
    ∀ k ∈ q.kinds c.engine .filter, c.Reaches sql k := by
  obtain ⟨part, hpart, h⟩ := Emit.bind_eq_ok h
  intro k hk
  refine (wheres_reach hs hpart k hk).mono ?_
  cases part with
  | some sql =>
    cases h
    exact (Occurs.refl _).append_left _
  | none =>
    cases h
    exact .refl _

theorem deleteText_reaches (h : (c.deleteText ss q).outcome = .ok sql) :
    ∀ k ∈ q.kinds c.engine .filter, c.Reaches sql k := by
  obtain ⟨table, ht, h⟩ := Emit.bind_eq_ok h
  obtain ⟨suffix, hsuffix, h⟩ := Emit.bind_eq_ok h
  cases h
  intro k hk
  exact (whereSuffix_reaches (target_source ht) hsuffix k hk).mono ((Occurs.refl _).append_left _)

theorem updateText_reaches {component : Component}
    (h : (c.updateText ss component q).outcome = .ok sql) :
    ∀ k ∈ q.kinds c.engine .filter, c.Reaches sql k := by
  obtain ⟨table, ht, h⟩ := Emit.bind_eq_ok h
  obtain ⟨⟨columns, values⟩, -, h⟩ := Emit.bind_eq_ok h
  obtain ⟨sets, -, h⟩ := Emit.bind_eq_ok h
  obtain ⟨suffix, hsuffix, h⟩ := Emit.bind_eq_ok h
  cases h
  intro k hk
  exact (whereSuffix_reaches (target_source ht) hsuffix k hk).mono ((Occurs.refl _).append_left _)

theorem insertText_reaches (h : (c.insertText ss q).outcome = .ok sql) :
    ∀ k ∈ q.kinds c.engine .insert, c.Reaches sql k := by
  obtain ⟨table, -, h⟩ := Emit.bind_eq_ok h
  obtain ⟨rows, hrows, h⟩ := Emit.bind_eq_ok h
  refine reaches_getAll ClauseKind.insert?_eq_some hrows fun x hx => ?_
  cases rows with
  | nil => cases hx
  | cons first rest =>
    obtain ⟨head, hhead, h⟩ := Emit.bind_eq_ok h
    obtain ⟨texts, htexts, h⟩ := Emit.bind_eq_ok h
    have hall : Occurs (", ".intercalate (head :: texts)) sql := by
      rw [← Except.ok.inj h]
      split
      · exact ((Occurs.refl _).append_right _).append_right _
      · exact .refl _
    have hrow (text : String) (ht : text ∈ head :: texts) : Occurs text sql :=
      (Occurs.intercalate _ ht).trans hall
    rcases List.mem_cons.mp hx with rfl | hx
    · exact (firstRows_reaches hhead).mono (hrow head List.mem_cons_self)
    · exact reaches_of_mapM htexts (fun i _ _ => nextRow_reaches)
        (fun text ht => hrow text (List.mem_cons_of_mem _ ht)) x hx

end Parts

end Compiler

end SqlDialects
