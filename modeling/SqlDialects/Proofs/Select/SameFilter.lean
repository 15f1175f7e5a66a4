import SqlDialects.Proofs.Paging.Selects
import SqlDialects.Proofs.Placeholder.Expand
import SqlDialects.Proofs.Statement.Filtered

/-!
Deletes and updates against the select of the same rows. What begins a statement depends on what
becomes of the rows; behind it stands the same filter, with its values behind those that come
before.
-/

namespace SqlDialects

open Text Fragment

namespace Compiler

variable {c : Compiler} {ss outer : Scopes} {x : Statement Rendering} {s : Source Rendering}

theorem wheres_eq_ok {part : Option String} (h : (c.wheres ss x).outcome = .ok part) :
    part = none ∨ ∃ conditions, part = some ("WHERE " ++ conditions) := by
  unfold wheres at h
  split at h
  · obtain ⟨sql, -, h⟩ := Emit.bind_eq_ok h
    dsimp only at h
    split at h
    · exact .inl (Except.ok.inj h).symm
    · exact .inr ⟨_, (Except.ok.inj h).symm⟩
  · exact .inl (Except.ok.inj h).symm

variable (c ss x) in
theorem whereSuffix_eq : c.whereSuffix ss x = (do
    let part ← c.wheres ss x
    return trailing [part]) := by
  unfold whereSuffix
  cases ho : (c.wheres ss x).outcome with
  | error e => rw [Emit.bind_error ho, Emit.bind_error ho]
  | ok part =>
    rw [Emit.bind_ok ho, Emit.bind_ok ho]
    rcases wheres_eq_ok ho with rfl | ⟨conditions, rfl⟩
    · rfl
    · rw [trailing_some (by simp)]

theorem sourceFor_of_onlyFilters (h : x.OnlyFilters s) (operation : Operation) :
    c.sourceFor operation x = .ok s := by
  rw [sourceFor, Statement.getOne, h.bucket_source]
  rfl

def allColumns (distinct : Bool) : String :=
  "SELECT " ++ (if distinct then "DISTINCT " else "") ++ "* FROM "

section Select

variable (h : x.OnlyFilters s)

include h

theorem columns_of_onlyFilters : c.columns ss x =
    pure ("SELECT " ++ (if x.distinct then "DISTINCT " else "") ++ "*") := by
  rw [columns_eq_basic (h.window_eq _) (.inr (.inl rfl)),
    basicColumns_of_noAggregate (h.has_eq_false (by decide) (by decide) _),
    Statement.getAll_of_none (h.has_eq_false (by decide) (by decide) _)]
  rfl

theorem middle_of_onlyFilters {table : Fragment}
    (ht : c.tableExpression ss s = ⟨table.bindings, .ok table.sql⟩) :
    c.middle ss x = (do
      let text ← (⟨table.bindings, .ok table.sql⟩ : Emit String)
      let part ← c.wheres ss x
      return [some ("FROM " ++ text), none, part, none, none]) := by
  have hnone {component : Component} (hs : component ≠ .source) (hf : component ≠ .filter) :=
    h.has_eq_false hs hf (some c.engine)
  have htable : c.table ss x = (do
      let text ← (⟨table.bindings, .ok table.sql⟩ : Emit String)
      return "FROM " ++ text) := by
    rw [Compiler.table, sourceFor_of_onlyFilters h, Emit.lift_ok_bind, ht]
  have hjoins : c.joins ss x = pure none := by
    rw [joins, Statement.getAll_of_none (hnone (by decide) (by decide))]
    rfl
  have hgroups : c.groups ss x = pure none := by
    rw [groups, Statement.getAll_of_none (hnone (by decide) (by decide))]
    rfl
  have hhaving : c.having ss x = pure none := by
    rw [having, Statement.getAll_of_none (hnone (by decide) (by decide))]
    rfl
  rw [middle, htable, hjoins, hgroups, hhaving]
  simp only [bind_assoc, pure_bind]

theorem select_of_onlyFilters {table : Fragment}
    (ht : c.tableExpression (x.vars :: outer) s = ⟨table.bindings, .ok table.sql⟩) :
    c.select x outer = (c.whereSuffix (x.vars :: outer) x).toFragment.map
      (ofText (allColumns x.distinct) ++ table ++ ·) := by
  have horders : c.orders x = pure none := by
    rw [orders, Statement.getAll_of_none (h.has_eq_false (by decide) (by decide) _)]
    rfl
  have hcombinations : c.combinations (x.vars :: outer) x = pure none :=
    combinations_of_none (h.has_eq_false (by decide) (by decide) _)
  have hparts (lead text : String) (part : Option String) :
      joinParts (some ("SELECT " ++ lead ++ "*") ::
        ([some ("FROM " ++ text), none, part, none, none] ++ [none, none, none])) =
      "SELECT " ++ lead ++ "* FROM " ++ text ++ trailing [part] := by
    have hfrom : "* FROM " = "*" ++ " " ++ "FROM " := by decide
    rw [joinParts_cons (by simp), hfrom]
    have hlist : [some ("FROM " ++ text), none, part, none, none] ++ [none, none, none] =
        [some ("FROM " ++ text)] ++ ([none] ++ ([part] ++ [none, none, none, none, none])) := rfl
    have habsent : trailing [none, none, none, none, none] = "" := rfl
    rw [hlist, trailing_append, trailing_append, trailing_append, trailing_some (by simp), habsent]
    simp only [trailing_none, String.empty_append, String.append_empty, String.append_assoc]
  rw [c.select_of_noOffset (Statement.window_eq_ok (h.window_eq _)).2, basicSelect, selectText_eq,
    columns_of_onlyFilters h, middle_of_onlyFilters h ht, horders, page_of_noWindow (h.window_eq _),
    hcombinations]
  have hlead := Emit.toFragment_led (x := ⟨table.bindings, .ok table.sql⟩) rfl
    (allColumns x.distinct ++ ·) (c.whereSuffix (x.vars :: outer) x)
  rw [whereSuffix_eq] at hlead ⊢
  simp only [bind_assoc, pure_bind, hparts] at hlead ⊢
  exact hlead

end Select

/-- How a table or SQL text stands where rows come from, and where they go. A query has its rows
from elsewhere. -/
inductive Refers {σ : Type} (c : Compiler) : Source σ → Fragment → Prop
  | table {name : String} (h : Unmarked name) :
      Refers c (.table name) (ofText (c.engine.wrap name))
  | raw {sql : String} {bindings : List Value} {aliasName : Option String} {f : Fragment}
      (h : Fragment.expand ⟨c.engine.wrapIdentifiers sql, bindings⟩ = .ok f) :
      Refers c (.raw sql bindings aliasName) f

section Source

variable {σ : Type} {r : Source σ} {table : Fragment}

theorem exists_refers (h : r.Obeys Terms.unmarked fun _ => False) : ∃ table, c.Refers r table := by
  cases r with
  | table name => exact ⟨_, .table h⟩
  | raw sql bindings aliasName =>
    have hmarks : marks (c.engine.wrapIdentifiers sql) = bindings.length :=
      (c.engine.marks_wrapIdentifiers sql).trans h.1
    obtain ⟨table, ht⟩ := exists_expand (a := ⟨_, bindings⟩) hmarks
    exact ⟨table, .raw ht⟩
  | query q aliasName => exact h.1.elim

theorem Refers.exists_written (h : c.Refers r table) (f : σ → Rendering) :
    ∃ written : Fragment, written.expand = .ok table ∧
      (∀ ss, c.tableExpression ss (r.map f) = ⟨written.bindings, .ok written.sql⟩) ∧
      ∀ operation {x : Statement Rendering}, c.sourceFor operation x = .ok (r.map f) →
        c.target operation x = ⟨written.bindings, .ok written.sql⟩ := by
  cases h with
  | @table name h =>
    refine ⟨_, expand_ofText (c.engine.unmarked_wrap h), fun ss => rfl, fun operation x hx => ?_⟩
    rw [target, hx]
    rfl
  | @raw sql bindings aliasName f h =>
    refine ⟨_, h, fun ss => ?_, fun operation x hx => ?_⟩
    · exact Emit.ext (List.append_nil _) rfl
    · rw [target, hx]
      exact Emit.ext (List.append_nil _) rfl

end Source

def Binds (ss : Scopes) (v bound : Value) : Prop :=
  (∀ sql, v ≠ .raw sql) ∧ resolve ss v = .ok bound

def setting (c : Compiler) (marker : Value → String) (column : String) (v : Value) : Fragment :=
  ofText (c.engine.wrap column ++ " = ") ++ ⟨marker v, [v]⟩

def settings (c : Compiler) (marker : Value → String) (columns : List String)
    (bound : List Value) : Fragment where
  sql := ", ".intercalate <| (columns.zip bound).map fun p => (c.setting marker p.1 p.2).sql
  bindings := bound

theorem assignment_of_binds {v bound : Value} (h : Binds ss v bound) (column : String) :
    c.assignment ss column v = ⟨[bound], .ok (c.setting (fun _ => "?") column bound).sql⟩ := by
  have hparameter : c.parameter ss v = ⟨[bound], .ok "?"⟩ := by
    rw [← c.marker_eq, parameter]
    · rw [h.2]
      rfl
    · exact h.1
  rw [assignment, hparameter]
  rfl

theorem mapM_assignment {columns : List String} {values bound : List Value}
    (hlen : columns.length = values.length) (h : List.Forall₂ (Binds ss) values bound) :
    ((columns.zip values).mapM fun p => c.assignment ss p.1 p.2) =
      ⟨bound, .ok ((columns.zip bound).map fun p => (c.setting (fun _ => "?") p.1 p.2).sql)⟩ := by
  induction h generalizing columns with
  | nil =>
    rw [List.zip_nil_right]
    rfl
  | @cons v b values bound hv h ih =>
    obtain ⟨column, columns, rfl⟩ := List.exists_cons_of_length_eq_add_one hlen
    rw [List.zip_cons_cons, List.mapM_cons, ih (Nat.succ.inj hlen)]
    dsimp only
    rw [assignment_of_binds hv]
    exact Emit.ext (congrArg (b :: ·) (List.append_nil _)) rfl

theorem expand_setting {column : String} (h : Unmarked column) (v : Value) :
    (c.setting (fun _ => "?") column v).expand =
      .ok (c.setting (expandMarker "?" ·) column v) := by
  have hmarker : Fragment.expand ⟨"?", [v]⟩ = .ok ⟨expandMarker "?" (some v), [v]⟩ := by
    refine expand_eq_ok.mpr ⟨expandMarkers_eq_ok.mpr ⟨marks_mark, ?_⟩, rfl⟩
    simp [fill]
  exact expand_append (expand_ofText ((c.engine.unmarked_wrap h).append (by decide))) hmarker

theorem expand_settings {columns : List String} {bound : List Value}
    (hlen : columns.length = bound.length) (h : ∀ column ∈ columns, Unmarked column) :
    (c.settings (fun _ => "?") columns bound).expand =
      .ok (c.settings (expandMarker "?" ·) columns bound) := by
  have hbound : (columns.zip bound).flatMap
      (fun p => (c.setting (fun _ => "?") p.1 p.2).bindings) = bound := by
    have hsnd : (columns.zip bound).map Prod.snd = bound :=
      List.map_snd_zip (Nat.le_of_eq hlen.symm)
    rw [List.map_eq_flatMap] at hsnd
    exact hsnd
  have heach : List.Forall₂ (fun f t => expandMarkers "?" f.bindings f.sql = .ok t)
      ((columns.zip bound).map fun p => c.setting (fun _ => "?") p.1 p.2)
      ((columns.zip bound).map fun p => (c.setting (expandMarker "?" ·) p.1 p.2).sql) := by
    rw [List.forall₂_map_left_iff, List.forall₂_map_right_iff, List.forall₂_same]
    intro p hp
    exact (expand_eq_ok.mp (expand_setting (h p.1 (List.of_mem_zip hp).1) p.2)).1
  have hjoined := expandMarkers_intercalate (show Unmarked ", " by decide) heach
  rw [List.flatMap_map, List.map_map, hbound] at hjoined
  exact expand_eq_ok.mpr ⟨hjoined, rfl⟩

/-- Updates of the statement's rows set columns, each to a value of its own that is bound. -/
structure Sets (c : Compiler) (q u : Query) (component : Component) (columns : List String)
    (bound : List Value) : Prop where
  method : u.method = .update ∧ component = .update ∨ u.method = .assign ∧ component = .assign
  extends_query : u.Extends q component
  nonempty : columns ≠ []
  unmarked : ∀ column ∈ columns, Unmarked column
  found : ∃ values returnId, columns.length = values.length ∧
    List.Forall₂ (Binds [q.vars]) values bound ∧
    u.getOne component ClauseKind.insert? (some c.engine) =
      .ok (some (.values columns values returnId))

theorem sets_assignAll {q : Query} {r : Source Subquery} (hq : q.OnlyFilters r)
    (hadds : q.addsFor c.engine = true) {method : Method} {component : Component}
    (hm : method = .update ∧ component = .update ∨ method = .assign ∧ component = .assign)
    {columns : List String} {values bound : List Value} (hne : columns ≠ [])
    (hlen : columns.length = values.length) (hcolumns : ∀ column ∈ columns, Unmarked column)
    (hbound : List.Forall₂ (Binds [q.vars]) values bound) :
    c.Sets q (q.assignAll method component columns values) component columns bound := by
  have habsent : ∀ x ∈ q.clauses, x.component ≠ component := by
    rcases hm with ⟨-, rfl⟩ | ⟨-, rfl⟩ <;> exact hq.component_ne (by decide) (by decide)
  exact {
    method := hm
    extends_query := Statement.extends_assignAll habsent method columns values
    nonempty := hne
    unmarked := hcolumns
    found := ⟨values, false, hlen, hbound,
      Statement.getOne_assignAll habsent hadds method columns values⟩ }

/-- What becomes of the rows of a statement: they are selected, deleted or updated. The SQL begins
with how that is said, and with the table. -/
inductive Begins (c : Compiler) (q : Query) (table : Fragment) : Query → Fragment → Prop
  | select : Begins c q table { q with method := .select }
      (ofText (allColumns q.distinct) ++ table)
  | delete : Begins c q table { q with method := .delete } (ofText "DELETE FROM " ++ table)
  | update {u : Query} {component : Component} {columns : List String} {bound : List Value}
      (h : c.Sets q u component columns bound) :
      Begins c q table u
        (ofText "UPDATE " ++ table ++ ofText " SET " ++
          c.settings (expandMarker "?" ·) columns bound)

variable {q p u : Query} {table start f : Fragment} {r : Source Subquery}

def filter (c : Compiler) (q : Query) : Except Fault Fragment :=
  (c.whereSuffix [q.vars] (c.prepare q)).toFragment

theorem bucket_prepare {component : Component}
    (h : p.bucket component (some c.engine) = q.bucket component (some c.engine)) :
    (c.prepare p).bucket component (some c.engine) =
      (c.prepare q).bucket component (some c.engine) := by
  rw [prepare, prepare, Statement.bucket_map, Statement.bucket_map, h]

theorem filter_congr (hvars : p.vars = q.vars)
    (hs : p.bucket .source (some c.engine) = q.bucket .source (some c.engine))
    (hf : p.bucket .filter (some c.engine) = q.bucket .filter (some c.engine)) :
    c.filter p = c.filter q := by
  rw [filter, whereSuffix, wheres_congr (bucket_prepare hs) (bucket_prepare hf), hvars]
  rfl

section Updates

variable {component : Component} {columns : List String} {bound : List Value}
  (h : c.Sets q u component columns bound)

include h

theorem Sets.bucket_eq {other : Component} (hu : other ≠ .update) (ha : other ≠ .assign) :
    u.bucket other (some c.engine) = q.bucket other (some c.engine) := by
  refine h.extends_query.bucket_eq ?_ _
  rcases h.method with ⟨-, rfl⟩ | ⟨-, rfl⟩
  · exact hu
  · exact ha

theorem Sets.filter_eq : c.filter u = c.filter q :=
  filter_congr h.extends_query.vars (h.bucket_eq (by decide) (by decide))
    (h.bucket_eq (by decide) (by decide))

theorem Sets.body_eq : c.body u = (c.updateText [u.vars] component (c.prepare u)).toFragment := by
  unfold body
  rcases h.method with ⟨hm, rfl⟩ | ⟨hm, rfl⟩
  · rw [hm]
  · rw [hm]

theorem Sets.length_eq : columns.length = bound.length := by
  obtain ⟨values, -, hlen, hbound, -⟩ := h.found
  exact hlen.trans hbound.length_eq

theorem Sets.assignments_eq : ∃ values, columns.length = values.length ∧
    List.Forall₂ (Binds [q.vars]) values bound ∧
    c.assignments component (c.prepare u) = .ok (columns, values) := by
  obtain ⟨values, returnId, hlen, hbound, hfound⟩ := h.found
  have hvalues : values ≠ [] := by
    rintro rfl
    exact h.nonempty (List.length_eq_zero_iff.mp hlen)
  have hrow : checkRow component columns values = .ok () := by
    rw [checkRow, if_neg (by simp [h.nonempty, hvalues]), if_neg (not_not.mpr hlen)]
    rfl
  refine ⟨values, hlen, hbound, ?_⟩
  rw [prepare, assignments_map, assignments, hfound]
  show (checkRow component columns values >>= _) = _
  rw [hrow]
  rfl

theorem Sets.updateText_eq
    (ht : c.target .update (c.prepare u) = ⟨table.bindings, .ok table.sql⟩) :
    (c.updateText [u.vars] component (c.prepare u)).toFragment = (c.filter u).map
      (ofText "UPDATE " ++ table ++ ofText " SET " ++
        c.settings (fun _ => "?") columns bound ++ ·) := by
  obtain ⟨values, hlen, hbound, hassignments⟩ := h.assignments_eq
  have hsets := mapM_assignment (c := c) hlen hbound
  rw [← h.extends_query.vars] at hsets
  have hlead : (do
      let table ← c.target .update (c.prepare u)
      let row ← Emit.lift (c.assignments component (c.prepare u))
      let sets ← (row.1.zip row.2).mapM fun p => c.assignment [u.vars] p.1 p.2
      return "UPDATE " ++ table ++ " SET " ++ ", ".intercalate sets : Emit String) =
      ⟨table.bindings ++ [] ++ bound, .ok ("UPDATE " ++ table.sql ++ " SET " ++
        (c.settings (fun _ => "?") columns bound).sql)⟩ := by
    rw [ht, hassignments]
    simp only [Emit.mk_ok_bind, Emit.lift_ok_bind, hsets, Emit.bound_pure, Emit.outcome_pure,
      List.append_nil]
    rfl
  have hled := Emit.toFragment_led hlead id (c.whereSuffix [u.vars] (c.prepare u))
  simp only [bind_assoc, pure_bind, id] at hled
  exact hled

end Updates

theorem Begins.assemble_eq (h : c.Begins q table p start) (hq : q.OnlyFilters r)
    (hr : c.Refers r table) :
    ∃ written : Fragment, written.expand = .ok start ∧
      c.assemble p = (c.filter q).map (written ++ ·) := by
  obtain ⟨written, hwritten, hread, htarget⟩ := hr.exists_written c.rendering
  have hrows (method : Method) :
      (c.prepare { q with method := method }).OnlyFilters (r.map c.rendering) :=
    Statement.OnlyFilters.map hq c.rendering
  have hnone {component : Component} (hs : component ≠ .source) (hf : component ≠ .filter) :
      q.has component (some c.engine) = false :=
    hq.has_eq_false hs hf _
  have hfilter (method : Method) : c.filter { q with method := method } = c.filter q :=
    filter_congr rfl rfl rfl
  have hbody (method : Method) :
      c.assemble { q with method := method } = c.body { q with method := method } :=
    assemble_of_noCte (hnone (by decide) (by decide))
  have hled {text : String} (ht : Unmarked text) :
      (ofText text ++ written).expand = .ok (ofText text ++ table) :=
    expand_append (expand_ofText ht) hwritten
  cases h with
  | select =>
    have hlead : Unmarked (allColumns q.distinct) := by
      cases q.distinct <;> decide
    refine ⟨_, hled hlead, ?_⟩
    rw [hbody, ← hfilter .select]
    exact select_of_onlyFilters (hrows .select) (hread _)
  | delete =>
    refine ⟨_, hled (show Unmarked "DELETE FROM " by decide), ?_⟩
    rw [hbody, ← hfilter .delete]
    exact Emit.toFragment_led (htarget .delete (sourceFor_of_onlyFilters (hrows .delete) _))
      ("DELETE FROM " ++ ·) _
  | @update u component columns bound hset =>
    have hsource : c.sourceFor .update (c.prepare p) = .ok (r.map c.rendering) := by
      rw [sourceFor_congr (bucket_prepare (hset.bucket_eq (by decide) (by decide)))]
      exact sourceFor_of_onlyFilters (hq.map c.rendering) _
    have hcte : p.has .cte (some c.engine) = false := by
      rw [Statement.has_congr (hset.bucket_eq (by decide) (by decide))]
      exact hnone (by decide) (by decide)
    have hsettings := expand_settings (c := c) hset.length_eq hset.unmarked
    refine ⟨_, expand_append (expand_append (hled (show Unmarked "UPDATE " by decide))
      (expand_ofText (show Unmarked " SET " by decide))) hsettings, ?_⟩
    rw [assemble_of_noCte hcte, hset.body_eq, hset.updateText_eq (htarget .update hsource),
      hset.filter_eq]

/-- The conditions of a statement as its filter, behind a word and with the values that they bind.
Where they are blank there is none. -/
inductive Filters (c : Compiler) (q : Query) : Fragment → Prop
  | absent {text : String}
      (h : c.filterText [q.vars] (c.prepare q) = ⟨[], .ok text⟩) (ht : trim text = "") :
      Filters c q (ofText "")
  | conditions {text : String} {bound : List Value} {f : Fragment}
      (h : c.filterText [q.vars] (c.prepare q) = ⟨bound, .ok text⟩) (ht : trim text ≠ "")
      (hf : Fragment.expand ⟨trim text, bound⟩ = .ok f) :
      Filters c q (ofText " WHERE " ++ f)

theorem filter_eq (hq : q.OnlyFilters r) :
    c.filter q = (c.filterText [q.vars] (c.prepare q)).toFragment.map fun f =>
      ⟨if trim f.sql = "" then "" else " WHERE " ++ trim f.sql, f.bindings⟩ := by
  have hsource : (c.prepare q).has .source (some c.engine) = true :=
    (q.has_map c.rendering _ _).trans (hq.has_source _)
  rw [filter, whereSuffix_eq, wheres, hsource, Bool.true_and]
  split
  · have htrailing (text : String) :
        trailing [if text.isEmpty then none else some ("WHERE " ++ text)] =
          if text = "" then "" else " WHERE " ++ text := by
      have hword : " " ++ "WHERE " = " WHERE " := by decide
      by_cases ht : text = ""
      · rw [ht]
        rfl
      · rw [if_neg (by simpa using ht), if_neg ht, trailing_some (by simp), ← String.append_assoc,
          hword]
    simp only [bind_assoc, pure_bind, htrailing]
    exact Emit.toFragment_bind_pure _ _
  · next hnone =>
    rw [filterText, Statement.getAll_of_none (Bool.not_eq_true _ ▸ hnone)]
    rfl

theorem filter_eq_ok (hq : q.OnlyFilters r) : c.filter q = .ok f ↔
    ∃ text, c.filterText [q.vars] (c.prepare q) = ⟨f.bindings, .ok text⟩ ∧
      f.sql = if trim text = "" then "" else " WHERE " ++ trim text := by
  obtain ⟨sql, bindings⟩ := f
  rw [filter_eq hq]
  obtain ⟨bound, outcome⟩ := c.filterText [q.vars] (c.prepare q)
  constructor
  · intro h
    cases outcome with
    | error e => cases h
    | ok text =>
      obtain ⟨hsql, rfl⟩ := Fragment.mk.inj (Except.ok.inj h)
      exact ⟨text, rfl, hsql.symm⟩
  · rintro ⟨text, h, hsql⟩
    cases h
    exact congrArg (fun sql => Except.ok (Fragment.mk sql bindings)) hsql.symm

theorem filters_iff (hq : q.OnlyFilters r) : c.Filters q f ↔
    ∃ written, c.filter q = .ok written ∧ written.expand = .ok f := by
  have hword : (ofText " WHERE ").expand = .ok (ofText " WHERE ") := expand_ofText (by decide)
  constructor
  · rintro (⟨h, ht⟩ | @⟨text, bound, f, h, ht, hf⟩)
    · have hfilter : c.filter q = .ok (ofText "") := by
        refine (filter_eq_ok hq).mpr ⟨_, h, ?_⟩
        rw [if_pos ht]
        rfl
      exact ⟨_, hfilter, expand_ofText (by decide)⟩
    · have hfilter : c.filter q = .ok (ofText " WHERE " ++ ⟨trim text, bound⟩) := by
        refine (filter_eq_ok hq).mpr ⟨_, h, ?_⟩
        rw [if_neg ht]
        rfl
      exact ⟨_, hfilter, expand_append hword hf⟩
  · rintro ⟨⟨sql, bound⟩, hw, he⟩
    obtain ⟨text, h, hsql⟩ := (filter_eq_ok hq).mp hw
    by_cases ht : trim text = ""
    · obtain rfl : sql = "" := hsql.trans (if_pos ht)
      obtain rfl : bound = [] := List.length_eq_zero_iff.mp (marks_of_expand he).symm
      obtain rfl : ofText "" = f := Except.ok.inj ((expand_ofText (by decide)).symm.trans he)
      exact .absent h ht
    · obtain rfl : sql = " WHERE " ++ trim text := hsql.trans (if_neg ht)
      obtain ⟨rest, hrest, rfl⟩ := (expand_append_eq_ok (b := ⟨trim text, bound⟩) hword).mp he
      exact .conditions h ht hrest

section Begun

variable (h : c.Begins q table p start) (hq : q.OnlyFilters r) (hr : c.Refers r table)

include h hq hr

theorem Begins.compiles_iff :
    c.Compiles p f ↔ ∃ suffix, c.Filters q suffix ∧ f = start ++ suffix := by
  obtain ⟨lead, hlead, hassemble⟩ := h.assemble_eq hq hr
  simp only [compiles_iff_compileRaw, compileRaw_eq, hassemble, filters_iff hq]
  cases c.filter q with
  | error e => simp [Except.map, bind, Except.bind]
  | ok written =>
    show (lead ++ written).expand = .ok f ↔ _
    rw [expand_append_eq_ok hlead]
    simp

theorem Begins.compile_eq_error {e : Fault} (he : c.filter q = .error e) :
    c.compile p = .error e := by
  obtain ⟨lead, -, hassemble⟩ := h.assemble_eq hq hr
  rw [Compiler.compile_eq_error, compileRaw_eq, hassemble, he]
  rfl

theorem Begins.of_compile_eq_error {e : Fault} (he : c.compile p = .error e)
    (hne : ∀ markers bindings, e ≠ .markerMismatch markers bindings) : c.filter q = .error e := by
  obtain ⟨lead, -, hassemble⟩ := h.assemble_eq hq hr
  rw [Compiler.compile_eq_error, compileRaw_eq, hassemble] at he
  cases hf : c.filter q with
  | error e' =>
    rw [hf] at he
    exact he
  | ok written =>
    rw [hf] at he
    obtain ⟨markers, bindings, rfl⟩ := expand_eq_error he
    exact absurd rfl (hne markers bindings)

end Begun

/-- A select, a delete and an update of rows that are only filtered end with the same filter, and
bind the same values for it. They fail with its conditions, all in the same way. -/
theorem filters_alike (c : Compiler) (q : Query) (r : Source Subquery) (hq : q.OnlyFilters r)
    (hr : r.Obeys Terms.unmarked fun _ => False) :
    ∃ table, c.Refers r table ∧
      (∀ p start, c.Begins q table p start →
        (∀ f, c.Compiles p f ↔ ∃ suffix, c.Filters q suffix ∧ f = start ++ suffix) ∧
        ∀ e, (c.filterText [q.vars] (c.prepare q)).outcome = .error e → c.compile p = .error e) ∧
      ∀ p start p' start', c.Begins q table p start → c.Begins q table p' start' →
        (∀ suffix, c.Compiles p (start ++ suffix) ↔ c.Compiles p' (start' ++ suffix)) ∧
        ∀ e, (∀ markers bindings, e ≠ .markerMismatch markers bindings) →
          (c.compile p = .error e ↔ c.compile p' = .error e) := by
  obtain ⟨table, htable⟩ := c.exists_refers hr
  refine ⟨table, htable, fun p start h => ⟨fun f => h.compiles_iff hq htable, fun e he => ?_⟩,
    fun p start p' start' h h' => ⟨fun suffix => ?_, fun e hne => ?_⟩⟩
  · refine h.compile_eq_error hq htable ?_
    rw [filter_eq hq, Emit.toFragment_eq_error.mpr he]
    rfl
  · have hcancel (lead : Fragment) :
        (∃ s, c.Filters q s ∧ lead ++ suffix = lead ++ s) ↔ c.Filters q suffix :=
      ⟨fun ⟨s, hs, he⟩ => append_left_cancel he ▸ hs, fun hs => ⟨suffix, hs, rfl⟩⟩
    rw [h.compiles_iff hq htable, h'.compiles_iff hq htable, hcancel, hcancel]
  · constructor
    · exact fun he => h'.compile_eq_error hq htable (h.of_compile_eq_error hq htable he hne)
    · exact fun he => h.compile_eq_error hq htable (h'.of_compile_eq_error hq htable he hne)

def openContracts : Query := Query.build
  [.sourceRaw "{contracts} FOR PORTION OF {valid} FROM ? TO ?" [.int 3, .int 8],
    .define "state" (.string "open"), .equal "state" (.var "state"), .nested [],
    .orThen (.filterRaw "[id] IN (?)" [.array [.int 1, .int 2]])]

theorem filters_alike_contracts :
    ∃ table suffix : Fragment, suffix.sql = " WHERE \"state\" = ? OR \"id\" IN (?,?)" ∧
      (ofEngine .postgres).Compiles { openContracts with method := .delete }
        (ofText "DELETE FROM " ++ table ++ suffix) ∧
      (ofEngine .postgres).Compiles
        (openContracts.assignAll .assign .assign ["state", "note"]
          [.string "closed", .var "state"])
        (ofText "UPDATE " ++ table ++
          ofText " SET " ++ ⟨"\"state\" = ?, \"note\" = ?", [.string "closed", .string "open"]⟩ ++
          suffix) := by
  have hq : openContracts.OnlyFilters
      (.raw "{contracts} FOR PORTION OF {valid} FROM ? TO ?" [.int 3, .int 8] none) :=
    ⟨[], _, rfl, by decide⟩
  have hmarks : marks "{contracts} FOR PORTION OF {valid} FROM ? TO ?" = 2 := by decide
  obtain ⟨table, hr, -, halike⟩ :=
    filters_alike (ofEngine .postgres) openContracts _ hq ⟨hmarks, nofun⟩
  let suffix : Fragment := ⟨" WHERE \"state\" = ? OR \"id\" IN (?,?)",
    [.string "open", .array [.int 1, .int 2]]⟩
  have hselect : (ofEngine .postgres).Compiles { openContracts with method := .select }
      (ofText (allColumns openContracts.distinct) ++ table ++ suffix) := by
    cases hr with
    | raw h =>
      have htable : Fragment.expand ⟨(ofEngine .postgres).engine.wrapIdentifiers
          "{contracts} FOR PORTION OF {valid} FROM ? TO ?", [.int 3, .int 8]⟩ =
          .ok ⟨"\"contracts\" FOR PORTION OF \"valid\" FROM ? TO ?", [.int 3, .int 8]⟩ := rfl
      rw [htable] at h
      cases h
      exact compiles_iff_compileRaw.mpr rfl
  have hsets : (ofEngine .postgres).Sets openContracts
      (openContracts.assignAll .assign .assign ["state", "note"] [.string "closed", .var "state"])
      .assign ["state", "note"] [.string "closed", .string "open"] :=
    sets_assignAll hq rfl (.inr ⟨rfl, rfl⟩) (by decide) rfl (by decide)
      (.cons ⟨nofun, rfl⟩ (.cons ⟨nofun, rfl⟩ .nil))
  have hdelete := ((halike _ _ _ _ .select .delete).1 suffix).mp hselect
  have hupdate := ((halike _ _ _ _ .select (.update hsets)).1 suffix).mp hselect
  refine ⟨table, suffix, rfl, hdelete, ?_⟩
  have hset : (ofEngine .postgres).settings (expandMarker "?" ·) ["state", "note"]
      [.string "closed", .string "open"] =
      ⟨"\"state\" = ?, \"note\" = ?", [.string "closed", .string "open"]⟩ := rfl
  rw [hset] at hupdate
  exact hupdate

end Compiler

end SqlDialects
