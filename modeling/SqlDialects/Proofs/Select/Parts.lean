import SqlDialects.Proofs.Reading.Selects
import SqlDialects.Proofs.Statement.Lookup

/-!
The parts of a select. Each part is rendered from one bucket, or from two, of the clauses that the
engine sees; the parts between the columns and the order are put together here as its middle.
-/

namespace SqlDialects

namespace Statement

variable {σ α : Type} {p q : Statement σ} {component : Component} {engine : Option Engine}

theorem has_congr (h : p.bucket component engine = q.bucket component engine) :
    p.has component engine = q.has component engine := by
  rw [Bool.eq_iff_iff, has_eq_true_iff, has_eq_true_iff, h]

theorem getAll_of_none (h : q.has component engine = false) (as? : ClauseKind σ → Option α) :
    q.getAll component as? engine = .ok [] := by
  rw [getAll, bucket_eq_nil h]
  rfl

theorem getOne_of_none (h : q.has component engine = false) (as? : ClauseKind σ → Option α) :
    q.getOne component as? engine = .ok none := by
  rw [getOne, bucket_eq_nil h]
  rfl

theorem getOne_ne_none (h : q.has component engine = true) (as? : ClauseKind σ → Option α) :
    q.getOne component as? engine ≠ .ok none := by
  have hne := (q.has_eq_true_iff component engine).mp h
  intro hnone
  unfold getOne at hnone
  split at hnone
  · next x _ => cases hx : x.view component as? <;> simp [hx, Except.map] at hnone
  · next hchoose =>
    simp only [choose, Option.or_eq_none_iff, List.head?_eq_none_iff] at hchoose
    exact hne hchoose.2.2

theorem getAll_congr (h : p.bucket component engine = q.bucket component engine)
    (as? : ClauseKind σ → Option α) :
    p.getAll component as? engine = q.getAll component as? engine := by
  rw [getAll, h, getAll]

theorem getOne_congr (h : p.bucket component engine = q.bucket component engine)
    (as? : ClauseKind σ → Option α) :
    p.getOne component as? engine = q.getOne component as? engine := by
  rw [getOne, h, getOne]

theorem window_congr (hl : p.bucket .limit engine = q.bucket .limit engine)
    (ho : p.bucket .offset engine = q.bucket .offset engine) :
    p.window engine = q.window engine := by
  rw [window, window, limitFor, offsetFor, getOne_congr hl, getOne_congr ho, limitFor, offsetFor]

theorem window_eq_ok {w : Window} (h : q.window engine = .ok w) :
    q.limitFor engine = .ok w.limit ∧ q.offsetFor engine = .ok w.offset := by
  unfold window at h
  cases hl : q.limitFor engine with
  | error e => rw [hl] at h; cases h
  | ok limit =>
    cases ho : q.offsetFor engine with
    | error e => rw [hl, ho] at h; cases h
    | ok offset =>
      rw [hl, ho] at h
      cases h
      exact ⟨rfl, rfl⟩

end Statement

namespace Compiler

variable (c : Compiler) {ss : Scopes} {p q : Statement Rendering}

theorem select_of_noOffset {outer : Scopes} (h : q.offsetFor (some c.engine) = .ok 0) :
    c.select q outer = c.basicSelect q outer := by
  rw [select, h]
  split <;> rfl

theorem select_of_offset {outer : Scopes} {offset : UInt64}
    (hl : c.engine = .sqlServer ∧ c.legacyPaging = true)
    (h : q.offsetFor (some c.engine) = .ok offset) (hne : offset ≠ 0) :
    c.select q outer = c.numberedSelect q outer := by
  rw [select, if_pos hl, h]
  exact if_neg hne

def middle (ss : Scopes) (q : Statement Rendering) : Emit (List (Option String)) := do
  let table ← c.table ss q
  let joins ← c.joins ss q
  let wheres ← c.wheres ss q
  let groups ← c.groups ss q
  let having ← c.having ss q
  return [some table, joins, wheres, groups, having]

theorem selectText_eq (ss : Scopes) (q : Statement Rendering) :
    c.selectText ss q = (do
      let columns ← c.columns ss q
      let middle ← c.middle ss q
      let orders ← c.orders q
      let page ← c.page q
      let combinations ← c.combinations ss q
      return joinParts (some columns :: (middle ++ [orders, page, combinations]))) := by
  simp only [selectText, middle, bind_assoc, pure_bind]
  rfl

def middleBuckets : List Component := [.source, .join, .filter, .group, .having]

variable {c}

theorem filterText_congr (h : p.bucket .filter (some c.engine) = q.bucket .filter (some c.engine)) :
    c.filterText ss p = c.filterText ss q := by
  rw [filterText, Statement.getAll_congr h, filterText]

theorem sourceFor_congr (h : p.bucket .source (some c.engine) = q.bucket .source (some c.engine))
    (operation : Operation) : c.sourceFor operation p = c.sourceFor operation q := by
  rw [sourceFor, Statement.getOne_congr h, sourceFor]

theorem wheres_congr (hs : p.bucket .source (some c.engine) = q.bucket .source (some c.engine))
    (hf : p.bucket .filter (some c.engine) = q.bucket .filter (some c.engine)) :
    c.wheres ss p = c.wheres ss q := by
  rw [wheres, Statement.has_congr hs, Statement.has_congr hf, filterText_congr hf, wheres]

theorem table_congr (h : p.bucket .source (some c.engine) = q.bucket .source (some c.engine)) :
    c.table ss p = c.table ss q := by
  rw [table, sourceFor_congr h, table]

theorem joins_congr (h : p.bucket .join (some c.engine) = q.bucket .join (some c.engine)) :
    c.joins ss p = c.joins ss q := by
  rw [joins, Statement.getAll_congr h, joins]

theorem having_congr (h : p.bucket .having (some c.engine) = q.bucket .having (some c.engine)) :
    c.having ss p = c.having ss q := by
  rw [having, Statement.getAll_congr h, having]

theorem middle_congr (h : ∀ component ∈ middleBuckets,
    p.bucket component (some c.engine) = q.bucket component (some c.engine)) :
    c.middle ss p = c.middle ss q := by
  have hsource := h .source (by decide)
  have hgroups : c.groups ss p = c.groups ss q := by
    rw [groups, Statement.getAll_congr (h .group (by decide)), groups]
  rw [middle, table_congr hsource, joins_congr (h .join (by decide)),
    wheres_congr hsource (h .filter (by decide)), hgroups, having_congr (h .having (by decide)),
    middle]

theorem orders_congr (h : p.bucket .order (some c.engine) = q.bucket .order (some c.engine)) :
    c.orders p = c.orders q := by
  rw [orders, Statement.getAll_congr h, orders]

theorem combinations_congr
    (h : p.bucket .combine (some c.engine) = q.bucket .combine (some c.engine)) :
    c.combinations ss p = c.combinations ss q := by
  rw [combinations, Statement.getAll_congr h, combinations]

theorem basicColumns_congr (hd : p.distinct = q.distinct)
    (ha : p.bucket .aggregate (some c.engine) = q.bucket .aggregate (some c.engine))
    (hs : p.bucket .select (some c.engine) = q.bucket .select (some c.engine)) :
    c.basicColumns ss p = c.basicColumns ss q := by
  rw [basicColumns, Statement.getOne_congr ha, Statement.getAll_congr hs, hd, basicColumns]

theorem combinations_of_none (h : q.has .combine (some c.engine) = false) :
    c.combinations ss q = pure none := by
  rw [combinations, Statement.getAll_of_none h]
  rfl

theorem basicColumns_of_noAggregate (h : q.has .aggregate (some c.engine) = false) :
    c.basicColumns ss q = (do
      let columns ← Emit.lift (q.getAll .select ClauseKind.column? (some c.engine))
      let texts ← columns.mapM (c.column ss)
      return "SELECT " ++ (if q.distinct then "DISTINCT " else "") ++
        (if texts.isEmpty then "*" else ", ".intercalate texts)) := by
  rw [basicColumns, Statement.getOne_of_none h]
  exact Emit.pure_bind none _

section Texts

def trailing (parts : List (Option String)) : String :=
  String.join ((parts.filterMap fun part => part.filter (!·.isEmpty)).map (" " ++ ·))

theorem trailing_append (xs ys : List (Option String)) :
    trailing (xs ++ ys) = trailing xs ++ trailing ys := by
  rw [trailing, List.filterMap_append, List.map_append, String.join_append, trailing, trailing]

@[simp] theorem trailing_none : trailing [none] = "" := rfl

theorem filterMap_cons_text {text : String} (h : text ≠ "") (parts : List (Option String)) :
    (some text :: parts).filterMap (fun part => part.filter (!·.isEmpty)) =
      text :: parts.filterMap fun part => part.filter (!·.isEmpty) :=
  List.filterMap_cons_some (by simp [h])

theorem trailing_some {text : String} (h : text ≠ "") : trailing [some text] = " " ++ text := by
  rw [trailing, filterMap_cons_text h]
  rfl

theorem joinParts_cons {text : String} (h : text ≠ "") (parts : List (Option String)) :
    joinParts (some text :: parts) = text ++ trailing parts := by
  rw [joinParts, filterMap_cons_text h, trailing]
  generalize parts.filterMap (fun part => part.filter (!·.isEmpty)) = texts
  clear h
  induction texts generalizing text with
  | nil => simp
  | cons next texts ih =>
    rw [String.intercalate_cons_cons, ih, List.map_cons, String.join_cons]
    simp only [String.append_assoc]

end Texts

theorem ne_empty_of_isSelect {sql : String} (h : Reading.IsSelect sql) : sql ≠ "" := by
  rintro rfl
  exact absurd (List.prefix_nil.mp h) (by decide)

theorem exists_pieces {f : Fragment} (h : (c.selectText ss q).toFragment = .ok f) :
    ∃ columns middle order page combinations,
      (c.columns ss q).outcome = .ok columns ∧ (c.middle ss q).outcome = .ok middle ∧
      (c.orders q).outcome = .ok order ∧ (c.page q).outcome = .ok page ∧
      (c.combinations ss q).outcome = .ok combinations ∧
      f.sql = columns ++ trailing (middle ++ [order, page, combinations]) ∧
      f.bindings = (c.columns ss q).bound ++ ((c.middle ss q).bound ++ ((c.orders q).bound ++
        ((c.page q).bound ++ (c.combinations ss q).bound))) := by
  rw [Emit.toFragment_eq_ok, c.selectText_eq] at h
  obtain ⟨_, columns, _, hcolumns, hafter, hbound⟩ := Emit.bind_eq_mk h
  obtain ⟨_, middle, _, hmiddle, hrest, rfl⟩ := Emit.bind_eq_mk hafter
  obtain ⟨_, order, _, horder, hlast, rfl⟩ := Emit.bind_eq_mk hrest
  obtain ⟨_, page, _, hpage, hend, rfl⟩ := Emit.bind_eq_mk hlast
  obtain ⟨_, combinations, last, hcombinations, htext, rfl⟩ := Emit.bind_eq_mk hend
  have hnil : [] = last := congrArg Emit.bound htext
  have hsql := Except.ok.inj (congrArg Emit.outcome htext)
  have hne := ne_empty_of_isSelect (isSelect_columns (congrArg Emit.outcome hcolumns))
  rw [joinParts_cons hne] at hsql
  refine ⟨columns, middle, order, page, combinations, congrArg Emit.outcome hcolumns,
    congrArg Emit.outcome hmiddle, congrArg Emit.outcome horder, congrArg Emit.outcome hpage,
    congrArg Emit.outcome hcombinations, hsql.symm, ?_⟩
  rw [hbound, hcolumns, hmiddle, horder, hpage, hcombinations, ← hnil, List.append_nil]

variable (c ss q) in
/-- The parts of a select without set operations, each rendered with success. -/
structure Parts where
  columns : Fragment
  middle : List (Option String)
  middleBound : List Value
  order : Option String
  orderBound : List Value
  page : Option String
  pageBound : List Value
  columns_eq : c.columns ss q = ⟨columns.bindings, .ok columns.sql⟩
  middle_eq : c.middle ss q = ⟨middleBound, .ok middle⟩
  order_eq : c.orders q = ⟨orderBound, .ok order⟩
  page_eq : c.page q = ⟨pageBound, .ok page⟩

def Parts.rest (p : Parts c ss q) : Fragment :=
  ⟨trailing (p.middle ++ [p.order]), p.middleBound ++ p.orderBound⟩

def Parts.whole (p : Parts c ss q) : Fragment :=
  ⟨p.columns.sql ++ p.rest.sql ++ trailing [p.page],
    p.columns.bindings ++ p.rest.bindings ++ p.pageBound⟩

theorem Parts.selectText_eq (p : Parts c ss q) (hc : q.has .combine (some c.engine) = false) :
    c.selectText ss q = ⟨p.whole.bindings, .ok p.whole.sql⟩ := by
  have hne := ne_empty_of_isSelect (isSelect_columns (congrArg Emit.outcome p.columns_eq))
  have hparts : p.middle ++ [p.order, p.page, none] =
      p.middle ++ [p.order] ++ [p.page] ++ [none] := by simp
  rw [c.selectText_eq, p.columns_eq, p.middle_eq, p.order_eq, p.page_eq, combinations_of_none hc]
  simp only [Emit.mk_ok_bind, pure_bind, Emit.bound_pure, Emit.outcome_pure, List.append_nil]
  rw [joinParts_cons hne, hparts, trailing_append, trailing_append, trailing_none,
    String.append_empty, ← String.append_assoc]
  refine Emit.ext ?_ rfl
  simp [whole, rest]

end Compiler

end SqlDialects
