import SqlDialects.Proofs.Paging.Selects
import SqlDialects.Proofs.Text.Verbatim

/-!
The order of a page of an old engine. It numbers the rows, right behind the columns, and stands
nowhere else; marks and escapes in its text are taken for those of the statement once more.
-/

namespace SqlDialects

def Window.over (w : Window) (inner : Fragment) : Fragment :=
  ⟨"SELECT * FROM (" ++ inner.sql ++ ") AS [results_wrapper] WHERE " ++ w.range.sql,
    inner.bindings ++ w.range.bindings⟩

theorem Window.over_inj {w : Window} {a b : Fragment} : w.over a = w.over b ↔ a = b := by
  constructor
  · intro h
    obtain ⟨hsql, hbindings⟩ := Fragment.mk.inj h
    have hinner := (String.append_left_inj _).mp ((String.append_left_inj _).mp hsql)
    have hbound := (List.append_left_inj _).mp hbindings
    exact congrArg₂ Fragment.mk ((String.append_right_inj _).mp hinner) hbound
  · exact congrArg w.over

namespace Compiler

variable (c : Compiler) {q : Statement Rendering} {outer : Scopes} {w : Window}

def rowOrder (q : Statement Rendering) : Emit String := do
  let text ← c.orders q
  return text.getD anyOrder

def aroundOrder (ss : Scopes) (q : Statement Rendering) (bound : List Value) :
    Emit (String × List (Option String)) := do
  let columns ← c.basicColumns ss q
  Emit.push bound
  let middle ← c.middle ss q
  let combinations ← c.combinations ss q
  return (columns, middle ++ [combinations])

def numberedRows (ss : Scopes) (q : Statement Rendering) (order : Fragment) : Emit String := do
  let (columns, rest) ← c.aroundOrder ss q order.bindings
  return joinParts
    (some (columns ++ ", " ++ ("ROW_NUMBER() OVER (" ++ order.sql ++ ") AS [row_num]")) :: rest)

variable {c}

theorem joinParts_none (before after : List (Option String)) :
    joinParts (before ++ none :: after) = joinParts (before ++ after) := by
  rw [joinParts, List.filterMap_append, List.filterMap_cons, joinParts, List.filterMap_append]
  rfl

theorem selectText_numberRows {ss : Scopes} {order : Fragment}
    (hl : c.engine = .sqlServer ∧ c.legacyPaging = true)
    (hw : q.window (some c.engine) = .ok w) (ho : w.offset ≠ 0)
    (hagg : q.has .aggregate (some c.engine) = false) (hadds : q.addsFor c.engine = true) :
    c.selectText ss (numberRows (q.starred c.engine) order) =
      c.numberedRows ss q ⟨c.engine.wrapIdentifiers order.sql, order.bindings⟩ := by
  have hcolumns : c.columns ss (numberRows (q.starred c.engine) order) = (do
      let columns ← c.basicColumns ss q
      Emit.push order.bindings
      return columns ++ ", " ++ numberColumn order.sql) :=
    (columns_eq_basic (window_numberRows.trans hw) (.inr (.inr ho))).trans
      (basicColumns_numberRows hl.1 hagg hadds)
  have hcombinations : c.combinations ss (numberRows (q.starred c.engine) order) =
      c.combinations ss q :=
    combinations_congr (q.bucket_numberRows_of_ne _ _ (by decide) (by decide) _)
  rw [selectText_eq, hcolumns, middle_numberRows, orders_numberRows_of_adds hadds,
    page_of_legacy hl, hcombinations]
  unfold numberedRows aroundOrder numberColumn
  simp only [bind_assoc, pure_bind]
  refine congrArg (_ >>= ·) (funext fun columns => congrArg (_ >>= ·) (funext fun _ => ?_))
  refine congrArg (_ >>= ·) (funext fun middle => congrArg (_ >>= ·) (funext fun combos => ?_))
  rw [hl.1, ← List.cons_append, joinParts_none, joinParts_none, List.cons_append]

theorem numberedRows_congr_iff {ss : Scopes} {order rows : Fragment} (sql : String)
    (h : (c.numberedRows ss q order).toFragment = .ok rows) :
    (c.numberedRows ss q ⟨sql, order.bindings⟩).toFragment = .ok rows ↔ sql = order.sql := by
  rw [Emit.toFragment_eq_ok] at h ⊢
  obtain ⟨_, ⟨columns, rest⟩, _, haround, htext, -⟩ := Emit.bind_eq_mk h
  have hrows := Except.ok.inj (congrArg Emit.outcome htext)
  constructor
  · intro h'
    rw [numberedRows, haround, Emit.mk_ok_bind] at h'
    have hsame := (Except.ok.inj (congrArg Emit.outcome h')).trans hrows.symm
    have hne (order : String) : columns ++ ", " ++
        ("ROW_NUMBER() OVER (" ++ order ++ ") AS [row_num]") ≠ "" := by simp
    rw [joinParts_cons (hne _), joinParts_cons (hne _), String.append_left_inj,
      String.append_right_inj, String.append_left_inj, String.append_right_inj] at hsame
    exact hsame
  · rintro rfl
    exact h

/-- An old engine that passes rows over numbers the rows in the order of the statement: its text
stands in the column of the numbers, right behind the other columns and their bindings, and nowhere
else. The text is read once more there for marks of identifiers, so it is the one that the statement
is ordered by just when it is free of what such a reading changes. -/
theorem select_numbers_in_order (c : Compiler) (q : Query) (outer : Scopes) (w : Window)
    (hl : c.engine = .sqlServer ∧ c.legacyPaging = true)
    (hw : q.window (some c.engine) = .ok w) (ho : w.offset ≠ 0)
    (hagg : q.has .aggregate (some c.engine) = false) (hadds : q.addsFor c.engine = true) :
    c.select (c.prepare q) outer = (do
      let order ← (c.rowOrder (c.prepare q)).toFragment
      let rows ← (c.numberedRows (q.vars :: outer) (c.prepare q)
        ⟨c.engine.wrapIdentifiers order.sql, order.bindings⟩).toFragment
      return w.over rows) ∧
    ∀ order rows, (c.rowOrder (c.prepare q)).toFragment = .ok order →
      (c.numberedRows (q.vars :: outer) (c.prepare q) order).toFragment = .ok rows →
      (c.select (c.prepare q) outer = .ok (w.over rows) ↔ c.engine.Verbatim order.sql) := by
  have hw' : (c.prepare q).window (some c.engine) = .ok w := (q.window_map c.rendering _).trans hw
  have hagg' : (c.prepare q).has .aggregate (some c.engine) = false :=
    (q.has_map c.rendering _ _).trans hagg
  have hselect : c.select (c.prepare q) outer = c.numberedSelect (c.prepare q) outer :=
    c.select_of_offset hl (Statement.window_eq_ok hw').2 ho
  have hnumbered : c.select (c.prepare q) outer = (do
      let order ← (c.rowOrder (c.prepare q)).toFragment
      let rows ← (c.numberedRows (q.vars :: outer) (c.prepare q)
        ⟨c.engine.wrapIdentifiers order.sql, order.bindings⟩).toFragment
      return w.over rows) := by
    rw [hselect, numberedSelect_eq hw', rowOrder, Emit.toFragment_bind]
    refine congrArg (_ >>= ·) (funext fun text => ?_)
    rw [basicSelect, Statement.vars_numberRows, selectText_numberRows hl hw' ho hagg' hadds]
    rfl
  refine ⟨hnumbered, fun order rows horder hrows => ?_⟩
  rw [hnumbered, horder, ← c.engine.wrapIdentifiers_eq_self_iff,
    ← numberedRows_congr_iff _ hrows]
  show (_ >>= fun rows => Except.ok (w.over rows)) = _ ↔ _
  constructor
  · intro h
    obtain ⟨rows', hrows', h⟩ := bind_eq_ok h
    rw [hrows', Window.over_inj.mp (Except.ok.inj h)]
  · intro h
    rw [h]
    rfl

def ordersByTotal : Query := ((Query.table "orders").orderBy ["o.total"] false).offset 10

theorem select_numbers_in_order_ordersByTotal :
    let c := ofEngine .sqlServer
    let q := c.prepare ordersByTotal
    ordersByTotal.window (some c.engine) = .ok ⟨0, 10⟩ ∧
    ∃ order rows : Fragment,
      (c.rowOrder q).toFragment = .ok order ∧ order.sql = "ORDER BY [o].[total] DESC" ∧
      (c.numberedRows [ordersByTotal.vars] q order).toFragment = .ok rows ∧
      rows.sql =
        "SELECT *, ROW_NUMBER() OVER (ORDER BY [o].[total] DESC) AS [row_num] FROM [orders]" ∧
      c.select q [] = .ok ((Window.mk 0 10).over rows) := by
  intro c q
  let order : Fragment := ⟨"ORDER BY [o].[total] DESC", []⟩
  let rows : Fragment :=
    ⟨"SELECT *, ROW_NUMBER() OVER (ORDER BY [o].[total] DESC) AS [row_num] FROM [orders]", []⟩
  have hwindow : ordersByTotal.window (some c.engine) = .ok ⟨0, 10⟩ := by rfl
  have horder : (c.rowOrder q).toFragment = .ok order := by rfl
  have hrows : (c.numberedRows [ordersByTotal.vars] q order).toFragment = .ok rows := by rfl
  have hverbatim : c.engine.Verbatim order.sql := by decide +kernel
  obtain ⟨-, hkept⟩ := select_numbers_in_order c ordersByTotal [] ⟨0, 10⟩ (by decide) hwindow
    (by decide) (by decide) (by decide)
  have hselect := (hkept order rows horder hrows).mpr hverbatim
  exact ⟨hwindow, order, rows, horder, rfl, hrows, rfl, hselect⟩

def bracedOrder : Query := ((Query.table "t").orderBy ["a{b}"] true).offset 10

/-- Braces in the name of a column do not come through. -/
theorem bracedOrder_not_kept :
    let c := ofEngine .sqlServer
    let q := c.prepare bracedOrder
    ∃ order rows : Fragment,
      (c.rowOrder q).toFragment = .ok order ∧ order.sql = "ORDER BY [a{b}]" ∧
      (c.numberedRows [bracedOrder.vars] q order).toFragment = .ok rows ∧
      rows.sql = "SELECT *, ROW_NUMBER() OVER (ORDER BY [a{b}]) AS [row_num] FROM [t]" ∧
      c.select q [] ≠ .ok ((Window.mk 0 10).over rows) := by
  intro c q
  have horder : (c.rowOrder q).toFragment = .ok ⟨"ORDER BY [a{b}]", []⟩ := by rfl
  have hrows : (c.numberedRows [bracedOrder.vars] q ⟨"ORDER BY [a{b}]", []⟩).toFragment =
      .ok ⟨"SELECT *, ROW_NUMBER() OVER (ORDER BY [a{b}]) AS [row_num] FROM [t]", []⟩ := by rfl
  have hselect : (c.select q []).toOption.map (·.sql) =
      some ("SELECT * FROM (SELECT *, ROW_NUMBER() OVER (ORDER BY [a[b]]) AS [row_num] " ++
        "FROM [t]) AS [results_wrapper] WHERE [row_num] >= ?") := by
    decide +kernel
  refine ⟨_, _, horder, rfl, hrows, rfl, fun h => ?_⟩
  rw [h] at hselect
  exact absurd (Option.some.inj hselect) (by decide +kernel)

end Compiler

end SqlDialects
