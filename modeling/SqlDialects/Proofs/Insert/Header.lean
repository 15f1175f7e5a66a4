import SqlDialects.Proofs.Cte.Prologue
import SqlDialects.Proofs.Placeholder.Expand
import SqlDialects.Proofs.Statement.Building

/-!
Inserts as they are written. The first clause alone makes the header, and each further one is
checked against its own columns and written as one more group of values.
-/

namespace SqlDialects

open Text Fragment

def Fragment.joined (separator : String) (fs : List Fragment) : Fragment :=
  ⟨separator.intercalate (fs.map (·.sql)), fs.flatMap (·.bindings)⟩

theorem intercalate_append_cons (separator a b : String) (texts : List String) :
    separator.intercalate ((a ++ b) :: texts) = a ++ separator.intercalate (b :: texts) := by
  cases texts with
  | nil => simp
  | cons text texts => simp [String.intercalate_cons_cons, String.append_assoc]

namespace Insert

variable {σ : Type}

def columns : Insert σ → List String
  | values columns _ _ => columns
  | query columns _ => columns

/-- Rows of values are all for the columns of the first one, and rows from a query are the only
ones. -/
def Uniform : List (Insert σ) → Prop
  | [] => False
  | values columns _ _ :: rest => ∀ i ∈ rest, i.columns = columns
  | query _ _ :: rest => rest = []

end Insert

/-- The rows of an insert as they are written: the columns of the header, the select that rows come
from unless the first ones are values, and the groups of values. -/
structure WrittenRows where
  header : List String
  select : Option Fragment
  groups : List (List Fragment)

namespace WrittenRows

/-- Each group of values has one for each column of the header, which goes into the column that the
group's own clause has it for; behind a select there is no group. -/
def Fit {σ : Type} (w : WrittenRows) (is : List (Insert σ)) : Prop :=
  match w.select with
  | none => List.Forall₂ (fun i cells => cells.length = w.header.length ∧
      w.header.zip cells = i.columns.zip cells) is w.groups
  | some _ => is.length = 1 ∧ w.groups = []

end WrittenRows

namespace Compiler

def group (cells : List Fragment) : Fragment := ofText "(" ++ joined ", " cells ++ ofText ")"

def rowsText (c : Compiler) (w : WrittenRows) : Fragment :=
  let header := " (" ++ c.columnList w.header ++ ")"
  match w.select with
  | none => ofText (header ++ " VALUES ") ++ joined ", " (w.groups.map group)
  | some sub => ofText ((if w.header.isEmpty then "" else header) ++ " ") ++
      joined ", " (sub :: w.groups.map group)

section Rows

variable {σ : Type} {c : Compiler} {f : σ → Rendering} {ss : Scopes}

inductive WritesGroup (c : Compiler) (ss : Scopes) : Insert σ → List Fragment → Prop
  | mk {columns : List String} {values : List Value} {returnId : Bool} {cells : List Fragment}
      (hne : columns ≠ []) (hlen : columns.length = values.length)
      (hcells : List.Forall₂ (fun v cell => (c.parameter ss v).toFragment = .ok cell)
      values cells) :
      WritesGroup c ss (.values columns values returnId) cells

inductive WritesRows (c : Compiler) (f : σ → Rendering) (ss : Scopes) :
    List (Insert σ) → WrittenRows → Prop
  | values {columns : List String} {values : List Value} {returnId : Bool}
      {rest : List (Insert σ)} {cells : List Fragment} {groups : List (List Fragment)}
      (hfirst : c.WritesGroup ss (.values columns values returnId : Insert σ) cells)
      (hrest : List.Forall₂ (c.WritesGroup ss) rest groups) :
      WritesRows c f ss (.values columns values returnId :: rest) ⟨columns, none, cells :: groups⟩
  | query {columns : List String} {n : σ} {sub : Fragment}
      {rest : List (Insert σ)} {groups : List (List Fragment)}
      (hsub : (f n).select ss = .ok sub) (hrest : List.Forall₂ (c.WritesGroup ss) rest groups) :
      WritesRows c f ss (.query columns n :: rest) ⟨columns, some sub, groups⟩

theorem WritesGroup.length_eq {i : Insert σ} {cells : List Fragment}
    (h : c.WritesGroup ss i cells) : cells.length = i.columns.length := by
  cases h with
  | mk _ hlen hcells => exact hcells.length_eq.symm.trans hlen.symm

theorem of_checkRow {component : Component} {columns : List String} {values : List Value}
    {u : Unit} (h : checkRow component columns values = .ok u) :
    columns ≠ [] ∧ columns.length = values.length := by
  unfold checkRow at h
  split at h
  · cases h
  · next hempty =>
    split at h
    · cases h
    · next hlen =>
      refine ⟨?_, not_not.mp hlen⟩
      rintro rfl
      exact hempty rfl

theorem row_eq_mk {columns : List String} {values : List Value} {bound : List Value} {text : String}
    (h : c.row ss columns values = ⟨bound, .ok text⟩) (returnId : Bool) :
    ∃ cells, c.WritesGroup ss (.values columns values returnId : Insert σ) cells ∧
      text = (group cells).sql ∧ bound = (group cells).bindings := by
  obtain ⟨_, ⟨⟩, _, hcheck, hvalues, rfl⟩ := Emit.bind_eq_mk h
  obtain ⟨_, _, _, hmarkers, hpure, rfl⟩ := Emit.bind_eq_mk hvalues
  cases hpure
  obtain ⟨_, _, _, htexts, hpure, rfl⟩ := Emit.bind_eq_mk hmarkers
  cases hpure
  obtain ⟨cells, hcells, rfl, rfl⟩ := Emit.mapM_eq_mk htexts
  obtain ⟨rfl, hok⟩ := Emit.mk.inj hcheck
  obtain ⟨hne, hlen⟩ := of_checkRow hok
  exact ⟨cells, .mk hne hlen hcells, rfl, by simp [group, joined, ofText]⟩

theorem nextRow_eq_mk {i : Insert σ} {bound : List Value} {text : String}
    (h : c.nextRow ss (i.map f) = ⟨bound, .ok text⟩) :
    ∃ cells, c.WritesGroup ss i cells ∧ text = (group cells).sql ∧
      bound = (group cells).bindings := by
  cases i with
  | values columns values returnId => exact row_eq_mk h returnId
  | query columns n => cases h

theorem mapM_nextRow_eq_mk {is : List (Insert σ)} {bound : List Value} {texts : List String}
    (h : (is.map (Insert.map f)).mapM (c.nextRow ss) = ⟨bound, .ok texts⟩) :
    ∃ groups, List.Forall₂ (c.WritesGroup ss) is groups ∧
      texts = groups.map (fun cells => (group cells).sql) ∧
      bound = groups.flatMap (fun cells => (group cells).bindings) := by
  obtain ⟨fs, hfs, rfl, rfl⟩ := Emit.mapM_eq_mk h
  clear h
  rw [List.forall₂_map_left_iff] at hfs
  induction hfs with
  | nil => exact ⟨[], .nil, rfl, rfl⟩
  | cons hi _ ih =>
    obtain ⟨cells, hcells, hsql, hbindings⟩ := nextRow_eq_mk (Emit.toFragment_eq_ok.mp hi)
    obtain ⟨groups, hgroups, hsqls, hall⟩ := ih
    refine ⟨cells :: groups, .cons hcells hgroups, ?_, ?_⟩
    · rw [List.map_cons, List.map_cons, hsql, hsqls]
    · rw [List.flatMap_cons, List.flatMap_cons, hbindings, hall]

theorem firstRows_eq_mk {table : String} {first : Insert σ} {rest : List (Insert σ)}
    {groups : List (List Fragment)} {bound : List Value} {head : String}
    (h : c.firstRows ss table (first.map f) = ⟨bound, .ok head⟩)
    (hrest : List.Forall₂ (c.WritesGroup ss) rest groups) :
    ∃ w, c.WritesRows f ss (first :: rest) w ∧
      ", ".intercalate (head :: groups.map fun cells => (group cells).sql) =
        "INSERT INTO " ++ table ++ (c.rowsText w).sql ∧
      bound ++ groups.flatMap (fun cells => (group cells).bindings) = (c.rowsText w).bindings := by
  cases first with
  | values columns values returnId =>
    obtain ⟨_, _, _, hrow, hpure, rfl⟩ := Emit.bind_eq_mk h
    cases hpure
    obtain ⟨cells, hcells, rfl, rfl⟩ := row_eq_mk hrow returnId
    refine ⟨_, .values hcells hrest, ?_, ?_⟩
    · rw [intercalate_append_cons]
      simp [rowsText, joined, ofText, String.append_assoc, Function.comp_def]
    · simp [rowsText, joined, ofText, List.flatMap_map]
  | query columns n =>
    obtain ⟨_, _, _, hembed, hpure, rfl⟩ := Emit.bind_eq_mk h
    cases hpure
    cases hsub : (f n).select ss with
    | error e =>
      rw [hsub] at hembed
      cases hembed
    | ok sub =>
      rw [hsub] at hembed
      cases hembed
      refine ⟨_, .query hsub hrest, ?_, ?_⟩
      · rw [intercalate_append_cons]
        simp [rowsText, joined, ofText, String.append_assoc, Function.comp_def]
      · simp [rowsText, joined, ofText, List.flatMap_map]

variable (c) in
def closing (first : Insert σ) : String :=
  if wantsId first && !c.dialect.lastId.isEmpty then ";" ++ c.dialect.lastId else ""

theorem insertText_eq_mk {p : Statement σ} {bound : List Value} {text : String}
    (h : c.insertText ss (p.map f) = ⟨bound, .ok text⟩) :
    ∃ table first rest w, (c.target .insert (p.map f)).toFragment = .ok table ∧
      p.getAll .insert ClauseKind.insert? (some c.engine) = .ok (first :: rest) ∧
      c.WritesRows f ss (first :: rest) w ∧
      (⟨text, bound⟩ : Fragment) = ofText "INSERT INTO " ++ table ++ c.rowsText w ++
        ofText (c.closing first) := by
  obtain ⟨bt, table, _, htable, hclauses, rfl⟩ := Emit.bind_eq_mk h
  obtain ⟨_, clauses, _, hlift, hrows, rfl⟩ := Emit.bind_eq_mk hclauses
  obtain ⟨rfl, hread⟩ := Emit.mk.inj hlift
  rw [p.getAll_map _ _ (ClauseKind.insert?_map f)] at hread
  obtain ⟨is, his, rfl⟩ := map_eq_ok hread
  cases is with
  | nil => cases hrows
  | cons first rest =>
    obtain ⟨_, head, _, hhead, hnext, rfl⟩ := Emit.bind_eq_mk hrows
    obtain ⟨_, _, _, htexts, hpure, rfl⟩ := Emit.bind_eq_mk hnext
    obtain ⟨groups, hgroups, rfl, rfl⟩ := mapM_nextRow_eq_mk htexts
    obtain ⟨w, hw, hsql, hbindings⟩ := firstRows_eq_mk hhead hgroups
    obtain ⟨rfl, htext⟩ := Emit.mk.inj hpure
    cases htext
    refine ⟨⟨table, bt⟩, first, rest, w, Emit.toFragment_eq_ok.mpr htable, his, hw, ?_⟩
    refine congrArg₂ Fragment.mk ?_ ?_
    · rw [hsql, wantsId_map]
      simp only [closing, sql_append, ofText]
      split <;> simp [String.append_assoc]
    · simp [← hbindings, ofText]

theorem WritesGroup.fits_iff {i : Insert σ} {cells : List Fragment}
    (h : c.WritesGroup ss i cells) (header : List String) :
    (cells.length = header.length ∧ header.zip cells = i.columns.zip cells) ↔
      i.columns = header := by
  constructor
  · rintro ⟨hlen, hzip⟩
    have hfst := congrArg (List.map Prod.fst) hzip
    rw [List.map_fst_zip (Nat.le_of_eq hlen.symm),
      List.map_fst_zip (Nat.le_of_eq h.length_eq.symm)] at hfst
    exact hfst.symm
  · rintro rfl
    exact ⟨h.length_eq, rfl⟩

theorem groups_fit_iff {is : List (Insert σ)} {groups : List (List Fragment)}
    (h : List.Forall₂ (c.WritesGroup ss) is groups) (header : List String) :
    List.Forall₂ (fun i cells => cells.length = header.length ∧
      header.zip cells = i.columns.zip cells) is groups ↔ ∀ i ∈ is, i.columns = header := by
  induction h with
  | nil => simp
  | cons hi _ ih => rw [List.forall₂_cons, List.forall_mem_cons, hi.fits_iff, ih]

theorem WritesRows.fit_iff {is : List (Insert σ)} {w : WrittenRows} (h : c.WritesRows f ss is w) :
    w.Fit is ↔ Insert.Uniform is := by
  cases h with
  | @query columns n sub rest groups hsub hrest =>
    have hnil : groups = [] ↔ rest = [] := by
      rw [← List.length_eq_zero_iff, ← hrest.length_eq, List.length_eq_zero_iff]
    show (rest.length + 1 = 1 ∧ groups = []) ↔ rest = []
    rw [hnil, Nat.add_eq_right, List.length_eq_zero_iff, and_self]
  | @values columns values returnId rest cells groups hfirst hrest =>
    show List.Forall₂ _ _ _ ↔ ∀ i ∈ rest, i.columns = columns
    rw [groups_fit_iff (.cons hfirst hrest), List.forall_mem_cons]
    exact and_iff_right rfl

end Rows

theorem assemble_eq_front {c : Compiler} {q : Query} {f : Fragment} (h : c.assemble q = .ok f) :
    ∃ front text, c.body q = .ok text ∧ f = front ++ text := by
  obtain ⟨front, text, -, htext, rfl⟩ := assemble_eq_ok.mp h
  exact ⟨front, text, htext, rfl⟩

/-- An insert that compiles has the columns of its first clause behind the table, and then the rows
of that clause and, for each further one, a group of its values, as many as it names columns itself.
Each value is in the column that its clause has it for just when all clauses name the same columns;
rows from a query fit just when they are alone. -/
theorem compile_insert_fits_iff {c : Compiler} {q : Query} {r : Compiled} (hm : q.method = .insert)
    (h : c.compile q = .ok r) :
    ∃ first rest front table w whole,
      q.getAll .insert ClauseKind.insert? (some c.engine) = .ok (first :: rest) ∧
      (c.target .insert (c.prepare q)).toFragment = .ok table ∧
      c.WritesRows c.rendering [q.vars] (first :: rest) w ∧
      whole = front ++
        (ofText "INSERT INTO " ++ table ++ c.rowsText w ++ ofText (c.closing first)) ∧
      c.assemble q = .ok whole ∧ whole.expand = .ok ⟨r.rawSql, r.bindings⟩ ∧
      ((∀ v ∈ r.bindings, ∀ items, v ≠ .array items) → r.rawSql = whole.sql) ∧
      (w.Fit (first :: rest) ↔ Insert.Uniform (first :: rest)) := by
  obtain ⟨whole, hwhole, hexpand, hplain⟩ := exists_assembled h
  obtain ⟨front, text, htext, rfl⟩ := assemble_eq_front hwhole
  unfold body at htext
  rw [hm] at htext
  obtain ⟨table, first, rest, w, htable, his, hw, heq⟩ :=
    insertText_eq_mk (Emit.toFragment_eq_ok.mp htext)
  exact ⟨first, rest, front, table, w, _, his, htable, hw, congrArg (front ++ ·) heq, hwhole,
    hexpand, hplain, hw.fit_iff⟩

def insertOf (rows : List (Insert Subquery)) : Query where
  method := .insert
  clauses := ⟨.source, none, .source (.table "stock")⟩ ::
    rows.map fun row => ⟨.insert, none, .insert row⟩

def delivery : List (Insert Subquery) := [
  .values ["item", "since"] [.string "nut", .null] true,
  .values ["item", "since"] [.string "bolt", .raw "now()"] false]

theorem compile_insert_fits_iff_delivery :
    (insertOf delivery).method = .insert ∧
    ∃ r w, (ofEngine .mySql).compile (insertOf delivery) = .ok r ∧
      r.rawSql = "INSERT INTO `stock` (`item`, `since`) VALUES (?, ?), (?, now());" ++
        "SELECT last_insert_id() as Id" ∧
      (ofEngine .mySql).WritesRows (ofEngine .mySql).rendering [[]] delivery w ∧
      w.Fit delivery := by
  have hsql : ((ofEngine .mySql).compile (insertOf delivery)).toOption.map (·.rawSql) =
      some ("INSERT INTO `stock` (`item`, `since`) VALUES (?, ?), (?, now());" ++
        "SELECT last_insert_id() as Id") := by decide +kernel
  obtain ⟨r, hr, hsql⟩ := exists_compiled hsql
  obtain ⟨first, rest, _, _, w, _, his, -, hw, -, -, -, -, hfit⟩ := compile_insert_fits_iff rfl hr
  have hrows : delivery = first :: rest := Except.ok.inj his
  rw [← hrows] at hw hfit
  refine ⟨rfl, r, w, hr, hsql, hw, hfit.mpr ?_⟩
  intro i hi
  rw [List.mem_singleton.mp hi]
  rfl

def swappedRows : List (Insert Subquery) := [
  .values ["item", "count"] [.string "nut", .int 8] false,
  .values ["count", "item"] [.int 9, .string "bolt"] false]

def shortRows : List (Insert Subquery) := [
  .values ["item", "count"] [.string "nut", .int 8] false,
  .values ["item"] [.string "bolt"] false]

def rowsBehindQuery : List (Insert Subquery) := [
  .query ["item"] (.of { clauses := [⟨.source, none, .source (.table "orders")⟩] }),
  .values ["item"] [.string "bolt"] false]

/-- Rows of other columns are written all the same: a number goes where the text belongs, a group is
too short, and a group stands behind a select. -/
theorem other_columns_do_not_fit :
    (∃ r, (ofEngine .generic).compile (insertOf swappedRows) = .ok r ∧
      r.rawSql = "INSERT INTO \"stock\" (\"item\", \"count\") VALUES (?, ?), (?, ?)") ∧
    (∃ r, (ofEngine .generic).compile (insertOf shortRows) = .ok r ∧
      r.rawSql = "INSERT INTO \"stock\" (\"item\", \"count\") VALUES (?, ?), (?)") ∧
    (∃ r, (ofEngine .generic).compile (insertOf rowsBehindQuery) = .ok r ∧
      r.rawSql = "INSERT INTO \"stock\" (\"item\") SELECT * FROM \"orders\", (?)") ∧
    ∀ rows ∈ [swappedRows, shortRows, rowsBehindQuery], ∀ w,
      (ofEngine .generic).WritesRows (ofEngine .generic).rendering [[]] rows w → ¬w.Fit rows := by
  refine ⟨exists_compiled (by decide +kernel), exists_compiled (by decide +kernel),
    exists_compiled (by decide +kernel), fun rows hrows w hw hfit => ?_⟩
  have huniform := hw.fit_iff.mp hfit
  simp only [List.mem_cons, List.not_mem_nil, or_false] at hrows
  rcases hrows with rfl | rfl | rfl
  · simp [swappedRows, Insert.Uniform, Insert.columns] at huniform
  · simp [shortRows, Insert.Uniform, Insert.columns] at huniform
  · simp [rowsBehindQuery, Insert.Uniform] at huniform

end Compiler

end SqlDialects
