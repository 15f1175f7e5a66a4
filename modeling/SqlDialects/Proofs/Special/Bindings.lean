import SqlDialects.Proofs.Cte.Prologue
import SqlDialects.Proofs.Operator.Vetted
import SqlDialects.Proofs.Special.Plain
import SqlDialects.Proofs.Special.Template

/-!
SQL text and variables in a statement that compiles. Where a value stands, SQL text goes into the
SQL and a variable is looked up, and neither is bound. Only what SQL text brings itself, and what
stands in an array, is handed to the database as it is.
-/

namespace SqlDialects

open Fragment
open Text (Occurs)

theorem Query.DefinesPlain.literals {q : Query} (h : q.DefinesPlain) : q.DefinesLiterals :=
  ⟨fun name v hv => (h.1 name v hv).isLiteral,
    fun component place n hn name v hv => (h.2 component place n hn name v hv).isLiteral⟩

namespace Compiler

variable {c : Compiler} {ss : Scopes}

theorem writes_iff {v : Value} {f : Fragment} :
    (c.parameter ss v).toFragment = .ok f ↔ v.Writes ss f := by
  rw [Emit.toFragment_eq_ok]
  constructor
  · intro h
    obtain ⟨g, hg⟩ := writes_of_parameter (congrArg Emit.outcome h)
    rw [parameter_of_writes hg] at h
    obtain ⟨hbound, hsql⟩ := Emit.mk.inj h
    have hf : g = f := by
      obtain ⟨sql, bindings⟩ := f
      obtain ⟨sql', bindings'⟩ := g
      cases hbound
      cases hsql
      rfl
    rwa [← hf]
  · exact parameter_of_writes

section Rows

variable {σ : Type} {f : σ → Rendering}

theorem WritesRows.exists_group {is : List (Insert σ)} {w : WrittenRows}
    (h : c.WritesRows f ss is w) {columns : List String} {values : List Value} {returnId : Bool}
    (hm : .values columns values returnId ∈ is) :
    ∃ cells ∈ w.groups, List.Forall₂ (Value.Writes ss) values cells := by
  have hgroup {cells : List Fragment}
      (hg : c.WritesGroup ss (.values columns values returnId : Insert σ) cells) :
      List.Forall₂ (Value.Writes ss) values cells := by
    cases hg with
    | mk _ _ hcells => exact hcells.imp fun _ _ => writes_iff.mp
  cases h with
  | values hfirst hrest =>
    rcases List.mem_cons.mp hm with heq | hm
    · cases heq
      exact ⟨_, List.mem_cons_self, hgroup hfirst⟩
    · obtain ⟨cells, hc, hg⟩ := forall₂_mem_left hrest hm
      exact ⟨cells, List.mem_cons_of_mem _ hc, hgroup hg⟩
  | query _ hrest =>
    rcases List.mem_cons.mp hm with heq | hm
    · cases heq
    · obtain ⟨cells, hc, hg⟩ := forall₂_mem_left hrest hm
      exact ⟨cells, hc, hgroup hg⟩

theorem occurs_group {w : WrittenRows} {cells : List Fragment} (h : cells ∈ w.groups) :
    Occurs (group cells).sql (c.rowsText w).sql := by
  have hgroup : (group cells).sql ∈ (w.groups.map group).map (·.sql) :=
    List.mem_map_of_mem (List.mem_map_of_mem h)
  unfold rowsText
  dsimp only
  cases w.select with
  | none => exact (Occurs.intercalate ", " hgroup).append_left _
  | some sub =>
    exact (Occurs.intercalate ", " (List.mem_cons_of_mem sub.sql hgroup)).append_left _

def settingText (c : Compiler) (column : String) (f : Fragment) : String :=
  c.engine.wrap column ++ " = " ++ f.sql

theorem settings_write {columns : List String} {values : List Value} {sets : List String}
    (hlen : columns.length = values.length)
    (h : ((columns.zip values).mapM fun p => c.assignment ss p.1 p.2).outcome = .ok sets) :
    ∃ fs, List.Forall₂ (Value.Writes ss) values fs ∧
      sets = List.zipWith c.settingText columns fs := by
  have hrendered := Emit.mapM_eq_ok h
  clear h
  induction values generalizing columns sets with
  | nil =>
    rw [List.zip_nil_right] at hrendered
    cases hrendered
    exact ⟨[], .nil, List.zipWith_nil_right.symm⟩
  | cons v values ih =>
    obtain ⟨column, columns, rfl⟩ := List.exists_cons_of_length_eq_add_one hlen
    obtain ⟨text, sets, htext, hrest, rfl⟩ := List.forall₂_cons_left_iff.mp hrendered
    obtain ⟨fs, hfs, rfl⟩ := ih (Nat.succ.inj hlen) hrest
    obtain ⟨marker, hm, htext⟩ := Emit.bind_eq_ok htext
    obtain ⟨f, hf⟩ := writes_of_parameter hm
    rw [parameter_of_writes hf] at hm
    cases hm
    cases htext
    exact ⟨f :: fs, .cons hf hfs, rfl⟩

end Rows

/-- What is written for the values of a statement stands in its SQL: in each condition that is
rendered, with the text of the condition around it whatever the values are, in each row that is
inserted and in each column that is set. -/
structure Spells (c : Compiler) (q : Query) (sql : String) : Prop where
  conditions : ∀ x, q.Renders c.engine x → ∃ ss t fs, c.Frames ss (x.map c.rendering) t ∧
    List.Forall₂ (x.predicate.Writes ss) x.predicate.held fs ∧ Occurs (t.fill fs).sql sql
  rows : q.method = .insert → ∀ columns values returnId,
    .insert (.values columns values returnId) ∈ q.kinds c.engine .insert →
      ∃ fs, List.Forall₂ (Value.Writes [q.vars]) values fs ∧ Occurs (group fs).sql sql
  settings : ∀ component, q.method = .update ∧ component = .update ∨
      q.method = .assign ∧ component = .assign → ∀ columns values returnId,
    q.chosen c.engine component = some (.insert (.values columns values returnId)) →
      ∃ fs, List.Forall₂ (Value.Writes [q.vars]) values fs ∧
        Occurs (", ".intercalate (List.zipWith c.settingText columns fs)) sql

variable {q : Query} {whole : Fragment}

theorem conditions_spelled (h : c.assemble q = .ok whole) {x : Condition Subquery}
    (hx : q.Renders c.engine x) : ∃ ss t fs, c.Frames ss (x.map c.rendering) t ∧
      List.Forall₂ (x.predicate.Writes ss) x.predicate.held fs ∧
        Occurs (t.fill fs).sql whole.sql := by
  obtain ⟨ss, text, htext, hocc⟩ := condition_occurs h hx
  obtain ⟨t, fs, hframes, hfs⟩ := condition_frames ⟨text, htext⟩
  have hfill := Emit.toFragment_eq_ok.mp (hframes.condition hfs)
  rw [hfill] at htext
  refine ⟨ss, t, fs, hframes, ?_, ?_⟩
  · obtain ⟨p, _, _⟩ := x
    cases p <;> exact hfs
  · rwa [Except.ok.inj htext]

theorem rows_spelled (h : c.assemble q = .ok whole) (hm : q.method = .insert)
    {columns : List String} {values : List Value} {returnId : Bool}
    (hk : .insert (.values columns values returnId) ∈ q.kinds c.engine .insert) :
    ∃ fs, List.Forall₂ (Value.Writes [q.vars]) values fs ∧ Occurs (group fs).sql whole.sql := by
  obtain ⟨body, hbody, hocc⟩ := occurs_body h
  unfold Compiler.body at hbody
  rw [hm] at hbody
  obtain ⟨table, first, rest, w, -, his, hw, heq⟩ :=
    insertText_eq_mk (Emit.toFragment_eq_ok.mp hbody)
  obtain ⟨d, hd, hkind⟩ := List.mem_map.mp hk
  obtain ⟨i, hi, hdi⟩ := forall₂_mem_left (Statement.getAll_eq_ok.mp his) hd
  rw [hkind] at hdi
  cases hdi
  obtain ⟨cells, hcells, hwrites⟩ := hw.exists_group hi
  refine ⟨cells, hwrites, .trans ?_ hocc⟩
  rw [show body.sql = _ from congrArg Fragment.sql heq]
  exact ((occurs_group hcells).append_left _).append_right _

theorem updateText_spelled {component : Component} {sql : String} {columns : List String}
    {values : List Value} {returnId : Bool}
    (h : (c.updateText ss component (c.prepare q)).outcome = .ok sql)
    (hk : q.chosen c.engine component = some (.insert (.values columns values returnId))) :
    ∃ fs, List.Forall₂ (Value.Writes ss) values fs ∧
      Occurs (", ".intercalate (List.zipWith c.settingText columns fs)) sql := by
  obtain ⟨table, -, h⟩ := Emit.bind_eq_ok h
  obtain ⟨⟨names, cells⟩, hassign, h⟩ := Emit.bind_eq_ok h
  obtain ⟨sets, hsets, h⟩ := Emit.bind_eq_ok h
  obtain ⟨suffix, -, h⟩ := Emit.bind_eq_ok h
  have hassign : c.assignments component (c.prepare q) = .ok (names, cells) := hassign
  have hfound : q.getOne component ClauseKind.insert? (some c.engine) =
      .ok (some (.values columns values returnId)) := by
    obtain ⟨d, hd, hkind⟩ := Option.map_eq_some_iff.mp hk
    exact Statement.getOne_eq_some.mpr ⟨d, hd, by rw [hkind]; rfl⟩
  rw [prepare, assignments_map, assignments, hfound] at hassign
  obtain ⟨_, hcheck, hpair⟩ :=
    SqlDialects.bind_eq_ok (x := checkRow component columns values) hassign
  cases hpair
  obtain ⟨fs, hfs, rfl⟩ := settings_write ((of_checkRow hcheck).2) hsets
  refine ⟨fs, hfs, ?_⟩
  rw [← Except.ok.inj h]
  exact ((Occurs.refl _).append_left _).append_right _

theorem assemble_spells (h : c.assemble q = .ok whole) : c.Spells q whole.sql where
  conditions _ := conditions_spelled h
  rows hm _ _ _ := rows_spelled h hm
  settings component hm columns values returnId hk := by
    obtain ⟨body, hbody, hocc⟩ := occurs_body h
    have hupdate : (c.updateText [q.vars] component (c.prepare q)).outcome = .ok body.sql := by
      unfold Compiler.body at hbody
      rcases hm with ⟨hm, rfl⟩ | ⟨hm, rfl⟩
      · rw [hm] at hbody
        exact Emit.outcome_of_toFragment hbody
      · rw [hm] at hbody
        exact Emit.outcome_of_toFragment hbody
    obtain ⟨fs, hfs, hsets⟩ := updateText_spelled hupdate hk
    exact ⟨fs, hfs, hsets.trans hocc⟩

/-- If all that is defined is plain, every binding of a statement that compiles is a plain value, or
SQL text brings it or it is an array. What is written for each value stands in the SQL: SQL text
as it stands, and a variable as what it is defined as, so that looking up every variable first gives
the same statement, in which none is left. -/
theorem compile_binds_plain {r : Compiled} (hd : q.DefinesPlain) (h : c.compile q = .ok r) :
    (∀ b ∈ r.bindings, b.Plain ∨ q.Hands b) ∧
      ∃ whole, c.assemble q = .ok whole ∧ whole.expand = .ok ⟨r.rawSql, r.bindings⟩ ∧
        ((∀ v ∈ r.bindings, ∀ items, v ≠ .array items) → r.rawSql = whole.sql) ∧
        c.Spells q whole.sql ∧
        ∀ fill : String → Value, (∀ name, (fill name).isLiteral = true) →
          c.assemble (q.settled .rendered fill) = .ok whole ∧
            ∀ d, (q.settled .rendered fill).Contains d →
              ∀ v ∈ d.kind.held, ∀ name, v ≠ .var name := by
  obtain ⟨whole, hwhole, hexpand, hplain⟩ := exists_assembled h
  refine ⟨?_, whole, hwhole, hexpand, hplain, assemble_spells hwhole,
    fun fill hfill => ⟨?_, ?_⟩⟩
  · have hbindings : whole.bindings = r.bindings := (expand_eq_ok.mp hexpand).2
    rw [← hbindings]
    exact plain_or_handed hd hwhole
  · rcases c.assemble_settled q fill with ⟨name, -, he⟩ | ⟨-, hsame⟩
    · rw [hwhole] at he
      cases he
    · rw [hsame, hwhole]
  · exact (Subquery.of q).held_settle .rendered hfill .root ⟨nofun, nofun⟩ hd.literals

def pricesOfToday : Query where
  clauses := [⟨.source, none, .source (.table "prices")⟩,
    ⟨.filter, none, .condition ⟨.compare "day" "=" (.raw "CURRENT_DATE"), false, false⟩⟩,
    ⟨.filter, none, .condition ⟨.between "price" (.int 1) (.var "top"), false, true⟩⟩,
    ⟨.filter, none, .condition ⟨.like "name" "starts" (.var "word") true none, false, false⟩⟩]
  vars := [("top", .int 20), ("word", .string "a")]

theorem eq_of_writes_raw {sql : String} {f : Fragment} (h : (Value.raw sql).Writes ss f) :
    f = ofText sql := by
  cases h with
  | raw => rfl
  | literal h => cases h

theorem compile_binds_plain_pricesOfToday :
    pricesOfToday.DefinesPlain ∧
      ∃ r, (ofEngine .generic).compile pricesOfToday = .ok r ∧
        r.rawSql = "SELECT * FROM \"prices\" WHERE \"day\" = CURRENT_DATE AND " ++
          "\"price\" NOT BETWEEN ? AND ? AND \"name\" like ?" ∧
        (∀ b ∈ r.bindings, b.Plain) ∧
        ∃ whole, (ofEngine .generic).assemble pricesOfToday = .ok whole ∧
          ∃ ss t, (ofEngine .generic).Frames ss
              ⟨.compare "day" "=" (.raw "CURRENT_DATE"), false, false⟩ t ∧
            Occurs (t.fill [ofText "CURRENT_DATE"]).sql whole.sql := by
  have hdefines : pricesOfToday.DefinesPlain := Query.definesPlain_of_alone (.of_all rfl) rfl
  have hsql : ((ofEngine .generic).compile pricesOfToday).toOption.map (·.rawSql) =
      some ("SELECT * FROM \"prices\" WHERE \"day\" = CURRENT_DATE AND " ++
        "\"price\" NOT BETWEEN ? AND ? AND \"name\" like ?") := by
    decide +kernel
  obtain ⟨r, hr, hsql⟩ := exists_compiled hsql
  obtain ⟨hbound, whole, hwhole, -, -, hspells, -⟩ := compile_binds_plain hdefines hr
  have hhands : ∀ b, ¬pricesOfToday.Hands b := by
    rintro b ⟨d, hd, hb⟩
    cases hd with
    | here hd =>
      simp only [pricesOfToday, List.mem_cons, List.not_mem_nil, or_false] at hd
      rcases hd with rfl | rfl | rfl | rfl <;> cases hb
    | inside hn _ => cases hn
  refine ⟨hdefines, r, hr, hsql, fun b hb => (hbound b hb).resolve_right (hhands b), whole, hwhole,
    ?_⟩
  obtain ⟨ss, t, fs, hframes, hfs, hocc⟩ := hspells.conditions
    ⟨.compare "day" "=" (.raw "CURRENT_DATE"), false, false⟩
    (.select rfl (.here (.tail _ (.head _))))
  obtain ⟨f, _, hf, hnil, rfl⟩ := List.forall₂_cons_left_iff.mp hfs
  cases hnil
  rw [eq_of_writes_raw hf] at hocc
  exact ⟨ss, t, hframes, hocc⟩

def bringingVariable : Query where
  clauses := [⟨.source, none, .source (.table "t")⟩,
    ⟨.filter, none, .condition ⟨.raw "a = ?" [.var "x"], false, false⟩⟩]
  vars := [("x", .int 1)]

def comparingArray : Query where
  clauses := [⟨.source, none, .source (.table "t")⟩,
    ⟨.filter, none, .condition ⟨.compare "a" "=" (.array [.raw "now()", .var "x"]), false, false⟩⟩]
  vars := [("x", .int 1)]

def lowering : Query where
  clauses := [⟨.source, none, .source (.table "t")⟩,
    ⟨.filter, none, .condition ⟨.like "a" "like" (.raw "'A' || B") false none, false, false⟩⟩]

/-- A variable is bound if SQL text brings it, and what is in an array is bound. SQL text is put
into lower case where it is a pattern without regard to case. -/
theorem special_values_are_bound :
    (bringingVariable.DefinesPlain ∧ ∃ r, (ofEngine .generic).compile bringingVariable = .ok r ∧
      r.bindings = [.var "x"] ∧ ¬∀ b ∈ r.bindings, b.Plain) ∧
    (comparingArray.DefinesPlain ∧ ∃ r, (ofEngine .generic).compile comparingArray = .ok r ∧
      r.bindings = [.array [.raw "now()", .var "x"]] ∧ ¬∀ b ∈ r.bindings, b.Plain) ∧
    ∃ r, (ofEngine .generic).compile lowering = .ok r ∧
      r.rawSql = "SELECT * FROM \"t\" WHERE LOWER(\"a\") like 'a' || b" := by
  have hbinds {q : Query} {b : Value} (hb : ¬b.Plain)
      (h : ((ofEngine .generic).compile q).toOption.map (·.bindings) = some [b]) :
      ∃ r, (ofEngine .generic).compile q = .ok r ∧ r.bindings = [b] ∧
        ¬∀ b ∈ r.bindings, b.Plain := by
    obtain ⟨r, hr, hbound⟩ := exists_compiled_map h
    refine ⟨r, hr, hbound, fun hplain => hb (hplain b ?_)⟩
    rw [hbound]
    exact List.mem_cons_self
  have hvariable : ¬(Value.var "x").Plain := Value.Holds.not_plain (.here _) rfl
  have harray : ¬(Value.array [.raw "now()", .var "x"]).Plain :=
    Value.Holds.not_plain (.item (.head _) (.here _)) rfl
  have hlower : ((ofEngine .generic).compile lowering).toOption.map (·.rawSql) =
      some "SELECT * FROM \"t\" WHERE LOWER(\"a\") like 'a' || b" := by
    decide +kernel
  exact ⟨⟨Query.definesPlain_of_alone (.of_all rfl) rfl, hbinds hvariable rfl⟩,
    ⟨Query.definesPlain_of_alone (.of_all rfl) rfl, hbinds harray rfl⟩, exists_compiled hlower⟩

end Compiler

end SqlDialects
