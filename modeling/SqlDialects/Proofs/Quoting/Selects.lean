import SqlDialects.Proofs.Paging.Selects
import SqlDialects.Proofs.Quoting.Conditions
import SqlDialects.Render.Write

/-!
Selects, and the parts of statements that change rows, whose terms are harmless. Every part of one
is read from outside of quotes to outside of quotes; so is a whole select, at any depth, with the
limit behind its keywords and with its rows numbered.
-/

namespace SqlDialects

open Text

theorem Engine.Spans.insertTop {e : Engine} {sql : String} (h : e.Spans 0 0 sql) :
    e.Spans 0 0 (SqlDialects.insertTop sql) := by
  have hdistinct : e.Spans 0 0 "SELECT DISTINCT TOP (?)" := Engine.spans_of_nesting rfl
  have hselect : e.Spans 0 0 "SELECT TOP (?)" := Engine.spans_of_nesting rfl
  have hrest {start rest : String} (hs : Bare start) (hd : dropPrefix? start sql = some rest) :
      e.Spans 0 0 rest := by
    rw [dropPrefix?_eq_some hd] at h
    exact h.of_bare_append hs
  unfold SqlDialects.insertTop
  split
  · next rest hd => exact hdistinct.append (hrest (by decide) hd)
  · refine hselect.append ?_
    cases hd : dropPrefix? "SELECT" sql with
    | none => exact h
    | some rest => exact hrest (by decide) hd

namespace Compiler

variable {c : Compiler} (ss : Scopes)

theorem spans_suffix {word : String} (hw : Bare word) (name : String) (absent : Bool) :
    c.engine.Spans 0 0 (if absent then "" else " " ++ word ++ c.engine.wrapValue name) := by
  have hspace : c.engine.Spans 0 0 " " := Engine.spans_bare (by decide)
  cases absent with
  | true => exact Engine.spans_empty 0
  | false => exact (hspace.append (Engine.spans_bare hw)).append (c.engine.spans_wrapValue name)

theorem spans_column {x : Column Rendering}
    (hx : x.Obeys c.harmless (Rendering.Spans c.engine)) :
    (c.column ss x).Gives (c.engine.Spans 0 0) := by
  cases x with
  | named name => exact Emit.gives_pure (c.engine.spans_wrap name)
  | raw sql bindings => exact spans_rawText bindings hx
  | query q aliasName =>
    refine (Emit.gives_embed (hx.1.select ss)).bind fun sub hsub => Emit.gives_pure ?_
    refine hsub.paren.append ?_
    split
    · exact spans_suffix c.engine.bare_columnAs _ _
    · exact Engine.spans_empty 0

theorem spans_aggregateCall {a : Aggregate} (ha : a.Obeys c.harmless) (distinct : Bool) :
    c.engine.Spans 0 0 (c.aggregateCall distinct a) := by
  unfold aggregateCall
  split
  · next name _ =>
    have hselect : c.engine.Spans 0 0 "SELECT " := Engine.spans_bare (by decide)
    have hopen : c.engine.Spans 0 1 "(" := Engine.spans_of_nesting rfl
    have hdistinct : c.engine.Spans 1 1 (if distinct then "DISTINCT " else "") := by
      split <;> exact Engine.spans_bare (by decide)
    have hclose : c.engine.Spans 1 0 ") " := Engine.spans_of_nesting rfl
    exact ((((((hselect.append ha.1).append hopen).append
      hdistinct).append (c.engine.spans_wrap name)).append hclose).append
        (Engine.spans_bare c.engine.bare_columnAs)).append (c.engine.spans_wrapValue _)
  · exact Engine.spans_bare (by decide)

theorem spans_tableExpression {s : Source Rendering}
    (hs : s.Obeys c.harmless (Rendering.Spans c.engine)) :
    (c.tableExpression ss s).Gives (c.engine.Spans 0 0) := by
  cases s with
  | table name => exact Emit.gives_pure (c.engine.spans_wrap name)
  | raw sql bindings aliasName => exact spans_rawText bindings hs.1
  | query q aliasName =>
    refine (Emit.gives_embed (hs.1.select ss)).bind fun sub hsub => Emit.gives_pure ?_
    refine hsub.paren.append ?_
    split
    · exact spans_suffix c.engine.bare_tableAs _ _
    · exact Engine.spans_empty 0

theorem spans_orderTerm {o : Order} (ho : o.Obeys c.harmless) :
    (c.orderTerm o).Gives (c.engine.Spans 0 0) := by
  cases o with
  | column name ascending =>
    refine Emit.gives_pure ((c.engine.spans_wrap name).append ?_)
    split <;> exact Engine.spans_bare (by decide)
  | raw sql bindings => exact spans_rawText bindings ho
  | random seed =>
    refine Emit.gives_pure ?_
    have hopen : c.engine.Spans 0 1 "RAND(" := Engine.spans_of_nesting rfl
    have hclose : c.engine.Spans 1 0 ")" := Engine.spans_of_nesting rfl
    unfold Engine.randomOrder
    split
    · next he => exact (hopen.append (ho he)).append hclose
    · exact Engine.spans_of_nesting rfl
    · exact Engine.spans_of_nesting rfl

theorem spans_combination {x : Combine Rendering}
    (hx : x.Obeys c.harmless (Rendering.Spans c.engine)) :
    (c.combination ss x).Gives (c.engine.Spans 0 0) := by
  cases x with
  | query operation all q =>
    refine (Emit.gives_embed (hx.select ss)).bind fun sub hsub => Emit.gives_pure ?_
    have hkeyword : Bare operation.keyword := by cases operation <;> decide
    have hspace : c.engine.Spans 0 0 " " := Engine.spans_bare (by decide)
    have hall : c.engine.Spans 0 0 (if all then "ALL " else "") := by
      split <;> exact Engine.spans_bare (by decide)
    exact (((Engine.spans_bare hkeyword).append hspace).append hall).append hsub
  | raw sql bindings => exact spans_rawText bindings hx

section Parts

def GivesPart (e : Engine) (x : Emit (Option String)) : Prop :=
  x.Gives fun part => ∀ text ∈ part, e.Spans 0 0 text

theorem givesPart_none : GivesPart c.engine (pure none) := Emit.gives_pure (by rintro _ ⟨⟩)

theorem givesPart_some {text : String} (h : c.engine.Spans 0 0 text) :
    GivesPart c.engine (pure (some text)) :=
  Emit.gives_pure (by rintro _ ⟨⟩; exact h)

theorem givesPart_listed {α : Type} {xs : List α} {f : α → Emit String} {keyword separator : String}
    (hk : Bare keyword) (hs : Bare separator) (h : ∀ x ∈ xs, (f x).Gives (c.engine.Spans 0 0)) :
    GivesPart c.engine (if xs.isEmpty then pure none else do
      let texts ← xs.mapM f
      pure (some (keyword ++ separator.intercalate texts))) := by
  split
  · exact givesPart_none
  · refine (Emit.Gives.mapM h).bind fun texts ht => givesPart_some ?_
    exact (Engine.spans_bare hk).append (Engine.spans_intercalate (Engine.spans_bare hs) ht)

theorem spans_joinParts {parts : List (Option String)}
    (h : ∀ part ∈ parts, ∀ text ∈ part, c.engine.Spans 0 0 text) :
    c.engine.Spans 0 0 (joinParts parts) := by
  refine Engine.spans_intercalate (Engine.spans_bare (by decide)) fun text ht => ?_
  obtain ⟨part, hm, hpart⟩ := List.mem_filterMap.mp ht
  exact h part hm text (Option.mem_filter_iff.mp hpart).1

end Parts

section Statements

variable {p : Statement Rendering}

theorem givesPart_push (values : List Value) {text : String} (h : c.engine.Spans 0 0 text) :
    GivesPart c.engine (do Emit.push values; return some text) :=
  Emit.Gives.bind (P := fun _ => True) (fun _ _ => trivial) fun _ _ => givesPart_some h

theorem givesPart_basic (w : Window) : GivesPart c.engine w.basic := by
  unfold Window.basic
  split_ifs
  · exact givesPart_none
  · exact givesPart_push _ (Engine.spans_bare (by decide))
  · exact givesPart_push _ (Engine.spans_bare (by decide))
  · exact givesPart_push _ (Engine.spans_bare (by decide))

theorem givesPart_withLimit (w : Window) {all : String} (ha : Bare all) :
    GivesPart c.engine (w.withLimit all) := by
  have hlimit : c.engine.Spans 0 0 "LIMIT " := Engine.spans_bare (by decide)
  have hoffset : c.engine.Spans 0 0 " OFFSET ?" := Engine.spans_bare (by decide)
  unfold Window.withLimit
  split
  · exact givesPart_push _ ((hlimit.append (Engine.spans_bare ha)).append hoffset)
  · exact givesPart_basic w

theorem givesPart_fetch (ordered : Bool) (w : Window) : GivesPart c.engine (w.fetch ordered) := by
  have horder : c.engine.Spans 0 0 (if ordered then "" else "ORDER BY (SELECT 0) ") := by
    cases ordered <;> exact Engine.spans_of_nesting rfl
  have hoffset : c.engine.Spans 0 0 "OFFSET ? ROWS" := Engine.spans_bare (by decide)
  have hboth : c.engine.Spans 0 0 "OFFSET ? ROWS FETCH NEXT ? ROWS ONLY" :=
    Engine.spans_bare (by decide)
  unfold Window.fetch
  generalize (if ordered then "" else "ORDER BY (SELECT 0) ") = order at horder ⊢
  dsimp only
  split_ifs
  · exact givesPart_none
  · exact givesPart_push _ (horder.append hoffset)
  · exact givesPart_push _ (horder.append hboth)

theorem givesPart_page : GivesPart c.engine (c.page p) := by
  have hwindow {f : Window → Emit (Option String)} (h : ∀ w, GivesPart c.engine (f w)) :
      GivesPart c.engine (Emit.lift (p.window (some c.engine)) >>= f) :=
    Emit.Gives.bind (P := fun _ => True) (fun _ _ => trivial) fun w _ => h w
  unfold page basicPage
  dsimp only
  split
  · exact hwindow fun w => givesPart_withLimit w (by decide)
  · exact hwindow fun w => givesPart_withLimit w (by decide)
  · split
    · exact givesPart_none
    · exact hwindow fun w => givesPart_fetch _ w
  · exact hwindow givesPart_basic

variable (hp : p.Obeys c.harmless (Rendering.Spans c.engine))

include hp

theorem spans_basicColumns : (c.basicColumns ss p).Gives (c.engine.Spans 0 0) := by
  have hselect : c.engine.Spans 0 0 "SELECT " := Engine.spans_bare (by decide)
  have hcomma : c.engine.Spans 0 0 ", " := Engine.spans_bare (by decide)
  have hdistinct : c.engine.Spans 0 0 (if p.distinct then "DISTINCT " else "") := by
    split <;> exact Engine.spans_bare (by decide)
  refine Emit.Gives.bind (Emit.gives_lift fun a ha => ha) fun a ha => ?_
  cases a with
  | some a =>
    have hobeys := Statement.Obeys.getOne hp ClauseKind.obeys_aggregate ha
    exact Emit.gives_pure (spans_aggregateCall hobeys p.distinct)
  | none =>
    refine Emit.Gives.bind (Emit.gives_lift fun xs hxs => hxs) fun xs hxs => ?_
    have hobeys := Statement.Obeys.getAll hp ClauseKind.obeys_column hxs
    refine (Emit.Gives.mapM fun x hx => spans_column ss (hobeys x hx)).bind fun texts ht => ?_
    have hlist : c.engine.Spans 0 0 (if texts.isEmpty then "*" else ", ".intercalate texts) := by
      split
      · exact Engine.spans_bare (by decide)
      · exact Engine.spans_intercalate hcomma ht
    exact Emit.gives_pure ((hselect.append hdistinct).append hlist)

theorem spans_columns : (c.columns ss p).Gives (c.engine.Spans 0 0) := by
  have hbasic := spans_basicColumns ss hp
  unfold columns
  generalize c.basicColumns ss p = basic at hbasic ⊢
  dsimp only
  split
  · split
    · next sql w hsql _ =>
      split
      · rintro _ ⟨⟩
        exact (hbasic sql hsql).insertTop
      · exact hbasic
    · rintro _ ⟨⟩
    · exact hbasic
  · exact hbasic

theorem gives_sourceFor (operation : Operation) : (Emit.lift (c.sourceFor operation p)).Gives
    fun s => s.Obeys c.harmless (Rendering.Spans c.engine) := by
  refine Emit.gives_lift fun s hs => ?_
  unfold sourceFor at hs
  cases ho : p.getOne .source ClauseKind.source? (some c.engine) with
  | error e =>
    rw [ho] at hs
    cases hs
  | ok o =>
    rw [ho] at hs
    cases o with
    | none => cases hs
    | some s' =>
      cases hs
      exact Statement.Obeys.getOne hp ClauseKind.obeys_source ho

theorem gives_getAll {α : Type} {A : α → Prop} {component : Component}
    {as? : ClauseKind Rendering → Option α} (hA : ∀ k a, as? k = some a →
      k.Obeys c.harmless (Rendering.Spans c.engine) → A a) :
    (Emit.lift (p.getAll component as? (some c.engine))).Gives fun xs => ∀ x ∈ xs, A x :=
  Emit.gives_lift fun _ hxs => Statement.Obeys.getAll hp hA hxs

theorem spans_table : (c.table ss p).Gives (c.engine.Spans 0 0) := by
  refine (gives_sourceFor hp .select).bind fun s hs => ?_
  refine (spans_tableExpression ss hs).bind fun text ht => Emit.gives_pure ?_
  exact Engine.Spans.append (Engine.spans_bare (by decide)) ht

theorem spans_filterText : (c.filterText ss p).Gives (c.engine.Spans 0 0) :=
  (gives_getAll hp ClauseKind.obeys_condition).bind fun _ hxs => spans_conditions ss hxs

theorem spans_joinedTable : (c.joinedTable ss p).Gives (c.engine.Spans 0 0) := by
  refine (gives_sourceFor hp .join).bind fun s hs => ?_
  refine (gives_getAll hp ClauseKind.obeys_condition).bind fun xs hxs => ?_
  refine (spans_tableExpression ss hs).bind fun text ht => ?_
  refine (spans_conditions ss hxs).bind fun constraints hc => Emit.gives_pure ?_
  have hon : c.engine.Spans 0 0 " ON " := Engine.spans_bare (by decide)
  split
  · exact ht
  · exact (ht.append hon).append hc

theorem givesPart_joins : GivesPart c.engine (c.joins ss p) := by
  refine (gives_getAll hp ClauseKind.obeys_join).bind fun js hjs => ?_
  refine givesPart_listed (by decide) (by decide) fun j hj => ?_
  refine ((hjs j hj).joined ss).bind fun text ht => Emit.gives_pure ?_
  have hkeyword : Bare j.kind.keyword := by cases j.kind <;> decide
  have hspace : c.engine.Spans 0 0 " " := Engine.spans_bare (by decide)
  exact ((Engine.spans_bare hkeyword).append hspace).append ht

theorem givesPart_wheres : GivesPart c.engine (c.wheres ss p) := by
  have hwhere : c.engine.Spans 0 0 "WHERE " := Engine.spans_bare (by decide)
  unfold wheres
  split
  · refine (spans_filterText ss hp).bind fun sql hsql => ?_
    dsimp only
    split
    · exact givesPart_none
    · exact givesPart_some (hwhere.append hsql.trim)
  · exact givesPart_none

theorem givesPart_groups : GivesPart c.engine (c.groups ss p) := by
  refine (gives_getAll hp ClauseKind.obeys_column).bind fun xs hxs => ?_
  exact givesPart_listed (by decide) (by decide) fun x hx => spans_column ss (hxs x hx)

theorem givesPart_having : GivesPart c.engine (c.having ss p) := by
  have hhaving : c.engine.Spans 0 0 "HAVING " := Engine.spans_bare (by decide)
  refine (gives_getAll hp ClauseKind.obeys_condition).bind fun xs hxs => ?_
  split
  · exact givesPart_none
  · refine (spans_conditions ss hxs).bind fun sql hsql => ?_
    split
    · exact givesPart_none
    · exact givesPart_some (hhaving.append hsql)

theorem givesPart_orders : GivesPart c.engine (c.orders p) := by
  refine (gives_getAll hp ClauseKind.obeys_order).bind fun os hos => ?_
  exact givesPart_listed (by decide) (by decide) fun o ho => spans_orderTerm (hos o ho)

theorem givesPart_combinations : GivesPart c.engine (c.combinations ss p) := by
  refine (gives_getAll hp ClauseKind.obeys_combine).bind fun xs hxs => ?_
  have hempty : Bare "" := by decide
  have hspace : Bare " " := by decide
  have h := givesPart_listed (c := c) hempty hspace fun x hx => spans_combination ss (hxs x hx)
  simp only [String.empty_append] at h
  exact h

theorem spans_selectText : (c.selectText ss p).Gives (c.engine.Spans 0 0) := by
  refine (spans_columns ss hp).bind fun columns h₁ => ?_
  refine (spans_table ss hp).bind fun table h₂ => ?_
  refine (givesPart_joins ss hp).bind fun joins h₃ => ?_
  refine (givesPart_wheres ss hp).bind fun wheres h₄ => ?_
  refine (givesPart_groups ss hp).bind fun groups h₅ => ?_
  refine (givesPart_having ss hp).bind fun having h₆ => ?_
  refine (givesPart_orders hp).bind fun orders h₇ => ?_
  refine givesPart_page.bind fun page h₈ => ?_
  refine (givesPart_combinations ss hp).bind fun combinations h₉ => ?_
  refine Emit.gives_pure (spans_joinParts ?_)
  simp only [List.forall_mem_cons, Option.mem_some_iff, forall_eq']
  exact ⟨h₁, h₂, h₃, h₄, h₅, h₆, h₇, h₈, h₉, by simp⟩

theorem spans_basicSelect {outer : Scopes} {f : Fragment} (h : c.basicSelect p outer = .ok f) :
    c.engine.Spans 0 0 f.sql :=
  (spans_selectText _ hp).toFragment h

section Numbered

variable (hl : c.engine = .sqlServer ∧ c.legacyPaging = true)

include hl

omit hp in
theorem unbraced_orderTerm {o : Order} (ho : o.Obeys c.harmless) :
    (c.orderTerm o).Gives Unbraced := by
  cases o with
  | column name ascending =>
    have hname : Unbraced (c.engine.wrap name) := by
      rw [hl.1]
      exact Engine.unbraced_wrap (ho.2 hl)
    refine Emit.gives_pure (hname.append ?_)
    split <;> decide
  | raw sql bindings =>
    exact Emit.Gives.bind (P := fun _ => True) (fun _ _ => trivial) fun _ _ =>
      Emit.gives_pure (ho.2 hl)
  | random seed =>
    have hrandom : c.engine.randomOrder seed = "NEWID()" := by
      rw [hl.1]
      rfl
    refine Emit.gives_pure ?_
    rw [hrandom]
    decide

theorem unbraced_orders : (c.orders p).Gives fun part => ∀ text ∈ part, Unbraced text := by
  refine (gives_getAll hp ClauseKind.obeys_order).bind fun os hos => ?_
  split
  · exact Emit.gives_pure (by rintro _ ⟨⟩)
  · refine (Emit.Gives.mapM fun o ho => unbraced_orderTerm hl (hos o ho)).bind fun texts ht => ?_
    refine Emit.gives_pure ?_
    rintro _ ⟨⟩
    exact Unbraced.append (by decide) (Unbraced.intercalate (by decide) ht)

omit hp in
theorem spans_rowNumber : c.engine.Spans 0 0 "[row_num]" := by
  rw [hl.1]
  exact Engine.spans_quote "row_num".toList

omit hp in
theorem harmless_numberColumn {order : String} (ho : c.engine.Spans 0 0 order) (hu : Unbraced order)
    (bindings : List Value) :
    c.harmless.raw ("ROW_NUMBER() OVER (" ++ order ++ ") AS [row_num]") bindings := by
  have hcolumn : c.engine.wrapIdentifiers ("ROW_NUMBER() OVER (" ++ order ++ ") AS [row_num]") =
      "ROW_NUMBER() OVER (" ++ order ++ ") AS [row_num]" := by
    rw [hl.1, wrapIdentifiers_numberColumn]
    unfold numberColumn
    rw [Engine.wrapIdentifiers_of_unbraced hu]
  have hopen : c.engine.Spans 0 1 "ROW_NUMBER() OVER (" := Engine.spans_of_nesting rfl
  have hclose : c.engine.Spans 1 0 ") AS " := Engine.spans_of_nesting rfl
  have hlast : c.engine.Spans 1 0 ") AS [row_num]" := hclose.append (spans_rowNumber hl)
  have hstart : Unbraced "ROW_NUMBER() OVER (" := by decide
  have hend : Unbraced ") AS [row_num]" := by decide
  refine ⟨?_, fun _ => ?_⟩
  · rw [hcolumn]
    exact (hopen.append (ho.deeper 1)).append hlast
  · rw [hcolumn]
    exact (hstart.append hu).append hend

theorem harmless_numberRows {order : String} (ho : c.engine.Spans 0 0 order) (hu : Unbraced order)
    (bindings : List Value) : (numberRows (p.starred c.engine) ⟨order, bindings⟩).Obeys c.harmless
      (Rendering.Spans c.engine) := by
  have hstarred : (p.starred c.engine).Obeys c.harmless (Rendering.Spans c.engine) := by
    unfold Statement.starred
    split
    · exact hp
    · exact Statement.Obeys.select hp (fun _ _ _ _ => trivial) fun _ _ => trivial
  have hcolumn : (ClauseKind.column (.raw ("ROW_NUMBER() OVER (" ++ order ++ ") AS [row_num]")
      bindings)).Obeys c.harmless (Rendering.Spans c.engine) :=
    harmless_numberColumn hl ho hu bindings
  exact (Statement.Obeys.add hstarred hcolumn).clear _ _

theorem spans_numberedSelect {outer : Scopes} {f : Fragment}
    (h : c.numberedSelect p outer = .ok f) : c.engine.Spans 0 0 f.sql := by
  obtain ⟨w, hw, -⟩ := bind_eq_ok h
  rw [numberedSelect_eq hw] at h
  obtain ⟨text, htext, h⟩ := bind_eq_ok h
  obtain ⟨inner, hinner, h⟩ := bind_eq_ok h
  cases h
  have horder : c.engine.Spans 0 0 (text.getD anyOrder) ∧ Unbraced (text.getD anyOrder) := by
    cases text with
    | none => exact ⟨Engine.spans_of_nesting rfl, by decide⟩
    | some text => exact ⟨givesPart_orders hp _ htext _ rfl, unbraced_orders hp hl _ htext _ rfl⟩
  have hrows := harmless_numberRows hp hl horder.1 horder.2 (c.orders p).bound
  have hinner := spans_basicSelect hrows hinner
  have hopen : c.engine.Spans 0 1 "SELECT * FROM (" := Engine.spans_of_nesting rfl
  have hbetween : c.engine.Spans 1 0 ") AS [results_wrapper] WHERE " := by
    have hclose : c.engine.Spans 1 0 ") AS " := Engine.spans_of_nesting rfl
    have hname : c.engine.Spans 0 0 "[results_wrapper]" := by
      rw [hl.1]
      exact Engine.spans_quote "results_wrapper".toList
    have hwhere : c.engine.Spans 0 0 " WHERE " := Engine.spans_bare (by decide)
    have hparts : c.engine.Spans 1 0 (") AS " ++ "[results_wrapper]" ++ " WHERE ") :=
      (hclose.append hname).append hwhere
    exact hparts
  have hrange : c.engine.Spans 0 0 w.range.sql := by
    have habove : c.engine.Spans 0 0 ("[row_num]" ++ " >= ?") :=
      (spans_rowNumber hl).append (Engine.spans_bare (by decide))
    have hbounds : c.engine.Spans 0 0 ("[row_num]" ++ " BETWEEN ? AND ?") :=
      (spans_rowNumber hl).append (Engine.spans_bare (by decide))
    unfold Window.range
    dsimp only
    split
    · exact habove
    · exact hbounds
  exact ((hopen.append (hinner.deeper 1)).append hbetween).append hrange

end Numbered

theorem spans_select {outer : Scopes} {f : Fragment} (h : c.select p outer = .ok f) :
    c.engine.Spans 0 0 f.sql := by
  unfold select at h
  split at h
  · next hl =>
    obtain ⟨offset, -, h⟩ := bind_eq_ok h
    split at h
    · exact spans_basicSelect hp h
    · exact spans_numberedSelect hp hl h
  · exact spans_basicSelect hp h

end Statements

/-- Nothing is left open in any place where a statement is nested. -/
theorem spans_rendering (s : Subquery) (hs : s.Obeys c.harmless) :
    (c.rendering s).Spans c.engine := by
  refine Subquery.Obeys.induction (P := fun s => (c.rendering s).Spans c.engine)
    (fun q _ hn => ?_) s hs
  have hp : (c.prepare q).Obeys c.harmless (Rendering.Spans c.engine) :=
    Statement.obeys_map.mpr hn
  rw [rendering_of]
  exact ⟨fun _ _ h => spans_select hp h, fun ss => spans_filterText ss hp,
    fun ss => spans_joinedTable ss hp⟩

end Compiler

end SqlDialects
