import SqlDialects.Proofs.Aggregate.Arrangement
import SqlDialects.Proofs.Text.Caseless

/-!
Aggregates inside other statements. There an aggregate is rendered as the select it is, without what
makes it a select that computes the aggregate. The two are the same where that changes nothing.
-/

namespace SqlDialects

namespace Statement

variable {σ τ : Type} {e : Engine} {p q : Statement σ}

theorem bucket_clear_eq_nil {component other : Component} {cleared engine : Option Engine}
    (h : q.bucket other engine = []) : (q.clear component cleared).bucket other engine = [] := by
  rw [bucket_clear, h, List.filter_nil]

theorem choose_filter_own (cs : List (Clause σ)) :
    choose (some e) (cs.filter (·.engine == some e)) = cs.find? (·.engine == some e) := by
  rw [← List.head?_filter]
  cases hown : cs.filter (·.engine == some e) with
  | nil => rfl
  | cons x rest =>
    have hx : (x.engine == some e) = true :=
      (List.mem_filter.mp (hown ▸ List.mem_cons_self : x ∈ cs.filter _)).2
    simp [choose, hx]

theorem limitFor_clear (h : q.limitFor (some e) = .ok 0) :
    (q.clear .limit none).limitFor (some e) = .ok 0 := by
  by_cases ha : q.addsFor e = true
  · rw [limitFor, getOne, bucket_clear_self ha]
    rfl
  · -- Only the clauses for the engine itself are left, and the first of them comes first as before.
    obtain ⟨other, hscope, hother⟩ : ∃ other, q.scope = some other ∧ other ≠ e := by
      cases hs : q.scope with
      | none => exact absurd (by simp [addsFor, hs]) ha
      | some other => exact ⟨other, rfl, by rintro rfl; exact ha (by simp [addsFor, hs])⟩
    have hbucket : (q.clear .limit none).bucket .limit (some e) =
        (q.bucket .limit (some e)).filter (·.engine == some e) := by
      rw [bucket_clear, Option.none_or, hscope]
      refine List.filter_congr fun x hx => ?_
      have hv := (mem_bucket.mp hx).2
      simp only [Clause.visible, Bool.and_eq_true, beq_iff_eq, Bool.or_eq_true,
        Option.isNone_some, Bool.false_eq_true, or_false] at hv
      obtain ⟨hc, hv⟩ := hv
      cases hown : x.engine with
      | none => simp [Clause.visible, hc, hown]
      | some own =>
        obtain rfl : own = e := by simpa [hown] using hv
        simp [Clause.visible, hc, hown, Ne.symm hother]
    have hchoose := @choose_filter_own σ e (q.bucket .limit (some e))
    rw [limitFor, getOne, hbucket, hchoose]
    cases hf : (q.bucket .limit (some e)).find? (·.engine == some e) with
    | none => rfl
    | some x =>
      have hfirst : choose (some e) (q.bucket .limit (some e)) = some x := by
        simp [choose, hf]
      rwa [limitFor, getOne, hfirst] at h

end Statement

/-- The select that computes the aggregate is the statement itself: nothing is taken from it, and
the aggregate is called on one column. -/
structure Query.ComputesItself (e : Engine) (q : Query) : Prop where
  limit : q.limitFor (some e) = .ok 0
  group : q.has .group (some e) = false
  order : q.has .order (some e) = false
  columns : ∃ found, q.getOne .aggregate ClauseKind.aggregate? (some e) = .ok found ∧
    ∀ a ∈ found, a.columns.length = 1 ∧ q.distinct = false

namespace Query.ComputesItself

variable {e : Engine} {q : Query} (h : q.ComputesItself e)

include h

theorem sameRows_unpaged : q.unpaged.SameRows e q where
  distinct := rfl
  vars := rfl
  scope := rfl
  bucket component hl _ := by
    have hempty (hb : q.bucket component (some e) = []) :
        q.unpaged.bucket component (some e) = q.bucket component (some e) := by
      rw [hb]
      exact Statement.bucket_clear_eq_nil
        (Statement.bucket_clear_eq_nil (Statement.bucket_clear_eq_nil hb))
    by_cases ho : component = .order
    · subst ho
      exact hempty (Statement.bucket_eq_nil h.order)
    by_cases hg : component = .group
    · subst hg
      exact hempty (Statement.bucket_eq_nil h.group)
    exact q.bucket_unpaged_of_ne hl ho hg _

theorem samePage_unpaged : q.unpaged.SamePage e q where
  limit := by
    have hbucket : q.unpaged.bucket .limit (some e) =
        (q.clear .limit none).bucket .limit (some e) := by
      rw [unpaged, Statement.bucket_clear_of_ne _ (by decide),
        Statement.bucket_clear_of_ne _ (by decide)]
    have hclear := Statement.limitFor_clear h.limit
    rw [Statement.limitFor] at hclear ⊢
    rw [Statement.getOne_congr hbucket, hclear, h.limit]
  offset := q.offsetFor_unpaged _

end Query.ComputesItself

namespace Compiler

variable {c : Compiler} {q : Query} {outer : Scopes}

variable (c) in
def alone (q : Query) (outer : Scopes) : Except Fault Fragment := do
  let q ← q.aggregated c.engine
  c.select (c.prepare q) outer

theorem assemble_aggregate (hm : q.method = .aggregate)
    (hc : q.has .cte (some c.engine) = false) : c.assemble q = c.alone q [] := by
  have hbody : c.body q = c.alone q [] := by
    rw [body, hm]
    rfl
  rw [assemble_of_noCte hc, hbody]

theorem alone_of_computesItself (h : q.ComputesItself c.engine) (outer : Scopes) :
    c.alone q outer = c.select (c.prepare q) outer := by
  have hunpaged : c.select (c.prepare q.unpaged) outer = c.select (c.prepare q) outer :=
    select_congr h.sameRows_unpaged h.samePage_unpaged outer
  obtain ⟨found, hfound, hone⟩ := h.columns
  rw [← hunpaged, alone, Query.aggregated, Query.getOne_aggregate_unpaged, hfound]
  cases found with
  | none => rfl
  | some a =>
    obtain ⟨hlength, hdistinct⟩ := hone a rfl
    have hone : a.columns.length = 1 ∧ (!q.unpaged.distinct) = true := ⟨hlength, by
      show (!q.distinct) = true
      rw [hdistinct]
      rfl⟩
    show (if _ then Except.ok q.unpaged else _) >>= _ = _
    rw [if_pos hone]
    rfl

end Compiler

/-- To the engine, the first statement is the second one without limits, orders and groups. -/
structure Statement.Flattens {σ : Type} (e : Engine) (p q : Statement σ) : Prop where
  distinct : p.distinct = q.distinct
  vars : p.vars = q.vars
  bucket : ∀ component, component ≠ .limit → component ≠ .order → component ≠ .group →
    p.bucket component (some e) = q.bucket component (some e)
  unlimited : p.bucket .limit (some e) = []
  unordered : p.bucket .order (some e) = []
  ungrouped : p.bucket .group (some e) = []

theorem Query.flattens_unpaged {e : Engine} {q : Query} (h : q.addsFor e = true) :
    q.unpaged.Flattens e q where
  distinct := rfl
  vars := rfl
  bucket _ hl ho hg := q.bucket_unpaged_of_ne hl ho hg _
  unlimited := bucket_unpaged_eq_nil h (.inl rfl)
  unordered := bucket_unpaged_eq_nil h (.inr (.inl rfl))
  ungrouped := bucket_unpaged_eq_nil h (.inr (.inr rfl))

theorem Statement.Flattens.map {σ τ : Type} {e : Engine} {p q : Statement σ}
    (h : p.Flattens e q) (f : σ → τ) : (p.map f).Flattens e (q.map f) where
  distinct := h.distinct
  vars := h.vars
  bucket component hl ho hg := by rw [bucket_map, bucket_map, h.bucket component hl ho hg]
  unlimited := by rw [bucket_map, h.unlimited, List.map_nil]
  unordered := by rw [bucket_map, h.unordered, List.map_nil]
  ungrouped := by rw [bucket_map, h.ungrouped, List.map_nil]

theorem Window.bound_clause {w : Window} (h : w.limit ≠ 0) (e : Engine) (ordered : Bool) :
    1 ≤ (w.clause e ordered).bound.length := by
  have hbasic : 1 ≤ w.basic.bound.length := by
    unfold basic
    rw [if_neg h]
    split
    · exact Nat.le_refl 1
    · exact Nat.le_succ 1
  have hlimit (all : String) : 1 ≤ (w.withLimit all).bound.length := by
    rwa [withLimit, if_neg fun hw => h hw.1]
  have hfetch : 1 ≤ (w.fetch ordered).bound.length := by
    rw [fetch, if_neg fun hw => h hw.1, if_neg h]
    exact Nat.le_succ 1
  cases e with
  | mySql => exact hlimit _
  | sqlite => exact hlimit _
  | sqlServer => exact hfetch
  | _ => exact hbasic

namespace Compiler

variable {c : Compiler} {p q : Statement Rendering} {ss outer : Scopes}

theorem bound_columns_page {l : UInt64} {columns : String}
    (hw : q.window (some c.engine) = .ok ⟨l, 0⟩) (hl : l ≠ 0)
    (hcolumns : (c.columns ss q).outcome = .ok columns) :
    (c.basicColumns ss q).bound.length + 1 ≤
      (c.columns ss q).bound.length + (c.page q).bound.length := by
  by_cases hlegacy : c.engine = .sqlServer ∧ c.legacyPaging = true
  · cases hb : (c.basicColumns ss q).outcome with
    | error e =>
      rw [Compiler.columns, if_pos hlegacy, hb] at hcolumns
      cases hb.symm.trans hcolumns
    | ok sql =>
      let basic : Fragment := ⟨sql, (c.basicColumns ss q).bound⟩
      have hbasic : c.basicColumns ss q = ⟨basic.bindings, .ok basic.sql⟩ := Emit.eq_mk hb
      rw [columns_eq_top hw hlegacy hl rfl hbasic, hbasic]
      simp
  · rw [columns_eq_basic hw (.inl hlegacy), c.page_eq hlegacy, hw, Emit.lift_ok_bind]
    have hclause := Window.bound_clause (w := ⟨l, 0⟩) hl c.engine (q.has .order (some c.engine))
    omega

theorem has_eq_false_of_terms {α : Type} {as? : ClauseKind Rendering → Option α}
    {component : Component} {term : α → Emit String} {keyword : String} (hk : keyword ≠ "")
    {part : Option String}
    (h : (do
      let xs ← Emit.lift (q.getAll component as? (some c.engine))
      if xs.isEmpty then return none
      else
        let texts ← xs.mapM term
        return some (keyword ++ ", ".intercalate texts)).outcome = .ok part)
    (ht : trailing [part] = "") : q.has component (some c.engine) = false := by
  by_contra hhas
  have hne := (q.has_eq_true_iff component (some c.engine)).mp (Bool.not_eq_false _ ▸ hhas)
  obtain ⟨xs, hxs, h⟩ := Emit.bind_eq_ok h
  have hall := Statement.getAll_eq_ok.mp hxs
  have hempty : xs.isEmpty = false := by
    cases xs with
    | nil => exact absurd (List.forall₂_nil_right_iff.mp hall) hne
    | cons _ _ => rfl
  rw [hempty] at h
  obtain ⟨texts, -, h⟩ := Emit.bind_eq_ok h
  cases h
  rw [trailing_some (by simp [hk])] at ht
  simp at ht

theorem length_trailing (xs ys : List (Option String)) (groups order page last : Option String) :
    (trailing (xs ++ groups :: ys ++ [order, page, last])).length = (trailing xs).length +
      (trailing [groups]).length + (trailing ys).length + (trailing [order]).length +
        (trailing [page]).length + (trailing [last]).length := by
  have hlist : xs ++ groups :: ys ++ [order, page, last] =
      xs ++ ([groups] ++ (ys ++ ([order] ++ ([page] ++ [last])))) := by simp
  rw [hlist]
  simp only [trailing_append, String.length_append]
  omega

section Flattened

variable (h : p.Flattens c.engine q)

include h

theorem window_of_flattens (ho : q.offsetFor (some c.engine) = .ok 0) :
    p.window (some c.engine) = .ok ⟨0, 0⟩ := by
  have hlimit : p.limitFor (some c.engine) = .ok 0 := by
    rw [Statement.limitFor, Statement.getOne, h.unlimited]
    rfl
  have hbucket := h.bucket .offset (by decide) (by decide) (by decide)
  rw [Statement.offsetFor, ← Statement.getOne_congr hbucket, ← Statement.offsetFor] at ho
  rw [Statement.window, hlimit, ho]
  rfl

theorem orders_of_flattens : c.orders p = pure none := by
  rw [orders, Statement.getAll, h.unordered]
  rfl

theorem columns_of_flattens (hw : p.window (some c.engine) = .ok ⟨0, 0⟩) :
    c.columns (p.vars :: outer) p = c.basicColumns (q.vars :: outer) q := by
  rw [columns_eq_basic hw (.inr (.inl rfl)), h.vars]
  exact basicColumns_congr h.distinct (h.bucket _ (by decide) (by decide) (by decide))
    (h.bucket _ (by decide) (by decide) (by decide))

theorem combinations_of_flattens :
    c.combinations (p.vars :: outer) p = c.combinations (q.vars :: outer) q := by
  rw [h.vars]
  exact combinations_congr (h.bucket _ (by decide) (by decide) (by decide))

theorem middle_of_flattens {parts : List (Option String)}
    (hm : (c.middle ss q).outcome = .ok parts) :
    ∃ before groups after, parts = before ++ groups :: after ∧
      (c.groups ss q).outcome = .ok groups ∧
      (c.middle ss p).outcome = .ok (before ++ none :: after) ∧
      (c.middle ss p).bound.length ≤ (c.middle ss q).bound.length := by
  obtain ⟨bound, hq⟩ : ∃ bound, c.middle ss q = ⟨bound, .ok parts⟩ := ⟨_, Emit.eq_mk hm⟩
  rw [hq]
  unfold middle at hq
  obtain ⟨tb, table, _, htable, hafter, rfl⟩ := Emit.bind_eq_mk hq
  obtain ⟨jb, joins, _, hjoins, hrest, rfl⟩ := Emit.bind_eq_mk hafter
  obtain ⟨wb, wheres, _, hwheres, hlast, rfl⟩ := Emit.bind_eq_mk hrest
  obtain ⟨gb, groups, _, hgroups, hend, rfl⟩ := Emit.bind_eq_mk hlast
  obtain ⟨hb, having, _, hhaving, hparts, rfl⟩ := Emit.bind_eq_mk hend
  cases hparts
  have hbucket {component : Component} (hl : component ≠ .limit) (ho : component ≠ .order)
      (hg : component ≠ .group) := h.bucket component hl ho hg
  have hsource := hbucket (by decide : Component.source ≠ _) (by decide) (by decide)
  have hfilter := hbucket (by decide : Component.filter ≠ _) (by decide) (by decide)
  have hnone : c.groups ss p = pure none := by
    rw [Compiler.groups, Statement.getAll, h.ungrouped]
    rfl
  have hp : c.middle ss p =
      ⟨tb ++ (jb ++ (wb ++ hb)), .ok [some table, joins, wheres, none, having]⟩ := by
    rw [middle, table_congr hsource, htable,
      joins_congr (hbucket (by decide) (by decide) (by decide)), hjoins,
      wheres_congr hsource hfilter, hwheres, hnone,
      having_congr (hbucket (by decide) (by decide) (by decide)), hhaving]
    simp only [Emit.mk_ok_bind, pure_bind, Emit.bound_pure, Emit.outcome_pure, List.append_nil]
  refine ⟨[some table, joins, wheres], groups, [having], rfl, congrArg Emit.outcome hgroups, ?_, ?_⟩
  · rw [hp]
    rfl
  · rw [hp]
    simp only [List.length_append]
    omega

theorem arrangement_of_select_eq (ho : q.offsetFor (some c.engine) = .ok 0) {f : Fragment}
    (hq : c.select q outer = .ok f) (hp : c.select p outer = .ok f) :
    q.limitFor (some c.engine) = .ok 0 ∧ q.has .group (some c.engine) = false ∧
      q.has .order (some c.engine) = false := by
  have hwp := window_of_flattens h ho
  rw [c.select_of_noOffset ho] at hq
  rw [c.select_of_noOffset (Statement.window_eq_ok hwp).2] at hp
  obtain ⟨⟨limit, offset⟩, hw⟩ := exists_window_of_basicSelect hq
  obtain ⟨hlimit, hoffset⟩ := Statement.window_eq_ok hw
  obtain rfl : 0 = offset := Except.ok.inj (ho.symm.trans hoffset)
  obtain ⟨columns, _, order, page, combinations, hcolumns, hmiddle, horder, hpage,
    hcombinations, hsql, -⟩ := exists_pieces hq
  obtain ⟨before, groups, after, rfl, hgroups, hmiddle_p, hle⟩ := middle_of_flattens h hmiddle
  rw [← h.vars] at hmiddle_p hle
  obtain rfl : limit = 0 := by
    by_contra hne
    have hbound := (bound_basicSelect hq).symm.trans (bound_basicSelect hp)
    rw [columns_of_flattens h hwp, orders_of_flattens h, page_of_noWindow hwp,
      combinations_of_flattens h] at hbound
    have hmore := bound_columns_page hw hne hcolumns
    have hlength := congrArg List.length hbound
    simp only [List.length_append, Emit.bound_pure, List.length_nil] at hlength
    rw [h.vars] at hle hlength
    omega
  obtain ⟨_, _, _, _, _, hcolumns', hmiddle', horder', hpage', hcombinations', hsql', -⟩ :=
    exists_pieces hp
  rw [columns_of_flattens h hwp, ← columns_eq_basic hw (.inr (.inl rfl)), hcolumns] at hcolumns'
  rw [hmiddle_p] at hmiddle'
  rw [orders_of_flattens h] at horder'
  rw [page_of_noWindow hwp] at hpage'
  rw [page_of_noWindow hw] at hpage
  rw [combinations_of_flattens h, hcombinations] at hcombinations'
  cases hcolumns'
  cases hmiddle'
  cases horder'
  cases hpage'
  cases hpage
  cases hcombinations'
  have hlength := congrArg String.length (hsql.symm.trans hsql')
  rw [String.length_append, String.length_append, length_trailing, length_trailing,
    trailing_none] at hlength
  have hnogroups : (trailing [groups]).length = 0 := by simp at hlength; omega
  have hnoorder : (trailing [order]).length = 0 := by simp at hlength; omega
  refine ⟨hlimit, ?_, ?_⟩
  · exact has_eq_false_of_terms (by decide) hgroups (String.length_eq_zero_iff.mp hnogroups)
  · exact has_eq_false_of_terms (by decide) horder (String.length_eq_zero_iff.mp hnoorder)

end Flattened

/-- The word up to the next space behind the keyword of a select. -/
def FirstWord (sql word : String) : Prop :=
  ' ' ∉ word.toList ∧ ∃ rest, sql = "SELECT " ++ (word ++ (" " ++ rest))

theorem FirstWord.unique {sql word word' : String} (h : FirstWord sql word)
    (h' : FirstWord sql word') : word = word' := by
  obtain ⟨hword, rest, rfl⟩ := h
  obtain ⟨hword', rest', heq⟩ := h'
  have htake (text more : String) (ht : ' ' ∉ text.toList) :
      (text ++ (" " ++ more)).toList.takeWhile (· ≠ ' ') = text.toList := by
    have hall (x : Char) (hx : x ∈ text.toList) : decide (x ≠ ' ') = true := by
      simpa using fun hs : x = ' ' => ht (hs ▸ hx)
    rw [String.toList_append, List.takeWhile_append_of_pos hall]
    simp
  have hsame := (String.append_right_inj _).mp heq
  rw [← String.toList_inj, ← htake word rest hword, hsame, htake word' rest' hword']

theorem FirstWord.append {sql word : String} (h : FirstWord sql word) (more : String) :
    FirstWord (sql ++ more) word := by
  obtain ⟨hword, rest, rfl⟩ := h
  exact ⟨hword, rest ++ more, by simp only [String.append_assoc]⟩

theorem exists_table_of_middle {parts : List (Option String)}
    (h : (c.middle ss q).outcome = .ok parts) :
    ∃ table rest, parts = some ("FROM " ++ table) :: rest := by
  unfold middle at h
  obtain ⟨text, htext, h⟩ := Emit.bind_eq_ok h
  obtain ⟨joins, -, h⟩ := Emit.bind_eq_ok h
  obtain ⟨wheres, -, h⟩ := Emit.bind_eq_ok h
  obtain ⟨groups, -, h⟩ := Emit.bind_eq_ok h
  obtain ⟨having, -, h⟩ := Emit.bind_eq_ok h
  obtain ⟨source, -, htext⟩ := Emit.bind_eq_ok htext
  obtain ⟨table, -, htext⟩ := Emit.bind_eq_ok htext
  cases h
  cases htext
  exact ⟨table, _, rfl⟩

theorem firstWord_insertTop {sql : String} (h : Reading.IsSelect sql) :
    ∃ word, FirstWord (insertTop sql) word ∧ '(' ∉ word.toList := by
  obtain ⟨keywords, rest, hk, -, htext⟩ := insertTop_eq h
  have hopen : "TOP (?)" = "TOP" ++ (" " ++ "(?)") := rfl
  have hkeyword : "SELECT DISTINCT" = "SELECT " ++ "DISTINCT" := rfl
  have hspace : "SELECT" ++ " " = "SELECT " := rfl
  rw [htext]
  rcases hk with rfl | rfl
  · refine ⟨"TOP", ⟨by decide, "(?)" ++ rest, ?_⟩, by decide⟩
    rw [hspace, hopen]
    simp only [String.append_assoc]
  · refine ⟨"DISTINCT", ⟨by decide, "TOP (?)" ++ rest, ?_⟩, by decide⟩
    rw [hkeyword]
    simp only [String.append_assoc]

section Words

variable {function : String} (hs : ' ' ∉ function.toList)

include hs

theorem space_not_mem_call {call : String} (hc : ' ' ∉ call.toList) :
    ' ' ∉ (Text.upper function ++ call).toList := by
  rw [String.toList_append, List.mem_append, Text.mem_upper (by decide)]
  exact not_or.mpr ⟨hs, hc⟩

theorem firstWord_aroundAggregate (rows : Fragment) :
    FirstWord (c.aroundAggregate function rows).sql (Text.upper function ++ "(*)") := by
  have hstar : c.engine.wrap "*" = "*" := by cases c.engine <;> rfl
  have hcall : "(*)" = "(" ++ ("*" ++ ")") := rfl
  have hclose : ") " = ")" ++ " " := rfl
  refine ⟨space_not_mem_call hs (by decide), ?_⟩
  rw [aroundAggregate, aggregateCall]
  dsimp only
  rw [hstar, hcall, hclose]
  simp only [Bool.false_eq_true, if_false, String.empty_append, String.append_assoc]
  exact ⟨_, rfl⟩

theorem firstWord_distinctCall (name : String) :
    FirstWord (c.aggregateCall true ⟨function, [name]⟩) (Text.upper function ++ "(DISTINCT") := by
  have hopen : "(DISTINCT" = "(" ++ "DISTINCT" := rfl
  have hspace : "DISTINCT " = "DISTINCT" ++ " " := rfl
  refine ⟨space_not_mem_call hs (by decide), ?_⟩
  rw [aggregateCall, hopen]
  dsimp only
  rw [if_pos rfl, hspace]
  simp only [String.append_assoc]
  exact ⟨_, rfl⟩

omit hs in
theorem firstWord_constantCall {columns : List String} (hlength : columns.length ≠ 1)
    (distinct : Bool) (table : String) (parts : List (Option String)) :
    FirstWord (c.aggregateCall distinct ⟨function, columns⟩ ++
      trailing (some ("FROM " ++ table) :: parts)) "1" := by
  have hconstant : c.aggregateCall distinct ⟨function, columns⟩ = "SELECT " ++ "1" := by
    unfold aggregateCall
    split
    · next hname => exact absurd (congrArg List.length hname) hlength
    · rfl
  have htable : "FROM " ++ table ≠ "" := by simp
  refine ⟨by decide, ?_⟩
  rw [hconstant, ← List.singleton_append, trailing_append, trailing_some htable]
  exact ⟨_, by simp only [String.append_assoc]; rfl⟩

/-- The select of a call on other than one column, or on distinct ones, begins in another way than
the select of the aggregate over its rows. -/
theorem firstWord_of_call {columns : List String} {f : Fragment}
    (ha : q.getOne .aggregate ClauseKind.aggregate? (some c.engine) =
      .ok (some ⟨function, columns⟩))
    (hone : ¬(columns.length = 1 ∧ q.distinct = false))
    (ho : q.offsetFor (some c.engine) = .ok 0) (hf : c.select q outer = .ok f) :
    ∃ word, FirstWord f.sql word ∧ word ≠ Text.upper function ++ "(*)" := by
  have hnocall {word : String} (hno : '(' ∉ word.toList) :
      word ≠ Text.upper function ++ "(*)" := by
    rintro rfl
    exact hno (by simp)
  rw [c.select_of_noOffset ho] at hf
  obtain ⟨⟨limit, offset⟩, hw⟩ := exists_window_of_basicSelect hf
  obtain ⟨-, hoffset⟩ := Statement.window_eq_ok hw
  obtain rfl : 0 = offset := Except.ok.inj (ho.symm.trans hoffset)
  obtain ⟨text, _, order, page, combinations, hcolumns, hmiddle, -, -, -, hsql, -⟩ :=
    exists_pieces hf
  let call : Fragment := ⟨c.aggregateCall q.distinct ⟨function, columns⟩, []⟩
  have hbasic : c.basicColumns (q.vars :: outer) q = ⟨call.bindings, .ok call.sql⟩ := by
    rw [basicColumns, ha]
    rfl
  rw [hsql]
  by_cases htop : (c.engine = .sqlServer ∧ c.legacyPaging = true) ∧ limit ≠ 0
  · rw [columns_eq_top hw htop.1 htop.2 rfl hbasic] at hcolumns
    cases hcolumns
    obtain ⟨word, hword, hno⟩ := firstWord_insertTop (isSelect_basicColumns (congrArg _ hbasic))
    exact ⟨word, hword.append _, hnocall hno⟩
  · have hno : ¬(c.engine = .sqlServer ∧ c.legacyPaging = true) ∨ limit = 0 ∨ (0 : UInt64) ≠ 0 := by
      tauto
    rw [columns_eq_basic hw hno, hbasic] at hcolumns
    cases hcolumns
    by_cases hlength : columns.length = 1
    · obtain ⟨name, rfl⟩ := List.length_eq_one_iff.mp hlength
      have hdistinct : q.distinct = true := by simpa using hone
      have hcall : call.sql = c.aggregateCall true ⟨function, [name]⟩ := by rw [← hdistinct]
      rw [hcall]
      refine ⟨_, (firstWord_distinctCall hs name).append _, fun heq => ?_⟩
      exact absurd ((String.append_right_inj _).mp heq) (by decide)
    · obtain ⟨table, parts, rfl⟩ := exists_table_of_middle hmiddle
      exact ⟨"1", firstWord_constantCall hlength _ table _, hnocall (by decide)⟩

end Words

section Alone

variable {q : Query}

theorem alone_eq_ok {g : Fragment} (h : c.alone q outer = .ok g) :
    ∃ found, q.getOne .aggregate ClauseKind.aggregate? (some c.engine) = .ok found ∧
      ((∀ a ∈ found, a.columns.length = 1 ∧ q.distinct = false) ∧
          c.select (c.prepare q.unpaged) outer = .ok g ∨
        ∃ a rows, found = some a ∧ ¬(a.columns.length = 1 ∧ q.distinct = false) ∧
          g = c.aroundAggregate a.function rows) := by
  obtain ⟨p, hp, h⟩ := bind_eq_ok h
  obtain ⟨found, hfound, hp⟩ := bind_eq_ok hp
  rw [Query.getOne_aggregate_unpaged] at hfound
  refine ⟨found, hfound, ?_⟩
  cases found with
  | none =>
    cases hp
    exact .inl ⟨nofun, h⟩
  | some a =>
    have hdistinct : q.unpaged.distinct = q.distinct := rfl
    dsimp only at hp
    simp only [hdistinct, Bool.not_eq_true'] at hp
    split at hp
    · next hone =>
      cases hp
      refine .inl ⟨?_, h⟩
      rintro _ ⟨⟩
      exact hone
    · next hone =>
      cases hp
      rw [select_aggregateOver] at h
      cases hrows : c.select (c.prepare (q.unpaged.counted c.engine a.columns)) ([] :: outer) with
      | error e =>
        rw [hrows] at h
        cases h
      | ok rows =>
        rw [hrows] at h
        cases h
        exact .inr ⟨a, rows, rfl, hone, rfl⟩

/-- Inside another statement an aggregate is rendered as it is by itself, in the scopes of its
place, if nothing of it changes then; and only if so, where it passes over no rows. -/
theorem embedded_eq_alone_iff (c : Compiler) (q : Query) (outer : Scopes) :
    (q.method = .aggregate → q.has .cte (some c.engine) = false →
      c.assemble q = c.alone q []) ∧
    (q.ComputesItself c.engine → (c.rendering (.of q)).select outer = c.alone q outer) ∧
    ∀ f g, q.addsFor c.engine = true → q.offsetFor (some c.engine) = .ok 0 →
      (∀ a, q.getOne .aggregate ClauseKind.aggregate? (some c.engine) = .ok (some a) →
        ' ' ∉ a.function.toList) →
      (c.rendering (.of q)).select outer = .ok f → c.alone q outer = .ok g →
      (f = g ↔ q.ComputesItself c.engine) := by
  have hrendering : (c.rendering (.of q)).select outer = c.select (c.prepare q) outer := by
    rw [rendering_of]
  rw [hrendering]
  refine ⟨assemble_aggregate, fun h => (alone_of_computesItself h outer).symm, ?_⟩
  intro f g hadds ho hspace hf hg
  refine ⟨?_, fun h => ?_⟩
  · rintro rfl
    obtain ⟨found, hfound, halone⟩ := alone_eq_ok hg
    have hoffset : (c.prepare q).offsetFor (some c.engine) = .ok 0 :=
      (q.offsetFor_map _ _).trans ho
    rcases halone with ⟨hone, hunpaged⟩ | ⟨a, rows, rfl, hone, rfl⟩
    · have hflat := (Query.flattens_unpaged hadds).map c.rendering
      obtain ⟨hlimit, hgroup, horder⟩ := arrangement_of_select_eq hflat hoffset hf hunpaged
      exact ⟨(q.limitFor_map _ _).symm.trans hlimit, (q.has_map _ _ _).symm.trans hgroup,
        (q.has_map _ _ _).symm.trans horder, found, hfound, hone⟩
    · have hs := hspace a hfound
      have hprepared : (c.prepare q).getOne .aggregate ClauseKind.aggregate? (some c.engine) =
          .ok (some a) := by
        refine (q.getOne_map _ _ (ClauseKind.aggregate?_map c.rendering)).trans ?_
        rw [hfound]
        rfl
      obtain ⟨word, hword, hne⟩ := firstWord_of_call hs hprepared hone hoffset hf
      exact absurd (hword.unique (firstWord_aroundAggregate hs rows)) hne
  · rw [← alone_of_computesItself h outer, hg] at hf
    exact (Except.ok.inj hf).symm

def countedOrders : Query := (Query.table "orders").aggregate "count" ["day", "total"]

def totalOfOrders : Query := (Query.table "orders").aggregate "sum" ["total"]

theorem embedded_eq_alone_iff_orders :
    totalOfOrders.ComputesItself .generic ∧
      ((ofEngine .generic).rendering (.of totalOfOrders)).select [[]] =
        (ofEngine .generic).alone totalOfOrders [[]] ∧
      ∃ f g, ((ofEngine .generic).rendering (.of countedOrders)).select [[]] = .ok f ∧
        (ofEngine .generic).alone countedOrders [[]] = .ok g ∧ f ≠ g ∧
        (ofEngine .generic).assemble countedOrders =
          (ofEngine .generic).alone countedOrders [] := by
  have htotal : totalOfOrders.ComputesItself .generic := by
    refine ⟨rfl, rfl, rfl, some ⟨"sum", ["total"]⟩, rfl, ?_⟩
    rintro _ ⟨⟩
    exact ⟨rfl, rfl⟩
  obtain ⟨-, hsame, -⟩ := embedded_eq_alone_iff (ofEngine .generic) totalOfOrders [[]]
  obtain ⟨hassemble, -, hiff⟩ := embedded_eq_alone_iff (ofEngine .generic) countedOrders [[]]
  have hcounted : ¬countedOrders.ComputesItself .generic := by
    rintro ⟨-, -, -, found, hfound, hone⟩
    cases hfound
    exact absurd (hone ⟨"count", ["day", "total"]⟩ rfl).1 (by decide)
  refine ⟨htotal, hsame htotal, ⟨"SELECT 1 FROM \"orders\"", []⟩, _, rfl, rfl, fun heq => ?_,
    hassemble rfl rfl⟩
  refine hcounted ((hiff _ _ rfl rfl ?_ rfl rfl).mp heq)
  rintro a ⟨⟩
  decide

theorem embedded_count_is_constant :
    ¬∀ (q : Query) (outer : Scopes), q.method = .aggregate → q.has .cte (some .generic) = false →
      ((ofEngine .generic).rendering (.of q)).select outer = (ofEngine .generic).alone q outer := by
  intro hall
  have hsame := hall countedOrders [[]] rfl rfl
  have hembedded : (((ofEngine .generic).rendering (.of countedOrders)).select [[]]).toOption.map
      (·.sql) = some "SELECT 1 FROM \"orders\"" := by decide +kernel
  have halone : ((ofEngine .generic).alone countedOrders [[]]).toOption.map (·.sql) =
      some ("SELECT COUNT(*) AS \"count\" FROM (SELECT * FROM \"orders\" WHERE \"day\" " ++
        "IS NOT NULL AND \"total\" IS NOT NULL) AS \"countQuery\"") := by decide +kernel
  rw [hsame, halone] at hembedded
  exact absurd (Option.some.inj hembedded) (by decide)

end Alone

end Compiler

end SqlDialects
