import SqlDialects.Proofs.Engines.Shared

/-!
Selects that leave nothing to what an engine does in its own way. Each part is rendered as for the
generic engine, and the page is if an offset comes with a limit.
-/

namespace SqlDialects

open Text

variable {σ : Type}

structure Statement.Shared (e : Engine) (f g : σ → Rendering) (q : Statement σ) : Prop where
  unscoped : q.Unscoped
  kinds : ∀ d ∈ q.clauses, d.kind.Shared e f g

def Statement.Paged (q : Statement σ) : Prop :=
  ∀ w, q.window none = .ok w → w.limit = 0 → w.offset = 0

namespace Compiler

variable {c : Compiler} {e : Engine} (he : e ∈ Engine.kin) {f g : σ → Rendering} (ss : Scopes)

section Lookup

variable {ε γ δ : Type} {q : Statement σ} {component : Component}

theorem mirrors_getAll {α : Type} (hq : q.Shared e f g) {as? : ClauseKind σ → Option ε}
    {bs? : ClauseKind Rendering → Option α} {l : (σ → Rendering) → ε → α} {kind : ε → ClauseKind σ}
    (hl : ∀ h k, bs? (k.map h) = (as? k).map (l h)) (hkind : ∀ k x, as? k = some x → k = kind x)
    {n : γ → δ} {k : List α → Emit γ} {k' : List α → Emit δ}
    (hk : ∀ xs : List ε, (∀ x ∈ xs, (kind x).Shared e f g) →
      (k (xs.map (l f))).Mirrors n (k' (xs.map (l g)))) :
    (Emit.lift ((q.map f).getAll component bs? (some .generic)) >>= k).Mirrors n
      (Emit.lift ((q.map g).getAll component bs? (some e)) >>= k') := by
  rw [q.getAll_map _ _ (hl f), q.getAll_map _ _ (hl g), hq.unscoped.getAll, hq.unscoped.getAll]
  cases hxs : q.getAll component as? none with
  | error e => rfl
  | ok xs =>
    refine hk xs fun x hx => ?_
    obtain ⟨d, hd, hx⟩ := Statement.mem_of_getAll hxs hx
    exact hkind _ _ hx ▸ hq.kinds d (Statement.mem_bucket.mp hd).1

theorem mirrors_getOne {α : Type} (hq : q.Shared e f g) {as? : ClauseKind σ → Option ε}
    {bs? : ClauseKind Rendering → Option α} {l : (σ → Rendering) → ε → α} {kind : ε → ClauseKind σ}
    (hl : ∀ h k, bs? (k.map h) = (as? k).map (l h)) (hkind : ∀ k x, as? k = some x → k = kind x)
    {n : γ → δ} {k : Option α → Emit γ} {k' : Option α → Emit δ}
    (hk : ∀ o : Option ε, (∀ x ∈ o, (kind x).Shared e f g) →
      (k (o.map (l f))).Mirrors n (k' (o.map (l g)))) :
    (Emit.lift ((q.map f).getOne component bs? (some .generic)) >>= k).Mirrors n
      (Emit.lift ((q.map g).getOne component bs? (some e)) >>= k') := by
  rw [q.getOne_map _ _ (hl f), q.getOne_map _ _ (hl g), hq.unscoped.getOne, hq.unscoped.getOne]
  cases ho : q.getOne component as? none with
  | error e => rfl
  | ok o =>
    refine hk o ?_
    rintro x ⟨⟩
    obtain ⟨d, hd, hx⟩ := Statement.getOne_eq_some.mp ho
    exact hkind _ _ hx ▸ hq.kinds d (Statement.mem_bucket.mp (Statement.mem_of_choose hd)).1

theorem mirrors_sourceFor (hq : q.Shared e f g) (operation : Operation) {n : γ → δ}
    {k : Source Rendering → Emit γ} {k' : Source Rendering → Emit δ}
    (hk : ∀ s : Source σ, (ClauseKind.source s).Shared e f g →
      (k (s.map f)).Mirrors n (k' (s.map g))) :
    (Emit.lift ((c.on .generic).sourceFor operation (q.map f)) >>= k).Mirrors n
      (Emit.lift ((c.on e).sourceFor operation (q.map g)) >>= k') := by
  have hfound (d : Engine) (h : σ → Rendering) : (c.on d).sourceFor operation (q.map h) =
      (q.getOne .source ClauseKind.source? none >>= fun o =>
        o.elim (.error (.missingTable operation)) fun s => .ok (s.map h)) := by
    unfold sourceFor
    rw [q.getOne_map _ _ (ClauseKind.source?_map h), hq.unscoped.getOne]
    cases q.getOne .source ClauseKind.source? none with
    | error e => rfl
    | ok o => cases o <;> rfl
  rw [hfound, hfound]
  cases ho : q.getOne .source ClauseKind.source? none with
  | error e => rfl
  | ok o =>
    cases o with
    | none => rfl
    | some s =>
      obtain ⟨d, hd, hs⟩ := Statement.getOne_eq_some.mp ho
      refine hk s ?_
      rw [← d.kind.source?_eq_some s hs]
      exact hq.kinds d (Statement.mem_bucket.mp (Statement.mem_of_choose hd)).1

end Lookup

section Parts

theorem mirrors_listed {ε α : Type} {l r : ε → α} {xs : List ε} {F G : α → Emit String}
    {keyword separator : String} (hk : '"' ∉ keyword.toList) (hs : '"' ∉ separator.toList)
    (h : ∀ x ∈ xs, (F (l x)).Mirrors e.requote (G (r x))) :
    Emit.Mirrors (Option.map e.requote)
      (if (xs.map l).isEmpty then pure none else do
        let texts ← (xs.map l).mapM F
        pure (some (keyword ++ separator.intercalate texts)))
      (if (xs.map r).isEmpty then pure none else do
        let texts ← (xs.map r).mapM G
        pure (some (keyword ++ separator.intercalate texts))) := by
  rw [List.isEmpty_map, List.isEmpty_map, List.mapM_map, List.mapM_map]
  split
  · exact Emit.mirrors_pure rfl
  · refine (Emit.Mirrors.mapM h).bind fun texts => Emit.mirrors_pure ?_
    rw [Option.map_some, Engine.requote_append, Engine.requote_unquoted hk,
      Engine.requote_intercalate hs]

theorem joinParts_requote (parts : List (Option String)) :
    joinParts (parts.map (Option.map e.requote)) = e.requote (joinParts parts) := by
  have hfilter (part : Option String) : (part.map e.requote).filter (!·.isEmpty) =
      (part.filter (!·.isEmpty)).map e.requote := by
    cases part with
    | none => rfl
    | some text =>
      rw [Option.map_some, Option.filter_some, Option.filter_some, Engine.isEmpty_requote]
      split <;> rfl
  rw [joinParts, joinParts, Engine.requote_intercalate (by decide), List.filterMap_map,
    List.map_filterMap]
  exact congrArg _ (congrArg (List.filterMap · parts) (funext hfilter))

include he

theorem alias_requote (blank : String → Bool) (names : Option String) :
    (∀ name ∈ names, e.Neutral name.toList) →
    (match names with
      | some name => if blank name then "" else " " ++ "AS " ++ (c.on e).engine.wrapValue name
      | none => "") =
    e.requote (match names with
      | some name =>
        if blank name then "" else " " ++ "AS " ++ (c.on .generic).engine.wrapValue name
      | none => "") := by
  intro hn
  cases names with
  | none => rfl
  | some name =>
    dsimp only
    split
    · rfl
    · rw [wrapValue_on he (hn name rfl)]
      simp +decide [Engine.requote_append, Engine.requote_unquoted]

omit he in
theorem mirrors_derived {r r' : Rendering} (hr : r.Mirrors e .select r') {suffix suffix' : String}
    (hs : suffix' = e.requote suffix) :
    Emit.Mirrors e.requote
      (do let sub ← Emit.embed (r.select ss); return "(" ++ sub ++ ")" ++ suffix)
      (do let sub ← Emit.embed (r'.select ss); return "(" ++ sub ++ ")" ++ suffix') := by
  refine (Emit.mirrors_embed (hr.select rfl ss)).bind fun sub => Emit.mirrors_pure ?_
  rw [hs]
  simp +decide [Engine.requote_append, Engine.requote_unquoted]

theorem mirrors_column {x : Column σ} (hx : (ClauseKind.column x).Shared e f g) :
    ((c.on .generic).column ss (x.map f)).Mirrors e.requote ((c.on e).column ss (x.map g)) := by
  obtain ⟨-, hterms, hparts⟩ := hx
  cases x with
  | named name => exact Emit.mirrors_pure (Engine.wrap_requote he hterms)
  | raw sql bindings => exact mirrors_rawText he hterms bindings
  | query q aliasName =>
    have hq := hparts _ (.head _)
    refine mirrors_derived ss hq ?_
    rw [hq.aliasName, columnAs_on, columnAs_on]
    exact alias_requote he (fun name => (trim name).isEmpty) _ (hq.names hterms.2)

theorem mirrors_tableExpression {s : Source σ} (hs : (ClauseKind.source s).Shared e f g) :
    ((c.on .generic).tableExpression ss (s.map f)).Mirrors e.requote
      ((c.on e).tableExpression ss (s.map g)) := by
  obtain ⟨-, hterms, hparts⟩ := hs
  cases s with
  | table name => exact Emit.mirrors_pure (Engine.wrap_requote he hterms)
  | raw sql bindings aliasName => exact mirrors_rawText he hterms.1 bindings
  | query q aliasName =>
    have hq := hparts _ (.head _)
    refine mirrors_derived ss hq ?_
    simp only [Source.aliasBy, Source.map]
    rw [hq.aliasName, tableAs_on, tableAs_on]
    exact alias_requote he (fun name => name.isEmpty) _ (hq.names hterms.2)

theorem aggregateCall_requote {a : Aggregate} (hf : e.Neutral a.function.toList)
    (hn : ∀ name ∈ a.columns, e.Neutral name.toList) (distinct : Bool) :
    (c.on e).aggregateCall distinct a = e.requote ((c.on .generic).aggregateCall distinct a) := by
  have hfunction : e.requote (upper a.function) = upper a.function := by
    rcases hf with h | ⟨h, -⟩
    · exact Engine.requote_of_opening h _
    · exact Engine.requote_unquoted fun hm => h ((mem_upper (by decide) a.function).mp hm)
  unfold aggregateCall
  split
  · next name hcolumns =>
    have hname := hn name (hcolumns ▸ List.mem_singleton.mpr rfl)
    rw [wrap_on he hname, wrapValue_on he hf, columnAs_on, columnAs_on]
    cases distinct <;>
      simp +decide [Engine.requote_append, Engine.requote_unquoted, hfunction]
  · exact (Engine.requote_unquoted (by decide)).symm

theorem mirrors_orderTerm {o : Order} (ho : (ClauseKind.order o : ClauseKind σ).Shared e f g) :
    ((c.on .generic).orderTerm o).Mirrors e.requote ((c.on e).orderTerm o) := by
  obtain ⟨hshares, hterms, -⟩ := ho
  cases o with
  | column name ascending =>
    refine Emit.mirrors_pure ?_
    rw [wrap_on he hterms.1]
    cases ascending <;> simp +decide [Engine.requote_append, Engine.requote_unquoted]
  | raw sql bindings => exact mirrors_rawText he hterms bindings
  | random seed =>
    have hrandom : ∀ e ∈ Engine.kin, e ≠ .mySql → e.randomOrder seed = "RANDOM()" := by
      intro e he hm
      rcases List.mem_cons.mp he with rfl | he
      · rfl
      · rcases List.mem_pair.mp he with rfl | rfl
        · rfl
        · exact absurd rfl hm
    refine Emit.mirrors_pure ((hrandom e he (by simpa [Engine.shares] using hshares)).trans ?_)
    exact (Engine.requote_unquoted (by decide)).symm

theorem mirrors_combination {x : Combine σ} (hx : (ClauseKind.combine x).Shared e f g) :
    ((c.on .generic).combination ss (x.map f)).Mirrors e.requote
      ((c.on e).combination ss (x.map g)) := by
  obtain ⟨-, hterms, hparts⟩ := hx
  cases x with
  | query operation all q =>
    refine (Emit.mirrors_embed ((hparts _ (.head _)).select rfl ss)).bind fun sub => ?_
    refine Emit.mirrors_pure ?_
    cases operation <;> cases all <;>
      simp +decide [Engine.requote_append, Engine.requote_unquoted, SetOperation.keyword]
  | raw sql bindings => exact mirrors_rawText he hterms bindings

end Parts

section Statements

variable {q : Statement σ} (hq : q.Shared e f g)

theorem mirrors_basic (w : Window) : w.basic.Mirrors (Option.map e.requote) w.basic := by
  have hpush (values : List Value) {text : String} (h : '"' ∉ text.toList) :
      Emit.Mirrors (Option.map e.requote) (do Emit.push values; return some text)
        (do Emit.push values; return some text) := by
    refine (Emit.mirrors_id _).bind fun _ => Emit.mirrors_pure ?_
    rw [Option.map_some, Engine.requote_unquoted h]
  unfold Window.basic
  split_ifs
  · exact Emit.mirrors_pure rfl
  · exact hpush _ (by decide)
  · exact hpush _ (by decide)
  · exact hpush _ (by decide)

include he hq

theorem mirrors_page (hw : e ≠ .postgres → q.Paged) :
    ((c.on .generic).page (q.map f)).Mirrors (Option.map e.requote)
      ((c.on e).page (q.map g)) := by
  have hwindow (h : σ → Rendering) (e' : Engine) :
      (q.map h).window (some e') = q.window none := by
    rw [Statement.window_map, hq.unscoped.window]
  have hlimit (hw : q.Paged) (all : String) :
      (Emit.lift (q.window none) >>= Window.basic).Mirrors (Option.map e.requote)
        (Emit.lift (q.window none) >>= Window.withLimit all) := by
    refine Emit.mirrors_lift fun w hwin => ?_
    have hboth : ¬(w.limit = 0 ∧ w.offset ≠ 0) := fun h => h.2 (hw w hwin h.1)
    rw [Window.withLimit, if_neg hboth]
    exact mirrors_basic w
  have hgeneric : (c.on .generic).page (q.map f) = Emit.lift (q.window none) >>= Window.basic := by
    rw [← hwindow f .generic]
    rfl
  rw [hgeneric]
  rcases List.mem_cons.mp he with rfl | he
  · have hown : (c.on .postgres).page (q.map g) = Emit.lift (q.window none) >>= Window.basic := by
      rw [← hwindow g .postgres]
      rfl
    rw [hown]
    exact Emit.mirrors_lift fun w _ => mirrors_basic w
  rcases List.mem_pair.mp he with rfl | rfl
  · have hown : (c.on .sqlite).page (q.map g) =
        Emit.lift (q.window none) >>= Window.withLimit "-1" := by
      rw [← hwindow g .sqlite]
      rfl
    rw [hown]
    exact hlimit (hw (by decide)) _
  · have hown : (c.on .mySql).page (q.map g) =
        Emit.lift (q.window none) >>= Window.withLimit "18446744073709551615" := by
      rw [← hwindow g .mySql]
      rfl
    rw [hown]
    exact hlimit (hw (by decide)) _

theorem mirrors_basicColumns :
    ((c.on .generic).basicColumns ss (q.map f)).Mirrors e.requote
      ((c.on e).basicColumns ss (q.map g)) := by
  refine mirrors_getOne hq (fun h => ClauseKind.aggregate?_map h) ClauseKind.aggregate?_eq_some
    fun o ho => ?_
  cases o with
  | some a =>
    obtain ⟨-, hterms, -⟩ := ho a rfl
    exact Emit.mirrors_pure (aggregateCall_requote he hterms.1 hterms.2 q.distinct)
  | none =>
    refine mirrors_getAll hq ClauseKind.column?_map ClauseKind.column?_eq_some fun xs hx => ?_
    rw [List.mapM_map, List.mapM_map]
    refine (Emit.Mirrors.mapM fun x hm => mirrors_column he ss (hx x hm)).bind fun texts => ?_
    refine Emit.mirrors_pure ?_
    have hlist : (if (texts.map e.requote).isEmpty then "*"
        else ", ".intercalate (texts.map e.requote)) =
          e.requote (if texts.isEmpty then "*" else ", ".intercalate texts) := by
      rw [List.isEmpty_map]
      split
      · exact (Engine.requote_unquoted (by decide)).symm
      · exact (Engine.requote_intercalate (by decide) texts).symm
    have hdistinct : e.requote (if q.distinct then "DISTINCT " else "") =
        if q.distinct then "DISTINCT " else "" :=
      Engine.requote_unquoted (by split <;> decide)
    have hselect : e.requote "SELECT " = "SELECT " := Engine.requote_unquoted (by decide)
    rw [hlist, Engine.requote_append, Engine.requote_append, hselect]
    exact congrArg (fun text => "SELECT " ++ text ++ _) hdistinct.symm

omit hq in
theorem not_legacy {p : Prop} :
    ¬((c.on e).engine = .sqlServer ∧ p) ∧ ¬((c.on .generic).engine = .sqlServer ∧ p) := by
  have hs : ∀ e ∈ Engine.kin, e ≠ .sqlServer := by decide
  exact ⟨fun h => hs e he h.1, nofun⟩

theorem mirrors_table :
    ((c.on .generic).table ss (q.map f)).Mirrors e.requote ((c.on e).table ss (q.map g)) := by
  refine mirrors_sourceFor hq .select fun s hs => ?_
  refine (mirrors_tableExpression he ss hs).bind fun text => Emit.mirrors_pure ?_
  have hfrom : e.requote "FROM " = "FROM " := Engine.requote_unquoted (by decide)
  rw [Engine.requote_append, hfrom]

theorem mirrors_filterText :
    ((c.on .generic).filterText ss (q.map f)).Mirrors e.requote
      ((c.on e).filterText ss (q.map g)) :=
  mirrors_getAll hq ClauseKind.condition?_map ClauseKind.condition?_eq_some
    fun _ hx => mirrors_conditions he ss hx

theorem mirrors_joinedTable :
    ((c.on .generic).joinedTable ss (q.map f)).Mirrors e.requote
      ((c.on e).joinedTable ss (q.map g)) := by
  refine mirrors_sourceFor hq .join fun s hs => ?_
  refine mirrors_getAll hq ClauseKind.condition?_map ClauseKind.condition?_eq_some fun xs hx => ?_
  refine (mirrors_tableExpression he ss hs).bind fun text => ?_
  refine (mirrors_conditions he ss hx).bind fun constraints => Emit.mirrors_pure ?_
  rw [Engine.isEmpty_requote]
  split
  · rfl
  · simp +decide [Engine.requote_append, Engine.requote_unquoted]

omit he in
theorem mirrors_joins :
    ((c.on .generic).joins ss (q.map f)).Mirrors (Option.map e.requote)
      ((c.on e).joins ss (q.map g)) := by
  refine mirrors_getAll hq ClauseKind.join?_map ClauseKind.join?_eq_some fun js hj => ?_
  refine mirrors_listed (by decide) (by decide) fun j hm => ?_
  refine (((hj j hm).parts _ (.head _)).joined rfl ss).bind fun text => Emit.mirrors_pure ?_
  obtain ⟨kind, target⟩ := j
  cases kind <;> simp +decide [Engine.requote_append, Engine.requote_unquoted, Join.map,
    JoinKind.keyword]

theorem mirrors_wheres :
    ((c.on .generic).wheres ss (q.map f)).Mirrors (Option.map e.requote)
      ((c.on e).wheres ss (q.map g)) := by
  have hhas (d : Engine) (h : σ → Rendering) (component : Component) :
      (q.map h).has component (some (c.on d).engine) = q.has component none := by
    rw [Statement.has_map, hq.unscoped.has]
  have hwhere : e.requote "WHERE " = "WHERE " := Engine.requote_unquoted (by decide)
  unfold wheres
  rw [hhas, hhas, hhas, hhas]
  split
  · refine (mirrors_filterText he ss hq).bind fun sql => Emit.mirrors_pure ?_
    rw [← Engine.requote_trim he, Engine.isEmpty_requote]
    split
    · rfl
    · rw [Option.map_some, Engine.requote_append, hwhere]
  · exact Emit.mirrors_pure rfl

theorem mirrors_groups :
    ((c.on .generic).groups ss (q.map f)).Mirrors (Option.map e.requote)
      ((c.on e).groups ss (q.map g)) := by
  refine mirrors_getAll hq ClauseKind.column?_map ClauseKind.column?_eq_some fun xs hx => ?_
  exact mirrors_listed (by decide) (by decide) fun x hm => mirrors_column he ss (hx x hm)

theorem mirrors_having :
    ((c.on .generic).having ss (q.map f)).Mirrors (Option.map e.requote)
      ((c.on e).having ss (q.map g)) := by
  have hhaving : e.requote "HAVING " = "HAVING " := Engine.requote_unquoted (by decide)
  refine mirrors_getAll hq ClauseKind.condition?_map ClauseKind.condition?_eq_some fun xs hx => ?_
  rw [List.isEmpty_map, List.isEmpty_map]
  split
  · exact Emit.mirrors_pure rfl
  · refine (mirrors_conditions he ss hx).bind fun sql => Emit.mirrors_pure ?_
    rw [Engine.isEmpty_requote]
    split
    · rfl
    · rw [Option.map_some, Engine.requote_append, hhaving]

theorem mirrors_orders :
    ((c.on .generic).orders (q.map f)).Mirrors (Option.map e.requote)
      ((c.on e).orders (q.map g)) := by
  refine mirrors_getAll hq (fun h => ClauseKind.order?_map h) ClauseKind.order?_eq_some
    fun os ho => ?_
  exact mirrors_listed (by decide) (by decide) fun o hm => mirrors_orderTerm he (ho o hm)

theorem mirrors_combinations :
    ((c.on .generic).combinations ss (q.map f)).Mirrors (Option.map e.requote)
      ((c.on e).combinations ss (q.map g)) := by
  refine mirrors_getAll hq ClauseKind.combine?_map ClauseKind.combine?_eq_some fun xs hx => ?_
  have hempty : '"' ∉ ("").toList := by decide
  have hspace : '"' ∉ (" ").toList := by decide
  have h := mirrors_listed hempty hspace
    fun x hm => mirrors_combination (c := c) he ss (hx x hm)
  simp only [String.empty_append] at h
  exact h

variable (hw : e ≠ .postgres → q.Paged)

include hw

theorem mirrors_selectText :
    ((c.on .generic).selectText ss (q.map f)).Mirrors e.requote
      ((c.on e).selectText ss (q.map g)) := by
  have hcolumns : ((c.on .generic).columns ss (q.map f)).Mirrors e.requote
      ((c.on e).columns ss (q.map g)) := by
    rw [columns, columns, if_neg (not_legacy he).2, if_neg (not_legacy he).1]
    exact mirrors_basicColumns he ss hq
  refine hcolumns.bind fun columns => ?_
  refine (mirrors_table he ss hq).bind fun table => ?_
  refine (mirrors_joins ss hq).bind fun joins => ?_
  refine (mirrors_wheres he ss hq).bind fun wheres => ?_
  refine (mirrors_groups he ss hq).bind fun groups => ?_
  refine (mirrors_having he ss hq).bind fun having => ?_
  refine (mirrors_orders he hq).bind fun orders => ?_
  refine (mirrors_page he hq hw).bind fun page => ?_
  refine (mirrors_combinations he ss hq).bind fun combinations => Emit.mirrors_pure ?_
  rw [← joinParts_requote]
  rfl

theorem select_requote (outer : Scopes) : (c.on e).select (q.map g) outer =
    ((c.on .generic).select (q.map f) outer).map (Fragment.requote e) := by
  rw [select, select, if_neg (not_legacy he).2, if_neg (not_legacy he).1]
  exact (mirrors_selectText he _ hq hw).toFragment

end Statements

end Compiler

end SqlDialects
