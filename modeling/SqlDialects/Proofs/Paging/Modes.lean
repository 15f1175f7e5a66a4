import SqlDialects.Proofs.Cte.Prologue
import SqlDialects.Proofs.Paging.Offset
import SqlDialects.Proofs.Placeholder.Expand
import SqlDialects.Proofs.Visibility.Foreign

/-!
The two ways of paging. Only SQL Server has an old one and a new one, and only for a select that
asks for a page. Main statement: unless a statement, or one nested in it, asks SQL Server for a
page, it compiles to the same in both, or in neither.
-/

namespace SqlDialects

variable {σ τ : Type} {e : Engine}

def Clause.pageNumber (d : Clause σ) : UInt64 :=
  match d.component with
  | .limit => d.kind.limit?.getD 0
  | .offset => d.kind.offset?.getD 0
  | _ => 0

/-- The clause asks for a page: it is a limit or an offset that the engine sees, and not zero. -/
def Clause.asksPage (e : Engine) (d : Clause σ) : Bool := d.pageNumber != 0 && d.isFor e

/-- Neither the statement nor any that is nested in it asks for a page. Groups of conditions count
among these, though the limit and the offset of a group are never rendered. -/
def Query.Pageless (e : Engine) (q : Query) : Prop := ∀ d, q.Contains d → d.asksPage e = false

def Statement.AsksNoPage (e : Engine) (P : σ → Prop) (q : Statement σ) : Prop :=
  ∀ d ∈ q.clauses, d.asksPage e = false ∧ ∀ n ∈ d.kind.nested, P n

theorem Query.pageless_iff {q : Query} :
    q.Pageless e ↔ q.AsksNoPage e fun n => n.statement.Pageless e := Query.forall_contains

namespace Statement

variable {P : σ → Prop} {q : Statement σ} (h : q.AsksNoPage e P)

include h

theorem AsksNoPage.eq_zero {component : Component} {as? : ClauseKind σ → Option UInt64}
    (hnumber : ∀ d : Clause σ, d.component = component → ∀ n, as? d.kind = some n →
      d.pageNumber = n) {n : UInt64}
    (hn : (q.getOne component as? (some e)).map (·.getD 0) = .ok n) : n = 0 := by
  obtain ⟨found, hfound, rfl⟩ := map_eq_ok hn
  cases found with
  | none => rfl
  | some m =>
    obtain ⟨d, hd, hm⟩ := getOne_eq_some.mp hfound
    obtain ⟨hmem, hvisible⟩ := mem_bucket.mp (mem_of_choose hd)
    simp only [Clause.visible, Bool.and_eq_true, beq_iff_eq, Option.isNone_some,
      Bool.or_false] at hvisible
    have hasks := (h d hmem).1
    rw [Clause.asksPage, hnumber d hvisible.1 m hm] at hasks
    simpa [Clause.isFor, hvisible.2] using hasks

theorem AsksNoPage.offset_eq_zero {n : UInt64} (hn : q.offsetFor (some e) = .ok n) : n = 0 :=
  h.eq_zero (fun d hc m hm => by rw [Clause.pageNumber, hc, hm]; rfl) hn

theorem AsksNoPage.window {w : Window} (hw : q.window (some e) = .ok w) : w = ⟨0, 0⟩ := by
  obtain ⟨hlimit, hoffset⟩ := window_eq_ok hw
  have hzero : w.limit = 0 :=
    h.eq_zero (fun d hc m hm => by rw [Clause.pageNumber, hc, hm]; rfl) hlimit
  exact congrArg₂ Window.mk hzero (h.offset_eq_zero hoffset)

theorem AsksNoPage.map {f : σ → τ} : (q.map f).AsksNoPage e fun _ => True := by
  intro d hd
  obtain ⟨d, hmem, rfl⟩ := List.mem_map.mp hd
  refine ⟨?_, fun _ _ => trivial⟩
  have hnumber : (d.map f).pageNumber = d.pageNumber := by
    simp [Clause.pageNumber, Clause.map]
  rw [Clause.asksPage, hnumber]
  exact (h d hmem).1

theorem AsksNoPage.congr {p : Statement σ} (hc : p.clauses = q.clauses) : p.AsksNoPage e P := by
  rwa [AsksNoPage, hc]

theorem AsksNoPage.clear (component : Component) (engine : Option Engine) :
    (q.clear component engine).AsksNoPage e P := fun d hd => h d (List.mem_of_mem_filter hd)

theorem AsksNoPage.add {component : Component} {kind : ClauseKind σ}
    (hl : component ≠ .limit) (ho : component ≠ .offset) (hk : ∀ n ∈ kind.nested, P n) :
    (q.add component kind).AsksNoPage e P := by
  intro d hd
  rcases List.mem_append.mp hd with hd | hd
  · exact h d hd
  · obtain rfl := List.mem_singleton.mp hd
    refine ⟨?_, hk⟩
    cases component with
    | limit => exact absurd rfl hl
    | offset => exact absurd rfl ho
    | _ => rfl

theorem AsksNoPage.addColumns (names : List String) : (q.addColumns names).AsksNoPage e P := by
  induction names generalizing q with
  | nil => exact h
  | cons name names ih =>
    have hadd : (q.addColumn (.named name)).AsksNoPage e P := h.add (by decide) (by decide) nofun
    exact ih hadd

theorem AsksNoPage.nullTests (columns : List String) :
    (columns.foldl (fun q name => (notNext q).addCondition .filter (.isNull name)) q).AsksNoPage
      e P := by
  induction columns generalizing q with
  | nil => exact h
  | cons name columns ih =>
    have hnot : q.notNext.AsksNoPage e P := h.congr rfl
    have hadd : (q.notNext.add .filter
        (.condition ⟨.isNull name, q.notNext.pendingOr, q.notNext.pendingNot⟩)).AsksNoPage e P :=
      hnot.add (by decide) (by decide) nofun
    exact ih (hadd.congr rfl)

end Statement

namespace Query

variable {q : Query} (h : q.Pageless e)

include h

theorem Pageless.nested {n : Subquery} (hn : n ∈ q.nested) : n.statement.Pageless e := by
  obtain ⟨d, hd, hm⟩ := Statement.mem_nested.mp hn
  exact (pageless_iff.mp h d hd).2 n hm

theorem Pageless.unpaged : q.unpaged.Pageless e :=
  pageless_iff.mpr ((((pageless_iff.mp h).clear _ _).clear _ _).clear _ _)

theorem Pageless.counted (columns : List String) : (q.counted e columns).Pageless e := by
  have hinner : Statement.AsksNoPage e (fun n : Subquery => n.statement.Pageless e)
      { q.clear .aggregate (some e) with method := .select } :=
    ((pageless_iff.mp h).clear .aggregate (some e)).congr rfl
  refine pageless_iff.mpr ?_
  unfold Query.counted
  generalize { q.clear .aggregate (some e) with method := .select } = inner at hinner ⊢
  dsimp only
  split
  · exact (hinner.clear .select (some e)).addColumns _
  · exact hinner.nullTests columns

theorem Pageless.aggregateOver (function : String) :
    (Query.aggregateOver function q).Pageless e := by
  refine pageless_iff.mpr fun d hd => ?_
  rcases List.mem_cons.mp hd with rfl | hd
  · exact ⟨rfl, nofun⟩
  · obtain rfl := List.mem_singleton.mp hd
    refine ⟨rfl, fun n hn => ?_⟩
    obtain rfl := List.mem_singleton.mp hn
    exact pageless_iff.mpr ((pageless_iff.mp h).congr rfl)

theorem Pageless.aggregated {p : Query} (hp : q.aggregated e = .ok p) : p.Pageless e := by
  obtain ⟨found, -, hfound⟩ := bind_eq_ok hp
  cases found with
  | none =>
    cases hfound
    exact h.unpaged
  | some a =>
    dsimp only at hfound
    split at hfound
    · cases hfound
      exact h.unpaged
    · cases hfound
      exact (h.unpaged.counted a.columns).aggregateOver a.function

end Query

/-- Renderings that succeed together, with equal values. -/
def sameSuccess : Tie where
  value := Eq
  bound := Eq
  vars := Eq
  scopes := Eq
  fault _ _ := True
  spared _ := False

theorem sameSuccess_iff {x y : Except Fault Fragment} :
    sameSuccess.Yields sameSuccess.Fragments x y ↔ ∀ f, x = .ok f ↔ y = .ok f := by
  constructor
  · rintro (hfg | _ | hs) f
    · rw [hfg.eq rfl]
    · exact ⟨nofun, nofun⟩
    · exact hs.elim
  · intro h
    cases x with
    | ok f =>
      rw [(h f).mp rfl]
      exact .ok ⟨rfl, List.forall₂_same.mpr fun _ _ => rfl⟩
    | error e =>
      cases y with
      | ok g => cases (h g).mpr rfl
      | error e' => exact .error trivial

namespace Compiler

variable (c : Compiler)

theorem holds_sameSuccess : sameSuccess.Holds c c where
  engine := rfl
  paging := rfl
  fault _ := trivial
  uint _ := rfl
  noVars := rfl
  noScopes := rfl
  push := by
    rintro vs _ ss _ rfl rfl
    rfl
  operator _ := .refl (fun _ => trivial) _
  parameter := by
    rintro ss _ v _ rfl rfl
    exact .refl (fun _ => trivial) fun _ _ => rfl
  like := by
    rintro ss _ v _ rfl rfl
    exact fun _ _ _ _ _ => .refl (fun _ => trivial) fun _ _ => rfl

def inMode (legacy : Bool) : Compiler := { c with legacyPaging := legacy }

theorem engine_inMode (legacy : Bool) : (c.inMode legacy).engine = c.engine := rfl

variable {c} {legacy : Bool} {outer : Scopes}

theorem basicSelect_inMode {q : Statement Rendering}
    (hcolumns : ∀ ss, (c.inMode legacy).columns ss q = c.columns ss q)
    (hpage : (c.inMode legacy).page q = c.page q) :
    (c.inMode legacy).basicSelect q outer = c.basicSelect q outer := by
  rw [basicSelect, basicSelect, selectText_eq, selectText_eq, hcolumns, hpage]
  rfl

theorem select_inMode_of_ne (h : c.engine ≠ .sqlServer) (q : Statement Rendering) :
    (c.inMode legacy).select q outer = c.select q outer := by
  have hmodern : ¬(c.engine = .sqlServer ∧ c.legacyPaging = true) := fun hl => h hl.1
  have hmodern' : ¬((c.inMode legacy).engine = .sqlServer ∧
      (c.inMode legacy).legacyPaging = true) := fun hl => h hl.1
  have hselect : c.select q outer = c.basicSelect q outer := if_neg hmodern
  have hselect' : (c.inMode legacy).select q outer = (c.inMode legacy).basicSelect q outer :=
    if_neg hmodern'
  rw [hselect, hselect']
  refine basicSelect_inMode (fun ss => ?_) ?_
  · have hcolumns : c.columns ss q = c.basicColumns ss q := if_neg hmodern
    rw [hcolumns]
    exact if_neg hmodern'
  · rw [page_eq _ hmodern', page_eq c hmodern]
    rfl

theorem select_inMode_of_noWindow {q : Statement Rendering}
    (h : q.window (some c.engine) = .ok ⟨0, 0⟩) :
    (c.inMode legacy).select q outer = c.select q outer := by
  have hoffset := (Statement.window_eq_ok h).2
  rw [c.select_of_noOffset hoffset, (c.inMode legacy).select_of_noOffset hoffset]
  refine basicSelect_inMode (fun ss => ?_) ?_
  · rw [columns_eq_basic h (.inr (.inl rfl)), columns_eq_basic (c := c.inMode legacy) h
      (.inr (.inl rfl))]
    rfl
  · rw [page_of_noWindow h, page_of_noWindow (c := c.inMode legacy) h]

theorem window_of_select {q : Statement Rendering} {P : Rendering → Prop}
    (h : q.AsksNoPage c.engine P) {f : Fragment} (hf : c.select q outer = .ok f) :
    q.window (some c.engine) = .ok ⟨0, 0⟩ := by
  obtain ⟨offset, hoffset⟩ := exists_offset_of_select hf
  rw [h.offset_eq_zero hoffset] at hoffset
  rw [c.select_of_noOffset hoffset] at hf
  obtain ⟨w, hw⟩ := exists_window_of_basicSelect hf
  rw [hw, h.window hw]

theorem select_inMode_eq_ok {q : Statement Rendering} {P : Rendering → Prop}
    (h : c.engine = .sqlServer → q.AsksNoPage .sqlServer P) {f : Fragment} :
    c.select q outer = .ok f ↔ (c.inMode legacy).select q outer = .ok f := by
  by_cases he : c.engine = .sqlServer
  · -- Success on either side shows that the window can be read, and that it is empty.
    have hq : q.AsksNoPage c.engine P := he ▸ h he
    constructor
    · intro hf
      rwa [select_inMode_of_noWindow (window_of_select hq hf)]
    · intro hf
      have hw := window_of_select (c := c.inMode legacy) hq hf
      rwa [select_inMode_of_noWindow (c := c) hw] at hf
  · rw [select_inMode_of_ne he]

theorem alike_prepare_inMode {q : Query}
    (h : ∀ n ∈ q.nested,
      Rendering.Alike sameSuccess (c.rendering n) ((c.inMode legacy).rendering n)) :
    (c.prepare q).Alike sameSuccess c.engine (Rendering.Alike sameSuccess)
      ((c.inMode legacy).prepare q) := by
  have hself : q.Alike sameSuccess c.engine Eq q :=
    .refl (fun _ _ _ _ => rfl) (fun _ _ _ _ => rfl) rfl fun _ _ => rfl
  exact hself.map fun n hn m hm => hm ▸ h n hn

theorem select_prepare_inMode {q : Query} (h : c.engine = .sqlServer → q.Pageless .sqlServer)
    (hq : ∀ n ∈ q.nested,
      Rendering.Alike sameSuccess (c.rendering n) ((c.inMode legacy).rendering n)) (ss : Scopes) :
    sameSuccess.Yields sameSuccess.Fragments (c.select (c.prepare q) ss)
      ((c.inMode legacy).select ((c.inMode legacy).prepare q) ss) := by
  have hsame : sameSuccess.Yields sameSuccess.Fragments (c.select (c.prepare q) ss)
      (c.select ((c.inMode legacy).prepare q) ss) :=
    c.holds_sameSuccess.select rfl (alike_prepare_inMode hq)
  refine sameSuccess_iff.mpr fun f => (sameSuccess_iff.mp hsame f).trans ?_
  exact select_inMode_eq_ok fun he => (Query.pageless_iff.mp (h he)).map

theorem alike_rendering_inMode (n : Subquery)
    (h : c.engine = .sqlServer → n.statement.Pageless .sqlServer) :
    Rendering.Alike sameSuccess (c.rendering n) ((c.inMode legacy).rendering n) := by
  induction n using Subquery.induction with
  | step q ih =>
    have hnested (n : Subquery) (hn : n ∈ q.nested) := ih n hn fun he => (h he).nested hn
    have hprepared := alike_prepare_inMode hnested
    rw [rendering_of, rendering_of]
    exact {
      aliasName := rfl
      select := by
        rintro ss _ rfl
        exact select_prepare_inMode h hnested ss
      conditions := by
        rintro ss _ rfl
        exact c.holds_sameSuccess.filterText rfl hprepared
      joined := by
        rintro ss _ rfl
        exact c.holds_sameSuccess.joinedTable rfl hprepared }

section Statement

variable {q : Query} (h : c.engine = .sqlServer → q.Pageless .sqlServer)

include h

theorem body_inMode :
    sameSuccess.Yields sameSuccess.Fragments (c.body q) ((c.inMode legacy).body q) := by
  have hnested {p : Query} (hp : c.engine = .sqlServer → p.Pageless .sqlServer) (n : Subquery)
      (hn : n ∈ p.nested) :
      Rendering.Alike sameSuccess (c.rendering n) ((c.inMode legacy).rendering n) :=
    alike_rendering_inMode n fun he => (hp he).nested hn
  have hprepared := alike_prepare_inMode (hnested h)
  unfold body
  cases q.method with
  | select => exact select_prepare_inMode h (hnested h) []
  | aggregate =>
    dsimp only
    show sameSuccess.Yields _ (q.aggregated c.engine >>= fun p => c.select (c.prepare p) [])
      (q.aggregated c.engine >>= fun p =>
        (c.inMode legacy).select ((c.inMode legacy).prepare p) [])
    cases hp : q.aggregated c.engine with
    | error e => exact .error trivial
    | ok p =>
      have hpageless (he : c.engine = .sqlServer) : p.Pageless .sqlServer :=
        (h he).aggregated (he ▸ hp)
      exact select_prepare_inMode hpageless (hnested hpageless) []
  | insert => exact (c.holds_sameSuccess.insertText rfl hprepared).toFragment
  | update => exact (c.holds_sameSuccess.updateText rfl hprepared .update).toFragment
  | assign => exact (c.holds_sameSuccess.updateText rfl hprepared .assign).toFragment
  | delete => exact (c.holds_sameSuccess.deleteText rfl hprepared).toFragment

theorem cteDefinition_inMode {s : Source Subquery} (hs : Defines c.engine q s) :
    sameSuccess.Yields sameSuccess.Fragments (c.cteDefinition q s)
      ((c.inMode legacy).cteDefinition q s) := by
  unfold cteDefinition
  cases s.alias? with
  | none => exact .error trivial
  | some name =>
    dsimp only
    split
    · exact .error trivial
    · cases s with
      | table => exact .error trivial
      | raw sql bindings => exact sameSuccess_iff.mpr fun _ => .rfl
      | query body aliasName =>
        have hpageless (he : c.engine = .sqlServer) : body.statement.Pageless .sqlServer :=
          hs.body (P := fun n => n.statement.Pageless .sqlServer)
            (fun p hp n hn => Query.Pageless.nested hp hn) (fun n hn => (h he).nested hn) rfl
        have hbody :
            Rendering.Alike sameSuccess (c.rendering body) ((c.inMode legacy).rendering body) :=
          alike_rendering_inMode body hpageless
        refine (hbody.select rfl).bind fun f g hfg => ?_
        obtain rfl := hfg.eq rfl
        exact sameSuccess_iff.mpr fun _ => .rfl

theorem front_inMode :
    sameSuccess.Yields sameSuccess.Fragments (c.front q) ((c.inMode legacy).front q) := by
  unfold front
  rw [engine_inMode]
  cases hs : q.ctes c.engine with
  | error e => exact .error trivial
  | ok sources =>
    have hsources : List.Forall₂ (fun s s' => s = s' ∧ s ∈ sources) sources sources :=
      List.forall₂_same.mpr fun s hmem => ⟨rfl, hmem⟩
    have hdefinitions : sameSuccess.Yields (List.Forall₂ sameSuccess.Fragments)
        (sources.mapM (c.cteDefinition q))
        (sources.mapM ((c.inMode legacy).cteDefinition q)) := by
      refine Tie.Yields.mapM hsources ?_
      rintro s _ ⟨rfl, hmem⟩
      exact cteDefinition_inMode h (defines_of_mem_ctes hs hmem)
    exact hdefinitions.bind fun fs gs hfs => .ok (.defining hfs)

theorem assemble_inMode :
    sameSuccess.Yields sameSuccess.Fragments (c.assemble q) ((c.inMode legacy).assemble q) := by
  rw [assemble_eq, assemble_eq]
  refine (body_inMode h).bind fun f g hfg => ?_
  exact (front_inMode h).bind fun a b hab => .ok (hab.append hfg)

theorem compileRaw_inMode (f : Fragment) :
    c.compileRaw q = .ok f ↔ (c.inMode legacy).compileRaw q = .ok f := by
  have hraw : sameSuccess.Yields sameSuccess.Fragments (c.assemble q >>= Fragment.expand)
      ((c.inMode legacy).assemble q >>= Fragment.expand) := by
    refine (assemble_inMode h).bind fun f g hfg => ?_
    obtain rfl := hfg.eq rfl
    exact sameSuccess_iff.mpr fun _ => .rfl
  rw [compileRaw_eq, compileRaw_eq]
  exact sameSuccess_iff.mp hraw f

end Statement

/-- Compilers that differ in how SQL Server pages compile the same statements to the same results,
unless they are for SQL Server and the statement, or one nested in it, asks for a page. -/
theorem compile_legacyPaging_iff (c : Compiler) (legacy : Bool) (q : Query)
    (h : c.engine = .sqlServer → q.Pageless .sqlServer) (r : Compiled) :
    c.compile q = .ok r ↔ ({ c with legacyPaging := legacy } : Compiler).compile q = .ok r := by
  have hraw (f : Fragment) : c.compileRaw q = .ok f ↔
      ({ c with legacyPaging := legacy } : Compiler).compileRaw q = .ok f :=
    compileRaw_inMode h f
  rw [compile_eq_ok, compile_eq_ok]
  exact exists_congr fun f => and_congr_left fun _ => hraw f

def pagedElsewhere : Query where
  clauses := [
    ⟨.source, none, .source (.query (.of {
      clauses := [⟨.source, none, .source (.table "orders")⟩, ⟨.limit, some .mySql, .limit 10⟩,
        ⟨.offset, some .mySql, .offset 20⟩] }) (some "o"))⟩,
    ⟨.filter, none, .condition ⟨.oneOfQuery "o.id" (.of {
      clauses := [⟨.source, none, .source (.table "paid")⟩, ⟨.limit, none, .limit 0⟩] }),
      false, false⟩⟩,
    ⟨.offset, none, .offset 0⟩]

theorem compile_legacyPaging_iff_pagedElsewhere :
    pagedElsewhere.Pageless .sqlServer ∧
    ∃ r, (ofEngine .sqlServer).compile pagedElsewhere = .ok r ∧
      ({ ofEngine .sqlServer with legacyPaging := false } : Compiler).compile pagedElsewhere =
        .ok r ∧
      r.rawSql = "SELECT * FROM (SELECT * FROM [orders]) AS [o] " ++
        "WHERE [o].[id] IN (SELECT * FROM [paid])" := by
  have hpageless : pagedElsewhere.Pageless .sqlServer := by
    refine Query.forall_contains.mpr ?_
    simp only [List.forall_mem_cons, ClauseKind.nested, ClauseKind.parts,
      Source.parts, Predicate.parts, List.map_cons, List.map_nil,
      ↓Query.forall_contains]
    simp +decide [Clause.asksPage]
  have hsql : ((ofEngine .sqlServer).compile pagedElsewhere).toOption.map (·.rawSql) =
      some ("SELECT * FROM (SELECT * FROM [orders]) AS [o] " ++
        "WHERE [o].[id] IN (SELECT * FROM [paid])") := by decide +kernel
  obtain ⟨r, hr, hsql⟩ := exists_compiled hsql
  have hmodern := compile_legacyPaging_iff (ofEngine .sqlServer) false pagedElsewhere
    (fun _ => hpageless) r
  exact ⟨hpageless, r, hr, hmodern.mp hr, hsql⟩

end Compiler

end SqlDialects
