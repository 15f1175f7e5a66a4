import SqlDialects.Proofs.Select.SameRows

/-!
What an offset adds to the bindings of a select. However an engine passes rows over, it binds one
value more than the select of all rows.
-/

namespace SqlDialects

/-- To the engine, one statement passes over rows of the other, which are in no order. -/
structure Statement.PassesOver {σ : Type} (e : Engine) (offset : UInt64) (p q : Statement σ) :
    Prop where
  rows : p.SameRows e q
  adds : q.addsFor e = true
  offset_ne : offset ≠ 0
  window : p.window (some e) = .ok ⟨0, offset⟩
  whole : q.window (some e) = .ok ⟨0, 0⟩
  unordered : q.bucket .order (some e) = []

theorem Statement.PassesOver.map {σ τ : Type} {e : Engine} {offset : UInt64} {p q : Statement σ}
    (h : p.PassesOver e offset q) (f : σ → τ) : (p.map f).PassesOver e offset (q.map f) where
  rows := h.rows.map f
  adds := h.adds
  offset_ne := h.offset_ne
  window := (p.window_map f _).trans h.window
  whole := (q.window_map f _).trans h.whole
  unordered := by rw [bucket_map, h.unordered, List.map_nil]

namespace Compiler

variable {c : Compiler}

theorem bound_basicSelect {q : Statement Rendering} {outer : Scopes} {f : Fragment}
    (h : c.basicSelect q outer = .ok f) :
    f.bindings = (c.columns (q.vars :: outer) q).bound ++ ((c.middle (q.vars :: outer) q).bound ++
      ((c.orders q).bound ++ ((c.page q).bound ++
        (c.combinations (q.vars :: outer) q).bound))) := by
  obtain ⟨_, _, _, _, _, -, -, -, -, -, -, hbound⟩ := exists_pieces h
  exact hbound

theorem bound_page {q : Statement Rendering} {offset : UInt64}
    (hl : ¬(c.engine = .sqlServer ∧ c.legacyPaging = true))
    (hw : q.window (some c.engine) = .ok ⟨0, offset⟩) (ho : offset ≠ 0) :
    (c.page q).bound = [.uint offset] := by
  rw [c.page_eq hl, hw, Emit.lift_ok_bind]
  have hbasic : (Window.basic ⟨0, offset⟩).bound = [.uint offset] := by
    rw [Window.basic, if_pos rfl, if_neg ho]
    rfl
  have hlimit (all : String) : (Window.withLimit all ⟨0, offset⟩).bound = [.uint offset] := by
    rw [Window.withLimit, if_pos ⟨rfl, ho⟩]
    rfl
  have hfetch (ordered : Bool) : (Window.fetch ordered ⟨0, offset⟩).bound = [.uint offset] := by
    rw [Window.fetch, if_neg (by simp [ho]), if_pos rfl]
    rfl
  cases c.engine with
  | mySql => exact hlimit _
  | sqlite => exact hlimit _
  | sqlServer => exact hfetch _
  | _ => exact hbasic

theorem bound_basicColumns_of_aggregate {ss : Scopes} {q : Statement Rendering}
    (h : q.has .aggregate (some c.engine) = true) : (c.basicColumns ss q).bound = [] := by
  have hne := Statement.getOne_ne_none h ClauseKind.aggregate?
  unfold basicColumns
  cases hone : q.getOne .aggregate ClauseKind.aggregate? (some c.engine) with
  | error e => rfl
  | ok found =>
    cases found with
    | none => exact absurd hone hne
    | some a => rfl

theorem bound_basicColumns_numberRows {ss : Scopes} {q : Statement Rendering} {order : Fragment}
    (hc : c.engine = .sqlServer) (ha : q.addsFor c.engine = true) (ho : order.bindings = []) :
    (c.basicColumns ss (numberRows (q.starred c.engine) order)).bound =
      (c.basicColumns ss q).bound := by
  cases hagg : q.has .aggregate (some c.engine) with
  | false =>
    rw [basicColumns_numberRows hc hagg ha]
    refine Emit.bound_bind _ fun _ => ?_
    show order.bindings ++ [] = []
    rw [ho, List.append_nil]
  | true =>
    have hbucket : (numberRows (q.starred c.engine) order).bucket .aggregate (some c.engine) =
        q.bucket .aggregate (some c.engine) :=
      q.bucket_numberRows_of_ne _ _ (by decide) (by decide) _
    rw [bound_basicColumns_of_aggregate hagg,
      bound_basicColumns_of_aggregate ((Statement.has_congr hbucket).trans hagg)]

theorem bound_numberRows {q : Statement Rendering} {outer : Scopes} {w : Window}
    {order inner : Fragment} (hl : c.engine = .sqlServer ∧ c.legacyPaging = true)
    (hw : q.window (some c.engine) = .ok w) (ho : w.offset ≠ 0) (ha : q.addsFor c.engine = true)
    (hb : order.bindings = [])
    (h : c.basicSelect (numberRows (q.starred c.engine) order) outer = .ok inner) :
    inner.bindings = (c.basicColumns (q.vars :: outer) q).bound ++
      ((c.middle (q.vars :: outer) q).bound ++ (c.combinations (q.vars :: outer) q).bound) := by
  have hcombinations : c.combinations (q.vars :: outer) (numberRows (q.starred c.engine) order) =
      c.combinations (q.vars :: outer) q :=
    combinations_congr (q.bucket_numberRows_of_ne _ _ (by decide) (by decide) _)
  have hbound := bound_basicSelect h
  rw [Statement.vars_numberRows, columns_eq_basic (window_numberRows.trans hw) (.inr (.inr ho)),
    bound_basicColumns_numberRows hl.1 ha hb, middle_numberRows, orders_numberRows_of_adds ha,
    page_of_legacy hl, hcombinations] at hbound
  exact hbound

/-- One value more is bound to pass rows over. -/
theorem length_bindings_offset {p q : Statement Rendering} {outer : Scopes} {offset : UInt64}
    {f g : Fragment} (h : p.PassesOver c.engine offset q) (hf : c.select p outer = .ok f)
    (hg : c.select q outer = .ok g) : f.bindings.length = g.bindings.length + 1 := by
  obtain ⟨hrows, hadds, hne, hwindow, hwhole, hunordered⟩ := h
  have horders : c.orders q = pure none := by
    rw [orders, Statement.getAll, hunordered]
    rfl
  rw [c.select_of_noOffset (Statement.window_eq_ok hwhole).2] at hg
  have hgbound := bound_basicSelect hg
  rw [columns_eq_basic hwhole (.inr (.inl rfl)), horders, page_of_noWindow hwhole] at hgbound
  by_cases hl : c.engine = .sqlServer ∧ c.legacyPaging = true
  · rw [c.select_of_offset hl (Statement.window_eq_ok hwindow).2 hne, numberedSelect_eq hwindow,
      hrows.orders, horders] at hf
    obtain ⟨text, -, hnumbered⟩ := bind_eq_ok hf
    obtain ⟨inner, hinner, hover⟩ := bind_eq_ok hnumbered
    cases hover
    have hbound := bound_numberRows hl hwindow hne ((hrows.addsFor _).trans hadds) rfl hinner
    rw [hrows.basicColumns, hrows.middle, hrows.combinations, hrows.vars] at hbound
    have hsame : inner.bindings = g.bindings := hbound.trans hgbound.symm
    rw [← hsame]
    simp [Window.range]
  · have hselect : c.select p outer = c.basicSelect p outer := if_neg hl
    rw [hselect] at hf
    have hfbound := bound_basicSelect hf
    rw [columns_eq_basic hwindow (.inl hl), hrows.orders, horders, bound_page hl hwindow hne,
      hrows.basicColumns, hrows.middle, hrows.combinations, hrows.vars] at hfbound
    rw [hfbound, hgbound]
    simp only [List.length_append, List.length_cons, List.length_nil, Emit.bound_pure]
    omega

theorem exists_window_of_basicSelect {q : Statement Rendering} {outer : Scopes} {f : Fragment}
    (h : c.basicSelect q outer = .ok f) : ∃ w, q.window (some c.engine) = .ok w := by
  cases hw : q.window (some c.engine) with
  | ok w => exact ⟨w, rfl⟩
  | error e =>
    obtain ⟨_, _, _, _, _, hcolumns, -, -, hpage, -⟩ := exists_pieces h
    by_cases hl : c.engine = .sqlServer ∧ c.legacyPaging = true
    · rw [Compiler.columns, if_pos hl, hw] at hcolumns
      cases hb : (c.basicColumns (q.vars :: outer) q).outcome with
      | error _ =>
        rw [hb] at hcolumns
        cases hb.symm.trans hcolumns
      | ok _ =>
        rw [hb] at hcolumns
        cases hcolumns
    · rw [c.page_eq hl, hw] at hpage
      cases hpage

theorem exists_offset_of_select {q : Statement Rendering} {outer : Scopes} {f : Fragment}
    (h : c.select q outer = .ok f) : ∃ offset, q.offsetFor (some c.engine) = .ok offset := by
  by_cases hl : c.engine = .sqlServer ∧ c.legacyPaging = true
  · rw [select, if_pos hl] at h
    obtain ⟨offset, hoffset, -⟩ := bind_eq_ok h
    exact ⟨offset, hoffset⟩
  · have hselect : c.select q outer = c.basicSelect q outer := if_neg hl
    obtain ⟨w, hw⟩ := exists_window_of_basicSelect (hselect.symm.trans h)
    exact ⟨w.offset, (Statement.window_eq_ok hw).2⟩

end Compiler

end SqlDialects
