import SqlDialects.Proofs.Outcome.Phases
import SqlDialects.Proofs.Placeholder.Batch
import SqlDialects.Proofs.Placeholder.Fill
import SqlDialects.Proofs.Placeholder.Order
import SqlDialects.Proofs.Select.Parts

/-!
Fragments one behind the other, with their values. The arrays of each are expanded by themselves,
and what a statement compiles to is its whole fragment expanded.
-/

namespace SqlDialects

open Text

namespace Fragment

variable {a b a' f : Fragment}

theorem append_left_cancel {c : Fragment} (h : a ++ b = a ++ c) : b = c := by
  obtain ⟨bsql, bbound⟩ := b
  obtain ⟨csql, cbound⟩ := c
  have hsql : a.sql ++ bsql = a.sql ++ csql := congrArg Fragment.sql h
  have hbound : a.bindings ++ bbound = a.bindings ++ cbound := congrArg Fragment.bindings h
  rw [(String.append_right_inj a.sql).mp hsql, List.append_cancel_left hbound]

def ofText (text : String) : Fragment := ⟨text, []⟩

theorem expand_ofText {text : String} (h : Unmarked text) :
    (ofText text).expand = .ok (ofText text) :=
  expand_eq_ok.mpr ⟨expandMarkers_of_unmarked h, rfl⟩

theorem exists_expand (h : marks a.sql = a.bindings.length) : ∃ a', a.expand = .ok a' := by
  obtain ⟨text, ht⟩ := Compiler.expandMarkers_of_marks h
  exact ⟨⟨text, a.bindings⟩, expand_eq_ok.mpr ⟨ht, rfl⟩⟩

theorem marks_of_expand (h : a.expand = .ok a') : marks a.sql = a.bindings.length :=
  (expandMarkers_eq_ok.mp (expand_eq_ok.mp h).1).1

theorem expand_append {b' : Fragment} (ha : a.expand = .ok a') (hb : b.expand = .ok b') :
    (a ++ b).expand = .ok (a' ++ b') := by
  rw [expand_eq_ok] at *
  exact ⟨expandMarkers_append ha.1 hb.1, congrArg₂ (· ++ ·) ha.2 hb.2⟩

/-- Behind a fragment with as many placeholders as values another one is expanded by itself. -/
theorem expand_append_eq_ok (ha : a.expand = .ok a') :
    (a ++ b).expand = .ok f ↔ ∃ b', b.expand = .ok b' ∧ f = a' ++ b' := by
  constructor
  · intro h
    have hmarks := marks_of_expand h
    rw [sql_append, bindings_append, marks_append, List.length_append, marks_of_expand ha] at hmarks
    obtain ⟨b', hb⟩ := exists_expand (Nat.add_left_cancel hmarks)
    rw [expand_append ha hb] at h
    exact ⟨b', hb, (Except.ok.inj h).symm⟩
  · rintro ⟨b', hb, rfl⟩
    exact expand_append ha hb

theorem expand_eq_error {e : Fault} (h : a.expand = .error e) :
    ∃ markers bindings, e = .markerMismatch markers bindings := by
  unfold expand expandMarkers at h
  dsimp only at h
  split at h
  · cases h
    exact ⟨_, _, rfl⟩
  · cases h

end Fragment

open Fragment

theorem Emit.toFragment_led {α : Type} {bound : List Value} {a : α} {x : Emit α}
    (hx : x = ⟨bound, .ok a⟩) (lead : α → String) (w : Emit String) :
    (do
      let a ← x
      let text ← w
      return lead a ++ text : Emit String).toFragment =
      w.toFragment.map ((⟨lead a, bound⟩ : Fragment) ++ ·) := by
  obtain ⟨wbound, outcome⟩ := w
  rw [hx, mk_ok_bind]
  cases outcome with
  | error e => rfl
  | ok text =>
    simp only [mk_ok_bind, toFragment, Except.map, bound_pure, List.append_nil]
    rfl

theorem Text.fill_self (m : Char) (i : Nat) (text : List Char) :
    fill m (fun _ => [m]) i text = text := by
  induction text generalizing i with
  | nil => rfl
  | cons c text ih =>
    by_cases hc : c = m
    · rw [hc, fill_cons_self, ih, List.singleton_append]
    · rw [fill_cons_of_ne hc, ih]

theorem Fragment.expand_plain {f r : Fragment} (h : f.expand = .ok r)
    (hplain : ∀ v ∈ f.bindings, ∀ items, v ≠ .array items) : r = f := by
  obtain ⟨hexpand, hbindings⟩ := expand_eq_ok.mp h
  obtain ⟨-, htext⟩ := expandMarkers_eq_ok.mp hexpand
  have hmarker (i : Nat) : (expandMarker "?" f.bindings[i]?).toList = ['?'] := by
    unfold expandMarker
    split
    · next items hi => exact absurd rfl (hplain _ (List.mem_of_getElem? hi) items)
    · rfl
  have hsql : r.sql = f.sql := by
    rw [← String.toList_inj, htext, funext hmarker, fill_self]
  obtain ⟨sql, bindings⟩ := r
  cases hsql
  cases hbindings
  rfl

namespace Compiler

variable {c : Compiler} {p : Query} {f : Fragment}

def Compiles (c : Compiler) (q : Query) (f : Fragment) : Prop :=
  ∃ r, c.compile q = .ok r ∧ r.rawSql = f.sql ∧ r.bindings = f.bindings

theorem compiles_iff_compileRaw : c.Compiles p f ↔ c.compileRaw p = .ok f := by
  constructor
  · rintro ⟨r, hr, hsql, hbindings⟩
    obtain ⟨g, hg, rfl⟩ := compile_eq_ok.mp hr
    obtain ⟨sql, bindings⟩ := f
    cases hsql
    cases hbindings
    exact hg
  · intro h
    exact ⟨_, compile_eq_ok.mpr ⟨f, h, rfl⟩, rfl, rfl⟩

theorem exists_assembled {r : Compiled} (h : c.compile p = .ok r) :
    ∃ whole, c.assemble p = .ok whole ∧ whole.expand = .ok ⟨r.rawSql, r.bindings⟩ ∧
      ((∀ v ∈ r.bindings, ∀ items, v ≠ .array items) → r.rawSql = whole.sql) := by
  obtain ⟨whole, hwhole, hexpand⟩ := assembled_of_compile h
  refine ⟨whole, hwhole, hexpand, fun hplain => ?_⟩
  have hbindings := (expand_eq_ok.mp hexpand).2
  exact congrArg Fragment.sql (expand_plain hexpand (hbindings ▸ hplain))

end Compiler

end SqlDialects
