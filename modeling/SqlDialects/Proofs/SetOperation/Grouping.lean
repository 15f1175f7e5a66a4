import Mathlib.Data.Multiset.Dedup
import Mathlib.Data.Multiset.UnionInter
import SqlDialects.Statement.Kind

/-!
Set operations between operands, as a tree that says what is applied to what, and as a chain that
says only in which order they are written. SQL reads a chain as a tree: INTERSECT goes before UNION
and EXCEPT, and otherwise what is further left goes first. A tree that becomes a chain keeps its
rows where no more is regrouped than INTERSECTs or UNIONs of one kind.
-/

namespace SqlDialects

namespace SetOperation

/-- The rows of a set operation from those of its operands. Without ALL no row comes twice. -/
def rows {α : Type} [DecidableEq α] (operation : SetOperation) (all : Bool)
    (a b : Multiset α) : Multiset α :=
  match operation, all with
  | union, true => a + b
  | union, false => (a + b).dedup
  | except, true => a - b
  | except, false => a.dedup - b.dedup
  | intersect, true => a ∩ b
  | intersect, false => (a ∩ b).dedup

def copies (operation : SetOperation) (all : Bool) (m n : ℕ) : ℕ :=
  match operation, all with
  | union, true => m + n
  | union, false => min 1 (m + n)
  | except, true => m - n
  | except, false => min 1 m - min 1 n
  | intersect, true => min m n
  | intersect, false => min 1 (min m n)

variable {α : Type} [DecidableEq α]

theorem count_rows (operation : SetOperation) (all : Bool) (a b : Multiset α) (x : α) :
    (operation.rows all a b).count x = operation.copies all (a.count x) (b.count x) := by
  have hdedup (s : Multiset α) : s.dedup.count x = min 1 (s.count x) := by
    rw [Multiset.count_dedup]
    by_cases h : x ∈ s
    · rw [if_pos h, Nat.min_eq_left (Multiset.count_pos.mpr h)]
    · rw [if_neg h, Multiset.count_eq_zero.mpr h, Nat.min_zero]
  cases operation <;> cases all <;> simp [rows, copies, hdedup]

theorem rows_union_assoc (all : Bool) (a b c : Multiset α) :
    union.rows all (union.rows all a b) c = union.rows all a (union.rows all b c) := by
  refine Multiset.ext.mpr fun x => ?_
  simp only [count_rows]
  cases all <;> simp only [copies] <;> omega

theorem rows_intersect_assoc (all all' : Bool) (a b c : Multiset α) :
    intersect.rows all' (intersect.rows all a b) c =
      intersect.rows all a (intersect.rows all' b c) := by
  refine Multiset.ext.mpr fun x => ?_
  simp only [count_rows]
  cases all <;> cases all' <;> simp only [copies] <;> omega

end SetOperation

inductive SetTree (ι : Type) where
  | leaf (i : ι)
  | node (operation : SetOperation) (all : Bool) (left right : SetTree ι)
  deriving DecidableEq

structure SetLink (ι : Type) where
  operation : SetOperation
  all : Bool
  operand : ι

structure SetChain (ι : Type) where
  first : ι
  links : List (SetLink ι)

variable {ι κ : Type}

def SetLink.map (f : ι → κ) (x : SetLink ι) : SetLink κ := ⟨x.operation, x.all, f x.operand⟩

def SetChain.map (f : ι → κ) (ch : SetChain ι) : SetChain κ := ⟨f ch.first, ch.links.map (.map f)⟩

def SetLink.mapM (f : ι → Option κ) (x : SetLink ι) : Option (SetLink κ) :=
  (f x.operand).map (⟨x.operation, x.all, ·⟩)

def SetChain.mapM (f : ι → Option κ) (ch : SetChain ι) : Option (SetChain κ) := do
  let first ← f ch.first
  let links ← List.mapM (SetLink.mapM f) ch.links
  return ⟨first, links⟩

def SetChain.join (operation : SetOperation) (all : Bool) (a b : SetChain ι) : SetChain ι :=
  ⟨a.first, a.links ++ ⟨operation, all, b.first⟩ :: b.links⟩

theorem SetChain.join_join (operation operation' : SetOperation) (all all' : Bool)
    (a b c : SetChain ι) : (a.join operation all b).join operation' all' c =
      a.join operation all (b.join operation' all' c) := by
  simp [SetChain.join]

namespace SetTree

def rows {α : Type} [DecidableEq α] (table : ι → Multiset α) : SetTree ι → Multiset α
  | leaf i => table i
  | node operation all l r => operation.rows all (l.rows table) (r.rows table)

def map (f : ι → κ) : SetTree ι → SetTree κ
  | leaf i => leaf (f i)
  | node operation all l r => node operation all (l.map f) (r.map f)

def operands : SetTree ι → List ι
  | leaf i => [i]
  | node _ _ l r => l.operands ++ r.operands

def chain : SetTree ι → SetChain ι
  | leaf i => ⟨i, []⟩
  | node operation all l r => l.chain.join operation all r.chain

/-- The tree with one more operation behind it. From a UNION or EXCEPT in front of it, INTERSECT
takes the operand next to it. -/
def extend (t : SetTree ι) (x : SetLink ι) : SetTree ι :=
  match t with
  | leaf _ => node x.operation x.all t (leaf x.operand)
  | node operation all l r =>
    if x.operation = .intersect ∧ operation ≠ .intersect then
      node operation all l (node .intersect x.all r (leaf x.operand))
    else node x.operation x.all t (leaf x.operand)

end SetTree

/-- How SQL reads a chain. -/
def SetChain.tree (ch : SetChain ι) : SetTree ι := ch.links.foldl SetTree.extend (.leaf ch.first)

namespace SetTree

/-- How SQL reads the tree if its grouping is lost. -/
def regrouped (t : SetTree ι) : SetTree ι := t.chain.tree

/-- One operand, or nothing but INTERSECT from left to right. -/
inductive Factor : SetTree ι → Prop
  | leaf (i : ι) : Factor (leaf i)
  | node {t : SetTree ι} (h : Factor t) (all : Bool) (i : ι) :
      Factor (node .intersect all t (leaf i))

/-- Factors, with nothing but UNION and EXCEPT between them from left to right. -/
inductive Grouped : SetTree ι → Prop
  | factor {t : SetTree ι} (h : Factor t) : Grouped t
  | node {operation : SetOperation} {l r : SetTree ι} (ho : operation ≠ .intersect) (all : Bool)
      (hl : Grouped l) (hr : Factor r) : Grouped (node operation all l r)

inductive Intersections : SetTree ι → Prop
  | leaf (i : ι) : Intersections (leaf i)
  | node {l r : SetTree ι} (all : Bool) (hl : Intersections l) (hr : Intersections r) :
      Intersections (node .intersect all l r)

inductive Unions (all : Bool) : SetTree ι → Prop
  | intersections {t : SetTree ι} (h : Intersections t) : Unions all t
  | node {l r : SetTree ι} (hl : Unions all l) (hr : Unions all r) :
      Unions all (node .union all l r)

/-- The rows do not change if the grouping is lost: of two INTERSECTs, and of two UNIONs of one
kind, neither needs to go before the other. -/
inductive Kept : SetTree ι → Prop
  | intersections {t : SetTree ι} (h : Intersections t) : Kept t
  | union {l r : SetTree ι} (all : Bool) (hl : Kept l) (hr : Unions all r) :
      Kept (node .union all l r)
  | except {l r : SetTree ι} (all : Bool) (hl : Kept l) (hr : Intersections r) :
      Kept (node .except all l r)

section Reading

variable {t l r : SetTree ι} {operation : SetOperation}

theorem extend_of_ne (t : SetTree ι) {x : SetLink ι} (h : x.operation ≠ .intersect) :
    t.extend x = node x.operation x.all t (leaf x.operand) := by
  cases t with
  | leaf i => rfl
  | node operation all l r => rw [extend, if_neg fun hx => h hx.1]

theorem Factor.extend (h : Factor t) (x : SetLink ι) :
    t.extend x = .node x.operation x.all t (.leaf x.operand) := by
  cases h with
  | leaf i => rfl
  | node h all i => rw [SetTree.extend, if_neg fun hx => hx.2 rfl]

theorem extend_intersect (ho : operation ≠ .intersect) (all all' : Bool) (i : ι) :
    (node operation all l r).extend ⟨.intersect, all', i⟩ =
      node operation all l (node .intersect all' r (leaf i)) := by
  rw [extend, if_pos ⟨rfl, ho⟩]

theorem Grouped.extend (h : Grouped t) (x : SetLink ι) : Grouped (t.extend x) := by
  by_cases hx : x.operation = .intersect
  · obtain ⟨_, all, i⟩ := x
    subst hx
    cases h with
    | factor h =>
      rw [h.extend]
      exact .factor (h.node all i)
    | node ho all' hl hr =>
      rw [extend_intersect ho]
      exact .node ho all' hl (hr.node all i)
  · rw [extend_of_ne t hx]
    exact .node hx x.all h (.leaf x.operand)

theorem chain_extend (t : SetTree ι) (x : SetLink ι) :
    (t.extend x).chain = ⟨t.chain.first, t.chain.links ++ [x]⟩ := by
  cases t with
  | leaf i => rfl
  | node operation all l r =>
    obtain ⟨added, all', i⟩ := x
    by_cases h : added = .intersect ∧ operation ≠ .intersect
    · obtain ⟨rfl, ho⟩ := h
      rw [extend_intersect ho]
      simp [chain, SetChain.join]
    · rw [extend, if_neg h]
      rfl

end Reading

end SetTree

namespace SetChain

variable {ch : SetChain ι}

theorem grouped_tree (ch : SetChain ι) : ch.tree.Grouped := by
  have hgeneral (xs : List (SetLink ι)) (t : SetTree ι) (h : t.Grouped) :
      (xs.foldl SetTree.extend t).Grouped := by
    induction xs generalizing t with
    | nil => exact h
    | cons x xs ih => exact ih _ (h.extend x)
  exact hgeneral ch.links _ (.factor (.leaf ch.first))

@[simp] theorem chain_tree (ch : SetChain ι) : ch.tree.chain = ch := by
  have hgeneral (xs : List (SetLink ι)) (t : SetTree ι) :
      (xs.foldl SetTree.extend t).chain = ⟨t.chain.first, t.chain.links ++ xs⟩ := by
    induction xs generalizing t with
    | nil => simp
    | cons x xs ih => rw [List.foldl_cons, ih, SetTree.chain_extend, List.append_assoc]; rfl
  exact hgeneral ch.links (.leaf ch.first)

theorem mapM_map {μ : Type} {f : κ → Option μ} {g : ι → κ} {h : ι → μ}
    (hf : ∀ i, f (g i) = some (h i)) (ch : SetChain ι) : (ch.map g).mapM f = some (ch.map h) := by
  have hlinks (xs : List (SetLink ι)) :
      List.mapM (SetLink.mapM f) (xs.map (.map g)) = some (xs.map (.map h)) := by
    induction xs with
    | nil => rfl
    | cons x xs ih =>
      rw [List.map_cons, List.mapM_cons, ih, SetLink.mapM, SetLink.map, hf]
      rfl
  rw [mapM, map, hf, hlinks]
  rfl

end SetChain

namespace SetTree

variable {t : SetTree ι}

theorem Factor.foldl_extend {l r : SetTree ι} {operation : SetOperation} (h : Factor r)
    (ho : operation ≠ .intersect) (all : Bool) :
    r.chain.links.foldl SetTree.extend (.node operation all l (.leaf r.chain.first)) =
      .node operation all l r := by
  induction h with
  | leaf i => rfl
  | @node t h all' i ih =>
    have hlinks : (SetTree.node .intersect all' t (.leaf i)).chain.links =
        t.chain.links ++ [⟨.intersect, all', i⟩] := rfl
    have hfirst : (SetTree.node .intersect all' t (.leaf i)).chain.first = t.chain.first := rfl
    rw [hlinks, hfirst, List.foldl_append, ih]
    exact extend_intersect ho all all' i

theorem Factor.regrouped_eq (h : Factor t) : t.regrouped = t := by
  induction h with
  | leaf i => rfl
  | @node t h all i ih =>
    have htree : (SetTree.node .intersect all t (.leaf i)).regrouped =
        t.regrouped.extend ⟨.intersect, all, i⟩ := by
      simp [regrouped, SetChain.tree, chain, SetChain.join]
    rw [htree, ih, h.extend]

theorem Grouped.regrouped_eq (h : Grouped t) : t.regrouped = t := by
  induction h with
  | factor h => exact h.regrouped_eq
  | @node operation l r ho all hl hr ih =>
    have htree : (SetTree.node operation all l r).regrouped = r.chain.links.foldl
        SetTree.extend (l.regrouped.extend ⟨operation, all, r.chain.first⟩) := by
      simp [regrouped, SetChain.tree, chain, SetChain.join]
    rw [htree, ih, extend_of_ne l ho, hr.foldl_extend ho]

/-- Of the trees that are the same chain, SQL reads the one that is grouped. -/
theorem grouped_iff_eq_regrouped (t u : SetTree ι) :
    u.Grouped ∧ u.chain = t.chain ↔ u = t.regrouped := by
  refine ⟨fun ⟨hu, hchain⟩ => ?_, ?_⟩
  · rw [regrouped, ← hchain, ← regrouped, hu.regrouped_eq]
  · rintro rfl
    exact ⟨t.chain.grouped_tree, t.chain.chain_tree⟩

section Alike

structure Alike (t u : SetTree ι) : Prop where
  chain : t.chain = u.chain
  rows (α : Type) [DecidableEq α] (table : ι → Multiset α) : t.rows table = u.rows table

theorem Alike.refl (t : SetTree ι) : Alike t t := ⟨rfl, fun _ _ _ => rfl⟩

theorem Alike.trans {t u v : SetTree ι} (h : Alike t u) (h' : Alike u v) : Alike t v :=
  ⟨h.chain.trans h'.chain, fun α _ table => (h.rows α table).trans (h'.rows α table)⟩

theorem Alike.node {l l' r r' : SetTree ι} (operation : SetOperation) (all : Bool)
    (hl : Alike l l') (hr : Alike r r') :
    Alike (node operation all l r) (node operation all l' r') where
  chain := by rw [SetTree.chain, SetTree.chain, hl.chain, hr.chain]
  rows α _ table := by rw [SetTree.rows, SetTree.rows, hl.rows, hr.rows]

theorem alike_intersect (all all' : Bool) (a b c : SetTree ι) :
    Alike (.node .intersect all' (.node .intersect all a b) c)
      (.node .intersect all a (.node .intersect all' b c)) :=
  ⟨SetChain.join_join _ _ _ _ _ _ _, fun _ _ _ => SetOperation.rows_intersect_assoc _ _ _ _ _⟩

theorem alike_union (all : Bool) (a b c : SetTree ι) :
    Alike (.node .union all (.node .union all a b) c)
      (.node .union all a (.node .union all b c)) :=
  ⟨SetChain.join_join _ _ _ _ _ _ _, fun _ _ _ => SetOperation.rows_union_assoc _ _ _ _⟩

variable {a : SetTree ι}

theorem Intersections.exists_behind (h : Intersections t) (ha : Factor a) (all : Bool) :
    ∃ u, Factor u ∧ Alike u (.node .intersect all a t) := by
  -- Induction on what stands behind: its left part is taken up first, and the factor grows by it.
  induction h generalizing a all with
  | leaf i => exact ⟨_, ha.node all i, .refl _⟩
  | node all' _ _ ihl ihr =>
    obtain ⟨u, hu, hul⟩ := ihl ha all
    obtain ⟨v, hv, hvr⟩ := ihr hu all'
    exact ⟨v, hv, hvr.trans ((hul.node .intersect all' (.refl _)).trans (alike_intersect ..))⟩

theorem Intersections.exists_factor (h : Intersections t) : ∃ u, Factor u ∧ Alike u t := by
  induction h with
  | leaf i => exact ⟨_, .leaf i, .refl _⟩
  | node all _ hr ihl _ =>
    obtain ⟨u, hu, hul⟩ := ihl
    obtain ⟨v, hv, hvr⟩ := hr.exists_behind hu all
    exact ⟨v, hv, hvr.trans (hul.node .intersect all (.refl _))⟩

theorem Unions.exists_behind {all : Bool} (h : Unions all t) (ha : Grouped a) :
    ∃ u, Grouped u ∧ Alike u (.node .union all a t) := by
  induction h generalizing a with
  | intersections h =>
    obtain ⟨u, hu, hut⟩ := h.exists_factor
    exact ⟨_, ha.node (by decide) all hu, (Alike.refl a).node .union all hut⟩
  | node _ _ ihl ihr =>
    obtain ⟨u, hu, hul⟩ := ihl ha
    obtain ⟨v, hv, hvr⟩ := ihr hu
    exact ⟨v, hv, hvr.trans ((hul.node .union all (.refl _)).trans (alike_union ..))⟩

/-- Such a tree can be grouped as SQL reads it without other rows. -/
theorem Kept.exists_grouped (h : Kept t) : ∃ u, Grouped u ∧ Alike u t := by
  induction h with
  | intersections h =>
    obtain ⟨u, hu, hut⟩ := h.exists_factor
    exact ⟨u, .factor hu, hut⟩
  | union all _ hr ih =>
    obtain ⟨u, hu, hul⟩ := ih
    obtain ⟨v, hv, hvr⟩ := hr.exists_behind hu
    exact ⟨v, hv, hvr.trans (hul.node .union all (.refl _))⟩
  | except all _ hr ih =>
    obtain ⟨u, hu, hul⟩ := ih
    obtain ⟨v, hv, hvr⟩ := hr.exists_factor
    exact ⟨_, hu.node (by decide) all hv, hul.node .except all hvr⟩

theorem Kept.rows_regrouped (h : Kept t) {α : Type} [DecidableEq α] (table : ι → Multiset α) :
    t.regrouped.rows table = t.rows table := by
  obtain ⟨u, hu, hut⟩ := h.exists_grouped
  have hregrouped : t.regrouped = u := by rw [regrouped, ← hut.chain, ← regrouped, hu.regrouped_eq]
  rw [hregrouped, hut.rows]

end Alike

section Map

variable (f : ι → κ)

theorem map_extend (t : SetTree ι) (x : SetLink ι) :
    (t.extend x).map f = (t.map f).extend (x.map f) := by
  cases t with
  | leaf i => rfl
  | node operation all l r =>
    rw [map, extend, extend, apply_ite (map f)]
    rfl

theorem tree_map (ch : SetChain ι) : (ch.map f).tree = ch.tree.map f := by
  have hgeneral (xs : List (SetLink ι)) (t : SetTree ι) :
      (xs.map (.map f)).foldl extend (t.map f) = (xs.foldl extend t).map f := by
    induction xs generalizing t with
    | nil => rfl
    | cons x xs ih => rw [List.map_cons, List.foldl_cons, List.foldl_cons, ← map_extend, ih]
  exact hgeneral ch.links (.leaf ch.first)

theorem rows_map {α : Type} [DecidableEq α] (table : κ → Multiset α) (t : SetTree ι) :
    (t.map f).rows table = t.rows (table ∘ f) := by
  induction t with
  | leaf i => rfl
  | node operation all l r ihl ihr => rw [map, rows, ihl, ihr, rows]

end Map

end SetTree

end SqlDialects
