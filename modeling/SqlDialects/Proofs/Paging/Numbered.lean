import SqlDialects.Proofs.Select.Parts
import SqlDialects.Proofs.Statement.Building
import SqlDialects.Proofs.Text.Unescaped

/-!
The select of an old engine with its rows numbered in one more column. The order moves from the end
of the select into that column, and nothing else changes.
-/

namespace SqlDialects

def numberColumn (order : String) : String :=
  "ROW_NUMBER() OVER (" ++ Engine.sqlServer.wrapIdentifiers order ++ ") AS [row_num]"

theorem wrapIdentifiers_numberColumn (order : String) :
    Engine.sqlServer.wrapIdentifiers ("ROW_NUMBER() OVER (" ++ order ++ ") AS [row_num]") =
      numberColumn order := by
  have hopen : Engine.sqlServer.Plain '(' := by unfold Engine.Plain; decide
  have hclose : Engine.sqlServer.Plain ')' := by unfold Engine.Plain; decide
  have htext (between : String) : "ROW_NUMBER() OVER (" ++ between ++ ") AS [row_num]" =
      "ROW_NUMBER() OVER " ++ ('('.toString ++ (between ++ (')'.toString ++ " AS [row_num]"))) := by
    have hstart : "ROW_NUMBER() OVER (" = "ROW_NUMBER() OVER " ++ '('.toString := by rfl
    have hend : ") AS [row_num]" = ')'.toString ++ " AS [row_num]" := by rfl
    rw [hstart, hend]
    simp only [String.append_assoc]
  have hstart : Engine.sqlServer.wrapIdentifiers "ROW_NUMBER() OVER " = "ROW_NUMBER() OVER " := by
    decide +kernel
  have hend : Engine.sqlServer.wrapIdentifiers " AS [row_num]" = " AS [row_num]" := by
    decide +kernel
  have hrest := Engine.wrapIdentifiers_split _ hclose order " AS [row_num]"
  calc Engine.sqlServer.wrapIdentifiers ("ROW_NUMBER() OVER (" ++ order ++ ") AS [row_num]")
    _ = Engine.sqlServer.wrapIdentifiers ("ROW_NUMBER() OVER " ++
          ('('.toString ++ (order ++ (')'.toString ++ " AS [row_num]")))) :=
      congrArg _ (htext order)
    _ = "ROW_NUMBER() OVER " ++ ('('.toString ++
          (Engine.sqlServer.wrapIdentifiers order ++ (')'.toString ++ " AS [row_num]"))) := by
      rw [Engine.wrapIdentifiers_split _ hopen, hrest, hstart, hend]
    _ = numberColumn order := (htext _).symm

namespace Statement

open Compiler

variable {σ : Type} (q : Statement σ) (e : Engine) (order : Fragment)

/-- The statement with all columns named by a star if it names none. -/
def starred : Statement σ := if q.has .select (some e) then q else q.select ["*"]

theorem bucket_starred_of_ne {component : Component} (h : component ≠ .select)
    (engine : Option Engine) :
    (q.starred e).bucket component engine = q.bucket component engine := by
  unfold starred
  split
  · rfl
  · exact bucket_add_of_ne q h _ engine

theorem bucket_numberRows_of_ne {component : Component} (hs : component ≠ .select)
    (ho : component ≠ .order) (engine : Option Engine) :
    (numberRows (q.starred e) order).bucket component engine = q.bucket component engine := by
  rw [numberRows, bucket_clear_of_ne _ ho, addColumn, bucket_add_of_ne _ hs,
    bucket_starred_of_ne q e hs]

theorem bucket_numberRows_order :
    (numberRows (q.starred e) order).bucket .order (some e) =
      (q.bucket .order (some e)).filter fun c => !c.visible .order q.scope := by
  have hscope (x : Column σ) : ((q.starred e).addColumn x).scope = q.scope := by
    unfold starred
    split <;> rfl
  have hcleared (p : Statement σ) : (p.clear .order none).bucket .order (some e) =
      (p.bucket .order (some e)).filter fun c => !c.visible .order p.scope := by
    simp only [clear, bucket, Option.none_or, List.filter_filter, Bool.and_comm]
  rw [numberRows, hcleared, hscope, addColumn, bucket_add_of_ne _ (by decide),
    bucket_starred_of_ne q e (by decide)]

theorem bucket_starred_select (h : q.has .select (some e) = true) :
    (q.starred e).bucket .select (some e) = q.bucket .select (some e) := by
  rw [starred, if_pos h]

theorem distinct_numberRows : (numberRows (q.starred e) order).distinct = q.distinct := by
  unfold starred
  split <;> rfl

theorem vars_numberRows : (numberRows (q.starred e) order).vars = q.vars := by
  unfold starred
  split <;> rfl

theorem addsFor_starred (e' : Engine) : (q.starred e).addsFor e' = q.addsFor e' := by
  unfold starred
  split <;> rfl

theorem getAll_numberRows (ha : q.addsFor e = true) :
    (numberRows (q.starred e) order).getAll .select ClauseKind.column? (some e) = (do
      let columns ← q.getAll .select ClauseKind.column? (some e)
      return (if columns.isEmpty then [.named "*"] else columns) ++
        [.raw ("ROW_NUMBER() OVER (" ++ order.sql ++ ") AS [row_num]") order.bindings]) := by
  have hbucket (p : Statement σ) (hp : p.addsFor e = true) :
      (numberRows p order).bucket .select (some e) = p.bucket .select (some e) ++
        [⟨.select, p.scope, .column (.raw ("ROW_NUMBER() OVER (" ++ order.sql ++ ") AS [row_num]")
          order.bindings)⟩] := by
    rw [numberRows, bucket_clear_of_ne _ (by decide), addColumn, bucket_add_self, if_pos hp]
  rw [getAll, hbucket _ ((q.addsFor_starred e e).trans ha), List.mapM_append]
  cases hs : q.has .select (some e) with
  | true =>
    rw [bucket_starred_select q e hs]
    cases hall : q.getAll .select ClauseKind.column? (some e) with
    | error f =>
      rw [getAll] at hall
      rw [hall]
      rfl
    | ok columns =>
      have hne : columns ≠ [] := by
        rintro rfl
        have hnil := getAll_eq_ok.mp hall
        rw [List.forall₂_nil_right_iff] at hnil
        exact (q.has_eq_true_iff .select (some e)).mp hs hnil
      rw [getAll] at hall
      rw [hall]
      show Except.ok _ = Except.ok _
      simp [hne]
  | false =>
    have hempty := bucket_eq_nil hs
    have hstar : (q.starred e).bucket .select (some e) =
        [⟨.select, q.scope, .column (.named "*")⟩] := by
      have hselect : q.select ["*"] = q.add .select (.column (.named "*")) := by rfl
      rw [starred, if_neg (by simp [hs]), hselect, bucket_add_self, hempty, if_pos ha]
      rfl
    rw [hstar, getAll, hempty]
    rfl

end Statement

namespace Compiler

variable {c : Compiler} {ss : Scopes} {q : Statement Rendering} {order : Fragment}

theorem mapM_rowNumber (hc : c.engine = .sqlServer) :
    [Column.raw ("ROW_NUMBER() OVER (" ++ order.sql ++ ") AS [row_num]") order.bindings].mapM
      (c.column ss) = ⟨order.bindings, .ok [numberColumn order.sql]⟩ := by
  have hnumber : c.column ss (.raw ("ROW_NUMBER() OVER (" ++ order.sql ++ ") AS [row_num]")
      order.bindings) = ⟨order.bindings, .ok (numberColumn order.sql)⟩ := by
    rw [← wrapIdentifiers_numberColumn, ← hc]
    exact Emit.ext (List.append_nil _) rfl
  rw [List.mapM_cons, hnumber]
  exact Emit.ext (List.append_nil _) rfl

theorem mapM_star (hc : c.engine = .sqlServer) :
    [Column.named "*"].mapM (c.column ss) = ⟨[], .ok ["*"]⟩ := by
  have hstar : c.column ss (.named "*") = pure "*" := by
    rw [column, Engine.wrap, hc]
    rfl
  rw [List.mapM_cons, hstar]
  rfl

theorem basicColumns_numberRows (hc : c.engine = .sqlServer)
    (hagg : q.has .aggregate (some c.engine) = false) (hadds : q.addsFor c.engine = true) :
    c.basicColumns ss (numberRows (q.starred c.engine) order) = (do
      let columns ← c.basicColumns ss q
      Emit.push order.bindings
      return columns ++ ", " ++ numberColumn order.sql) := by
  have hagg' : (numberRows (q.starred c.engine) order).has .aggregate (some c.engine) = false := by
    rw [Statement.has_congr (Statement.bucket_numberRows_of_ne q _ order (by decide) (by decide) _),
      hagg]
  rw [basicColumns_of_noAggregate hagg', basicColumns_of_noAggregate hagg,
    Statement.getAll_numberRows q _ order hadds, Statement.distinct_numberRows]
  generalize "SELECT " ++ (if q.distinct then "DISTINCT " else "") = start
  cases q.getAll .select ClauseKind.column? (some c.engine) with
  | error e => rfl
  | ok columns =>
    show Emit.lift (.ok _) >>= _ = Emit.lift (.ok _) >>= _ >>= _
    rw [Emit.lift_ok_bind, Emit.lift_ok_bind, List.mapM_append, mapM_rowNumber hc]
    cases columns with
    | nil =>
      rw [if_pos List.isEmpty_nil, mapM_star hc]
      simp only [Emit.mk_ok_bind, List.mapM_nil, pure_bind, Emit.push, Emit.bound_pure,
        Emit.outcome_pure]
      refine Emit.ext (by simp) (congrArg Except.ok ?_)
      simp [String.append_assoc]
    | cons x xs =>
      generalize hm : (x :: xs).mapM (c.column ss) = texts
      obtain ⟨bound, outcome⟩ := texts
      rw [if_neg (by simp), hm]
      cases outcome with
      | error e => rfl
      | ok texts =>
        have hne : texts ≠ [] := by
          rintro rfl
          have hlen := (Emit.mapM_eq_ok (congrArg Emit.outcome hm)).length_eq
          simp at hlen
        simp only [Emit.mk_ok_bind, Emit.push, Emit.bound_pure, Emit.outcome_pure]
        refine Emit.ext (by simp) (congrArg Except.ok ?_)
        rw [if_neg (by simp [hne]), if_neg (by simpa using hne),
          String.intercalate_append_of_ne_nil hne (by simp), String.intercalate_singleton]
        simp only [String.append_assoc]

variable {bound : List Value} {text : Option String}

theorem orders_numberRows_of_adds (h : q.addsFor c.engine = true) :
    c.orders (numberRows (q.starred c.engine) order) = pure none := by
  have hempty : (numberRows (q.starred c.engine) order).bucket .order (some c.engine) = [] := by
    rw [Statement.bucket_numberRows_order, List.filter_eq_nil_iff]
    intro x hx
    obtain ⟨-, hv⟩ := Statement.mem_bucket.mp hx
    simp only [Clause.visible, Bool.and_eq_true, beq_iff_eq, Bool.or_eq_true] at hv
    simp only [Statement.addsFor, Bool.or_eq_true, beq_iff_eq, Option.isNone_iff_eq_none] at h
    rcases h with h | h
    · simp [Clause.visible, h, hv.1]
    · rcases hv.2 with hx | hx <;> simp_all [Clause.visible]
  rw [orders, Statement.getAll, hempty]
  rfl

theorem middle_numberRows :
    c.middle ss (numberRows (q.starred c.engine) order) = c.middle ss q :=
  middle_congr fun _ h => Statement.bucket_numberRows_of_ne q _ order
    (by rintro rfl; exact absurd h (by decide)) (by rintro rfl; exact absurd h (by decide)) _

theorem orders_starred : c.orders (q.starred c.engine) = c.orders q :=
  orders_congr (Statement.bucket_starred_of_ne q _ (by decide) _)

theorem window_numberRows :
    (numberRows (q.starred c.engine) order).window (some c.engine) = q.window (some c.engine) :=
  Statement.window_congr (Statement.bucket_numberRows_of_ne q _ order (by decide) (by decide) _)
    (Statement.bucket_numberRows_of_ne q _ order (by decide) (by decide) _)

end Compiler

end SqlDialects
