import SqlDialects.Proofs.Scope.Conditions

/-! What a value comes to in some scopes: SQL text, a value that is bound, or a missing variable. -/

namespace SqlDialects

def Value.isLiteral : Value → Bool
  | raw _ => false
  | var _ => false
  | _ => true

theorem Value.ne_raw {v : Value} (h : v.isLiteral = true) (sql : String) : v ≠ .raw sql := by
  rintro rfl
  cases h

theorem Value.ne_var {v : Value} (h : v.isLiteral = true) (name : String) : v ≠ .var name := by
  rintro rfl
  cases h

theorem Variables.find?_append (own outer : Variables) (name : String) :
    Variables.find? (own ++ outer) name = (own.find? name).or (outer.find? name) := by
  induction own with
  | nil => rfl
  | cons p own ih =>
    obtain ⟨n, v⟩ := p
    rw [List.cons_append, find?, find?]
    split
    · rfl
    · exact ih

theorem Scopes.find?_cons (own : Variables) (outer : Scopes) (name : String) :
    Scopes.find? (own :: outer) name = (own.find? name).or (outer.find? name) := by
  rw [find?, List.findSome?_cons]
  cases own.find? name <;> rfl

namespace Compiler

variable {c : Compiler} {t : Tie} {ss ss' : Scopes} {v w d : Value} {name : String}

theorem resolve_var (h : ss.find? name = some d) : resolve ss (.var name) = .ok d := by
  rw [resolve, h]

theorem resolve_missing (h : ss.find? name = none) :
    resolve ss (.var name) = .error (.undefinedVariable name) := by
  rw [resolve, h]

theorem resolve_literal (h : v.isLiteral = true) : resolve ss v = .ok v := by
  cases v with
  | var _ => cases h
  | _ => rfl

theorem parameter_of_not_raw (hv : ∀ sql, v ≠ .raw sql) :
    c.parameter ss v = (do
      let bound ← Emit.lift (resolve ss v)
      Emit.push [bound]
      return c.marker) := by
  cases v with
  | raw sql => exact absurd rfl (hv sql)
  | _ => rfl

theorem likeOperand_of_not_raw (hv : ∀ sql, v ≠ .raw sql) (pattern : String) :
    c.likeOperand ss v pattern = ⟨[.string pattern], .ok c.marker⟩ := by
  cases v with
  | raw sql => exact absurd rfl (hv sql)
  | _ => rfl

theorem reads_of_resolve (ht : t.Plain) (hv : ∀ sql, v ≠ .raw sql) (hw : ∀ sql, w ≠ .raw sql)
    (h : resolve ss v = .ok d) (h' : resolve ss' w = .ok d) : c.Reads t ss ss' v w where
  parameter := by
    rw [parameter_of_not_raw hv, parameter_of_not_raw hw, h, h']
    exact .ok (.cons (ht.bound d) .nil) rfl
  like column operator caseSensitive escape isNot := by
    have htext : t.Yields Eq (likeText ss v) (likeText ss' w) := by
      have hone : likeText ss v = likeText ss' w := by rw [likeText, h, likeText, h']
      rw [hone, likeText, h']
      refine ht.yields fun e he => ?_
      simp only [bind, Except.bind] at he
      split at he
      · cases he
      · cases he
        rintro name ⟨⟩
    unfold like
    refine htext.lift.andThen fun text => ?_
    refine (ht.operator c _).lift.andThen fun op => ?_
    rw [likeOperand_of_not_raw hv, likeOperand_of_not_raw hw]
    exact (Tie.Emits.ok (.cons (ht.bound _) .nil) rfl).andThen fun right => .pure rfl

theorem reads_raw (ht : t.Plain) (sql : String) : c.Reads t ss ss' (.raw sql) (.raw sql) where
  parameter := .pure rfl
  like column operator caseSensitive escape isNot := by
    refine (Tie.Yields.ok rfl : t.Yields Eq (.ok sql) (.ok sql)).lift.andThen fun text => ?_
    refine (ht.operator c _).lift.andThen fun op => ?_
    exact (Tie.Emits.pure rfl).andThen fun right => .pure rfl

/-- After a variable that is missing nothing is said of the other side. -/
theorem reads_missing (h : ss.find? name = none) (hn : t.spared (.undefinedVariable name)) :
    c.Reads t ss ss' (.var name) w where
  parameter := by
    rw [parameter_of_not_raw (by rintro sql ⟨⟩), resolve_missing h]
    exact .spared hn _
  like column operator caseSensitive escape isNot := by
    rw [like, likeText, resolve_missing h]
    exact .spared hn _

end Compiler

end SqlDialects
