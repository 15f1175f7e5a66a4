import SqlDialects.Proofs.Reading.Tokens

/-!
Conditions read from tokens with the precedence of SQL: parentheses, then NOT, then AND, then OR.
The reader works on fuel; what it reads from a text that is put together from parts follows from
what it reads from the parts, with fuel in proportion to the tokens.
-/

namespace SqlDialects.Reading

inductive Formula (α : Type) where
  | leaf (a : α)
  | not (t : Formula α)
  | and (s t : Formula α)
  | or (s t : Formula α)
  deriving DecidableEq

namespace Formula

variable {α β : Type}

def map (f : α → β) : Formula α → Formula β
  | leaf a => leaf (f a)
  | not t => not (t.map f)
  | and s t => and (s.map f) (t.map f)
  | or s t => or (s.map f) (t.map f)

/-- A tree with others connected to it, by OR where that is said. AND binds tighter: it takes the
next tree alone, and OR takes all that follows. -/
def follow : Formula α → List (Bool × Formula α) → Formula α
  | t, [] => t
  | t, (false, s) :: rest => (t.and s).follow rest
  | t, (true, s) :: rest => t.or (s.follow rest)

/-- The trees in one chain. The connector of the first one has no place. -/
def chain : List (Bool × Formula α) → Option (Formula α)
  | [] => none
  | (_, t) :: rest => some (t.follow rest)

theorem map_follow (f : α → β) (t : Formula α) (links : List (Bool × Formula α)) :
    (t.follow links).map f = (t.map f).follow (links.map fun x => (x.1, x.2.map f)) := by
  induction links generalizing t with
  | nil => rfl
  | cons x links ih =>
    obtain ⟨isOr, s⟩ := x
    cases isOr with
    | false => exact ih (t.and s)
    | true => exact congrArg (or (t.map f)) (ih s)

end Formula

namespace Token

def is (keyword : String) : Token → Bool
  | word text => text.map Char.toUpper = keyword.toList
  | _ => false

def ends (t : Token) : Bool := t.is "AND" || t.is "OR" || t = sign ')'

def depth : Token → Nat → Nat
  | sign '(', depth => depth + 1
  | sign ')', depth => depth - 1
  | _, depth => depth

end Token

/-- Splits the tokens of an atom from those behind it. Outside its own parentheses an atom ends
before AND, OR and a closing parenthesis, but the AND that belongs to a BETWEEN is part of it. -/
def splitAtom : Nat → Bool → List Token → List Token × List Token
  | _, _, [] => ([], [])
  | depth, between, t :: rest =>
    if depth = 0 ∧ t.ends ∧ ¬(between ∧ t.is "AND") then ([], t :: rest)
    else
      let between := if depth = 0 then t.is "BETWEEN" || between && !t.is "AND" else between
      let (own, rest) := splitAtom (t.depth depth) between rest
      (t :: own, rest)

def truths (e : Engine) : List (List Token) :=
  [plainTokens e.trueText.toList, plainTokens e.falseText.toList]

/-- A NOT before the token denies the atom. Before others it is part of the operator. -/
def Token.takesNot (t : Token) : Bool := t.is "IN" || t.is "BETWEEN" || t.is "NULL"

/-- What an atom denies that has its sign inside: a NOT, or the other comparison with a truth
value. -/
def denied? (e : Engine) : List Token → Option (List Token)
  | [] => none
  | t :: rest =>
    if t.is "NOT" ∧ rest.head?.any Token.takesNot then some rest
    else if t = .sign '!' ∧ rest ∈ (truths e).map (.sign '=' :: ·) then some rest
    else (denied? e rest).map (t :: ·)

def always : List Token := plainTokens "1 = 1".toList
def never : List Token := plainTokens "1 = 0".toList

theorem always_eq : always = [.word ['1'], .sign '=', .word ['1']] := by decide

/-- An atom, or the negation of one. -/
def signed (e : Engine) (toks : List Token) : Formula (List Token) :=
  if toks = always then .not (.leaf never)
  else match denied? e toks with
    | some denied => .not (.leaf denied)
    | none => .leaf toks

mutual
def factor (e : Engine) : Nat → List Token → Option (Formula (List Token) × List Token)
  | 0, _ => none
  | _ + 1, [] => none
  | fuel + 1, t :: rest =>
    if t.is "NOT" then (factor e fuel rest).map fun (s, rest) => (.not s, rest)
    else if t = .sign '(' then
      (expression e fuel rest).bind fun (s, rest) =>
        if rest.head? = some (.sign ')') then some (s, rest.tail) else none
    else if t.ends then none
    else
      let (own, rest) := splitAtom 0 false (t :: rest)
      some (signed e own, rest)

def expression (e : Engine) : Nat → List Token → Option (Formula (List Token) × List Token)
  | 0, _ => none
  | fuel + 1, toks => (factor e fuel toks).bind fun (t, rest) => following e fuel t rest

def following (e : Engine) :
    Nat → Formula (List Token) → List Token → Option (Formula (List Token) × List Token)
  | 0, _, _ => none
  | _ + 1, t, [] => some (t, [])
  | fuel + 1, t, k :: rest =>
    if k.is "AND" then
      (factor e fuel rest).bind fun (s, rest) => following e fuel (t.and s) rest
    else if k.is "OR" then
      (factor e fuel rest).bind fun (s, rest) =>
        (following e fuel s rest).map fun (s, rest) => (t.or s, rest)
    else some (t, k :: rest)
end

def readTokens? (e : Engine) (toks : List Token) : Option (Option (Formula (List Token))) :=
  if toks = [] then some none
  else match expression e (2 * toks.length + 1) toks with
    | some (t, []) => some (some t)
    | _ => none

def read? (e : Engine) (text : String) : Option (Option (Formula (List Token))) :=
  (tokens e text).bind (readTokens? e)

def Stops (rest : List Token) : Prop := ∀ t ∈ rest.head?, t.ends = true

def Ends (rest : List Token) : Prop := ∀ t ∈ rest.head?, t = .sign ')'

theorem Ends.stops {rest : List Token} (h : Ends rest) : Stops rest := by
  intro t ht
  rw [h t ht]
  decide

theorem Stops.append {toks rest : List Token} (h : Stops toks) (hr : Stops rest) :
    Stops (toks ++ rest) := by
  cases toks with
  | nil => exact hr
  | cons t toks => exact h

/-- Tokens that no atom ends at. -/
def Passes (toks : List Token) : Prop :=
  ∀ depth between rest, splitAtom depth between (toks ++ rest) =
    (toks ++ (splitAtom depth between rest).1, (splitAtom depth between rest).2)

theorem passes_nil : Passes [] := fun _ _ _ => rfl

theorem Passes.append {a b : List Token} (ha : Passes a) (hb : Passes b) : Passes (a ++ b) := by
  intro depth between rest
  rw [List.append_assoc, ha, hb, List.append_assoc]

def Token.passes (t : Token) : Bool :=
  !t.ends && !t.is "BETWEEN" && t ≠ .sign '('

theorem Token.depth_of_passes {t : Token} (h : t.passes = true) (depth : Nat) :
    t.depth depth = depth := by
  unfold Token.depth
  split
  · cases h
  · cases h
  · rfl

theorem passes_token {t : Token} (ht : t.passes = true) : Passes [t] := by
  have hdepth := Token.depth_of_passes ht
  have hends : t.ends = false ∧ t.is "BETWEEN" = false := by
    simp only [Token.passes, Bool.and_eq_true, Bool.not_eq_true'] at ht
    exact ht.1
  have hand : t.is "AND" = false := by
    have h := hends.1
    simp only [Token.ends, Bool.or_eq_false_iff] at h
    exact h.1.1
  intro depth between rest
  have hbetween : (if depth = 0 then t.is "BETWEEN" || between && !t.is "AND" else between) =
      between := by
    simp [hends.2, hand]
  rw [List.singleton_append, splitAtom, if_neg (by simp [hends.1]), hbetween, hdepth]
  rfl

theorem passes_of_forall {toks : List Token} (h : ∀ t ∈ toks, t.passes = true) : Passes toks := by
  induction toks with
  | nil => exact passes_nil
  | cons t toks ih =>
    exact (passes_token (h t List.mem_cons_self)).append
      (ih fun u hu => h u (List.mem_cons_of_mem _ hu))

theorem Passes.paren {toks : List Token} (h : Passes toks) :
    Passes (.sign '(' :: toks ++ [.sign ')']) := by
  intro depth between rest
  have hopen (more : List Token) :
      splitAtom depth between (.sign '(' :: more) =
        (.sign '(' :: (splitAtom (depth + 1) between more).1,
          (splitAtom (depth + 1) between more).2) := by
    have hb : (if depth = 0 then Token.is "BETWEEN" (.sign '(') ||
        between && !Token.is "AND" (.sign '(') else between) = between := by
      simp [Token.is]
    rw [splitAtom, if_neg (by simp [Token.ends, Token.is]), hb]
    rfl
  have hclose : splitAtom (depth + 1) between (.sign ')' :: rest) =
      (.sign ')' :: (splitAtom depth between rest).1, (splitAtom depth between rest).2) := by
    rw [splitAtom, if_neg (by simp), if_neg (by simp)]
    rfl
  rw [List.append_assoc, List.cons_append, List.singleton_append, hopen, h, hclose]
  simp

theorem splitAtom_stops {rest : List Token} (h : Stops rest) :
    splitAtom 0 false rest = ([], rest) := by
  cases rest with
  | nil => rfl
  | cons t rest =>
    have ht := h t rfl
    rw [splitAtom, if_pos (by simp [ht])]

/-- The tokens of one atom, wherever a condition ends behind them. -/
structure IsAtom (toks : List Token) : Prop where
  opens : ∃ t rest, toks = t :: rest ∧ t.is "NOT" = false ∧ t ≠ .sign '(' ∧ t.ends = false
  split : ∀ rest, Stops rest → splitAtom 0 false (toks ++ rest) = (toks, rest)

theorem Passes.split {toks : List Token} (h : Passes toks) {rest : List Token} (hr : Stops rest) :
    splitAtom 0 false (toks ++ rest) = (toks, rest) := by
  rw [h, splitAtom_stops hr, List.append_nil]

theorem split_between {a b c : List Token} (ha : Passes a) (hb : Passes b) (hc : Passes c)
    {rest : List Token} (hr : Stops rest) :
    splitAtom 0 false (a ++ .word "BETWEEN".toList :: b ++ .word "AND".toList :: c ++ rest) =
      (a ++ .word "BETWEEN".toList :: b ++ .word "AND".toList :: c, rest) := by
  have hbetween (more : List Token) : splitAtom 0 false (.word "BETWEEN".toList :: more) =
      (.word "BETWEEN".toList :: (splitAtom 0 true more).1, (splitAtom 0 true more).2) := rfl
  have hand (more : List Token) : splitAtom 0 true (.word "AND".toList :: more) =
      (.word "AND".toList :: (splitAtom 0 false more).1, (splitAtom 0 false more).2) := rfl
  simp only [List.append_assoc, List.cons_append, ha _ _ _, hb _ _ _, hc.split hr, hbetween, hand]

/-- The tokens read as one condition, whatever ends it. -/
def Factor (e : Engine) (toks : List Token) (t : Formula (List Token)) : Prop :=
  ∀ fuel rest, Stops rest → 2 * toks.length ≤ fuel → factor e fuel (toks ++ rest) = some (t, rest)

def Expression (e : Engine) (toks : List Token) (t : Formula (List Token)) : Prop :=
  ∀ fuel rest, Ends rest → 2 * toks.length + 1 ≤ fuel →
    expression e fuel (toks ++ rest) = some (t, rest)

structure Following (e : Engine) (toks : List Token) (links : List (Bool × Formula (List Token))) :
    Prop where
  stops : Stops toks
  reads : ∀ fuel t rest, Ends rest → 2 * toks.length + 1 ≤ fuel →
    following e fuel t (toks ++ rest) = some (t.follow links, rest)

variable {e : Engine}

theorem factor_atom {toks : List Token} (h : IsAtom toks) : Factor e toks (signed e toks) := by
  obtain ⟨t, more, rfl, hnot, hopen, hends⟩ := h.opens
  intro fuel rest hr hf
  rw [List.length_cons] at hf
  obtain ⟨fuel, rfl⟩ : ∃ n, fuel = n + 1 := ⟨fuel - 1, by omega⟩
  have hsplit := h.split rest hr
  rw [List.cons_append] at hsplit ⊢
  rw [factor, if_neg (by simp [hnot]), if_neg hopen, if_neg (by simp [hends]), hsplit]

theorem factor_not {toks : List Token} {t : Formula (List Token)} (h : Factor e toks t) :
    Factor e (.word "NOT".toList :: toks) (.not t) := by
  intro fuel rest hr hf
  rw [List.length_cons] at hf
  obtain ⟨fuel, rfl⟩ : ∃ n, fuel = n + 1 := ⟨fuel - 1, by omega⟩
  rw [List.cons_append, factor, if_pos (by decide), h fuel rest hr (by omega)]
  rfl

theorem factor_paren {toks : List Token} {t : Formula (List Token)} (h : Expression e toks t) :
    Factor e (.sign '(' :: toks ++ [.sign ')']) t := by
  intro fuel rest _ hf
  rw [List.length_append, List.length_cons, List.length_singleton] at hf
  obtain ⟨fuel, rfl⟩ : ∃ n, fuel = n + 1 := ⟨fuel - 1, by omega⟩
  have hends : Ends (.sign ')' :: rest) := by
    rintro _ ⟨⟩
    rfl
  rw [List.append_assoc, List.cons_append, List.singleton_append, factor, if_neg (by decide),
    if_pos rfl, h fuel _ hends (by omega)]
  rfl

theorem following_nil : Following e [] [] where
  stops := by rintro _ ⟨⟩
  reads fuel t rest hr hf := by
    obtain ⟨fuel, rfl⟩ : ∃ n, fuel = n + 1 := ⟨fuel - 1, by simp at hf; omega⟩
    rw [List.nil_append]
    cases rest with
    | nil => rfl
    | cons k rest =>
      obtain rfl := hr k rfl
      rfl

def connector (isOr : Bool) : Token := .word (if isOr then "OR".toList else "AND".toList)

theorem following_cons {isOr : Bool} {toks more : List Token} {s : Formula (List Token)}
    {links : List (Bool × Formula (List Token))} (hs : Factor e toks s)
    (hm : Following e more links) :
    Following e (connector isOr :: toks ++ more) ((isOr, s) :: links) where
  stops := by
    rintro _ ⟨⟩
    cases isOr <;> decide
  reads fuel t rest hr hf := by
    rw [List.length_append, List.length_cons] at hf
    obtain ⟨fuel, rfl⟩ : ∃ n, fuel = n + 1 := ⟨fuel - 1, by omega⟩
    -- What follows begins with a connector or ends, so the condition before it stops there.
    have hfactor := hs fuel (more ++ rest) (hm.stops.append hr.stops) (by omega)
    have hmore (u : Formula (List Token)) := hm.reads fuel u rest hr (by omega)
    rw [List.append_assoc, List.cons_append]
    cases isOr with
    | false =>
      rw [following, if_pos (by decide), hfactor]
      exact hmore _
    | true =>
      rw [following, if_neg (by decide), if_pos (by decide), hfactor]
      exact congrArg (Option.map fun x => (t.or x.1, x.2)) (hmore s)

theorem expression_follow {toks more : List Token} {t : Formula (List Token)}
    {links : List (Bool × Formula (List Token))} (hne : toks ≠ []) (ht : Factor e toks t)
    (hm : Following e more links) : Expression e (toks ++ more) (t.follow links) := by
  intro fuel rest hr hf
  have hpos := List.length_pos_iff.mpr hne
  rw [List.length_append] at hf
  obtain ⟨fuel, rfl⟩ : ∃ n, fuel = n + 1 := ⟨fuel - 1, by omega⟩
  rw [List.append_assoc, expression,
    ht fuel (more ++ rest) (hm.stops.append hr.stops) (by omega), Option.bind_some]
  exact hm.reads fuel t rest hr (by omega)

theorem expression_factor {toks : List Token} {t : Formula (List Token)} (hne : toks ≠ [])
    (h : Factor e toks t) : Expression e toks t := by
  have hfollow := expression_follow hne h following_nil
  rwa [List.append_nil] at hfollow

theorem readTokens?_eq {toks : List Token} {t : Formula (List Token)} (hne : toks ≠ [])
    (h : Expression e toks t) : readTokens? e toks = some (some t) := by
  have hread := h (2 * toks.length + 1) [] (by rintro _ ⟨⟩) (Nat.le_refl _)
  rw [List.append_nil] at hread
  rw [readTokens?, if_neg hne, hread]

example : read? .generic "NOT a OR b AND c" = some (some (.or (.not (.leaf [.word ['a']]))
    (.and (.leaf [.word ['b']]) (.leaf [.word ['c']])))) := by decide +kernel

end SqlDialects.Reading
