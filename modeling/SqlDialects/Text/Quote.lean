/-!
Texts between quotes, where a closing quote is written twice, and tokens replaced in a text unless
an escape stands before them, which is then dropped.
-/

namespace SqlDialects.Text

def double (mark : Char) (text : List Char) : List Char :=
  text.flatMap fun c => if c = mark then [c, c] else [c]

def quote (opening closing : Char) (text : List Char) : List Char :=
  opening :: double closing text ++ [closing]

@[simp] theorem double_nil (mark : Char) : double mark [] = [] := rfl

@[simp] theorem double_append (mark : Char) (a b : List Char) :
    double mark (a ++ b) = double mark a ++ double mark b :=
  List.flatMap_append

theorem double_eq_self {mark : Char} {text : List Char} (h : mark ∉ text) :
    double mark text = text := by
  induction text with
  | nil => rfl
  | cons c text ih =>
    have hc : c ≠ mark := fun he => h (he ▸ List.mem_cons_self)
    have ih := ih fun hm => h (List.mem_cons_of_mem _ hm)
    rw [double] at ih ⊢
    rw [List.flatMap_cons, if_neg hc, ih]
    rfl

def replaceUnescapedFrom (escape token replacement : List Char) : Nat → List Char → List Char
  | _, [] => []
  | skip + 1, _ :: rest => replaceUnescapedFrom escape token replacement skip rest
  | 0, c :: rest =>
    if (escape ++ token).isPrefixOf (c :: rest) then
      token ++ replaceUnescapedFrom escape token replacement (escape.length + token.length - 1) rest
    else if token.isPrefixOf (c :: rest) then
      replacement ++ replaceUnescapedFrom escape token replacement (token.length - 1) rest
    else c :: replaceUnescapedFrom escape token replacement 0 rest

/-- The text with each `token` replaced, an escaped one losing its escape instead. -/
def replaceUnescaped (escape token replacement text : String) : String :=
  if token.isEmpty then text
  else String.ofList
    (replaceUnescapedFrom escape.toList token.toList replacement.toList 0 text.toList)

@[simp] theorem replaceUnescapedFrom_nil (escape token replacement : List Char) (skip : Nat) :
    replaceUnescapedFrom escape token replacement skip [] = [] := by
  cases skip <;> rfl

end SqlDialects.Text
