import Mathlib.Data.List.Infix
/-!
# Like — patterns with wildcards, and a literal looked for through one

A pattern is read into tokens: a run of anything, one of anything, or a letter.  A text whose special letters are escaped,
set between two wildcards, fits exactly the values that contain it.
-/
namespace Like

variable {α : Type} [DecidableEq α]

structure Marks (α : Type) where
  anyRun : α
  anyOne : α
  escape : α
  run_one : anyRun ≠ anyOne
  run_escape : anyRun ≠ escape
  one_escape : anyOne ≠ escape

inductive Token (α : Type) where
  | anyRun
  | anyOne
  | lit (letter : α)
deriving DecidableEq

variable (m : Marks α)

def Marks.token (letter : α) : Token α :=
  if letter = m.anyRun then .anyRun else if letter = m.anyOne then .anyOne else .lit letter

/-- The tokens of a pattern; one that ends in its escape is an error. -/
def tokens : List α → Option (List (Token α))
  | [] => some []
  | [letter] => if letter = m.escape then none else some [m.token letter]
  | letter :: next :: rest =>
    if letter = m.escape then (tokens rest).map (Token.lit next :: ·)
    else (tokens (next :: rest)).map (m.token letter :: ·)

def fits : List (Token α) → List α → Bool
  | [], value => value.isEmpty
  | .anyRun :: rest, value => value.tails.any (fits rest)
  | .anyOne :: _, [] => false
  | .anyOne :: rest, _ :: value => fits rest value
  | .lit _ :: _, [] => false
  | .lit letter :: rest, first :: value => letter = first && fits rest value

def like (value pattern : List α) : Option Bool := (tokens m pattern).map fun read => fits read value

def guarded (letter : α) (text : List α) : List α := text.flatMap fun c => if c = letter then [m.escape, c] else [c]

/-- The escape first, then the wildcards. -/
def autoescape (text : List α) : List α := guarded m m.anyOne (guarded m m.anyRun (guarded m m.escape text))

def containing (text : List α) : List α := m.anyRun :: autoescape m text ++ [m.anyRun]

/-! ## The escaped text -/

def Marks.special (c : α) : Bool := c = m.escape ∨ c = m.anyRun ∨ c = m.anyOne

@[simp] theorem guarded_nil (letter : α) : guarded m letter [] = [] := rfl

@[simp] theorem guarded_cons (letter c : α) (text : List α) :
    guarded m letter (c :: text) = (if c = letter then [m.escape, c] else [c]) ++ guarded m letter text := by
  simp [guarded]

theorem autoescape_cons (c : α) (text : List α) :
    autoescape m (c :: text) = (if m.special c then [m.escape, c] else [c]) ++ autoescape m text := by
  have hrun := m.run_escape
  have hone := m.one_escape
  have hrunOne := m.run_one
  unfold autoescape Marks.special
  by_cases hescape : c = m.escape
  · simp [hescape, hrun.symm, hone.symm]
  · by_cases hanyRun : c = m.anyRun
    · simp [hanyRun, hrun, hone.symm, hrunOne]
    · by_cases hanyOne : c = m.anyOne
      · simp [hanyOne, hone, hrunOne.symm]
      · simp [hescape, hanyRun, hanyOne]

theorem token_plain (c : α) (hplain : m.special c = false) : m.token c = .lit c := by
  simp only [Marks.special, decide_eq_false_iff_not, not_or] at hplain
  simp [Marks.token, hplain]

theorem tokens_cons (c : α) (hc : c ≠ m.escape) (rest : List α) :
    tokens m (c :: rest) = (tokens m rest).map (m.token c :: ·) := by
  cases rest <;> simp [tokens, hc]

theorem tokens_autoescape (text rest : List α) :
    tokens m (autoescape m text ++ rest) = (tokens m rest).map (text.map Token.lit ++ ·) := by
  induction text with
  | nil => simp [autoescape]
  | cons c text ih =>
    rw [autoescape_cons]
    cases hspecial : m.special c with
    | true => simp [tokens, ih, Function.comp_def]
    | false =>
      have hc : c ≠ m.escape := by
        intro he
        simp [Marks.special, he] at hspecial
      simp [tokens_cons m c hc, ih, token_plain m c hspecial, Function.comp_def]

theorem tokens_containing (text : List α) :
    tokens m (containing m text) = some (.anyRun :: (text.map Token.lit ++ [.anyRun])) := by
  have htoken : m.token m.anyRun = .anyRun := by simp [Marks.token]
  have hlast : tokens m [m.anyRun] = some [.anyRun] := by simp [tokens, m.run_escape, htoken]
  unfold containing
  rw [List.cons_append, tokens_cons m _ m.run_escape, tokens_autoescape, hlast, htoken]
  rfl

/-! ## What fits -/

theorem fits_anyRun (value : List α) : fits [.anyRun] value = true := by
  simp only [fits, List.any_eq_true, List.mem_tails]
  exact ⟨[], List.nil_suffix, rfl⟩

theorem fits_literal (text value : List α) : fits (text.map Token.lit ++ [.anyRun]) value = true ↔ text <+: value := by
  induction text generalizing value with
  | nil => simpa using fits_anyRun value
  | cons c text ih =>
    cases value with
    | nil => simp [fits]
    | cons d value => simp [fits, ih, List.cons_prefix_cons]

theorem fits_containing (text value : List α) :
    fits (.anyRun :: (text.map Token.lit ++ [.anyRun])) value = true ↔ text <:+: value := by
  simp only [fits, List.any_eq_true, List.mem_tails]
  constructor
  · rintro ⟨tail, hsuffix, hfits⟩
    exact ((fits_literal text tail).1 hfits).isInfix.trans hsuffix.isInfix
  · rintro ⟨before, after, rfl⟩
    have hsuffix : text ++ after <:+ before ++ text ++ after := ⟨before, (List.append_assoc before text after).symm⟩
    exact ⟨text ++ after, hsuffix, (fits_literal text _).2 (List.prefix_append text after)⟩

theorem like_containing (text value : List α) : like m value (containing m text) = some true ↔ text <:+: value := by
  simp only [like, tokens_containing, Option.map_some, Option.some.injEq, fits_containing]

/-! ## A folding of the letters -/

/-- Letters may be folded first, so long as none becomes special or stops being so. -/
structure Folds (fold : α → α) : Prop where
  anyRun : ∀ c, fold c = m.anyRun ↔ c = m.anyRun
  anyOne : ∀ c, fold c = m.anyOne ↔ c = m.anyOne
  escape : ∀ c, fold c = m.escape ↔ c = m.escape

theorem Folds.special {fold : α → α} (hfold : Folds m fold) (c : α) : m.special (fold c) = m.special c := by
  simp only [Marks.special, hfold.anyRun, hfold.anyOne, hfold.escape]

theorem Folds.autoescape {fold : α → α} (hfold : Folds m fold) (text : List α) :
    (autoescape m text).map fold = autoescape m (text.map fold) := by
  have hescape : fold m.escape = m.escape := (hfold.escape _).2 rfl
  induction text with
  | nil => rfl
  | cons c text ih =>
    rw [List.map_cons, autoescape_cons, autoescape_cons, hfold.special, List.map_append, ih]
    cases m.special c <;> simp [hescape]

theorem Folds.like_containing {fold : α → α} (hfold : Folds m fold) (text value : List α) :
    like m (value.map fold) ((containing m text).map fold) = some true ↔ text.map fold <:+: value.map fold := by
  have hpattern : (containing m text).map fold = containing m (text.map fold) := by
    have hrun : fold m.anyRun = m.anyRun := (hfold.anyRun _).2 rfl
    simp [containing, hrun, hfold.autoescape]
  rw [hpattern, Like.like_containing]

end Like
