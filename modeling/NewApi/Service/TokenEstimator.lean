import NewApi.Lib.Text

/-!
# The estimate of a text's tokens (`service/token_estimator.go`)

The weights are counted exactly.

* `scanRune_le` — a rune adds the most outside of a word, and leaves the same word type.
* `estimateToken_append` — more text is never cheaper, and a text in two pieces is never cheaper
  than in one.
-/

namespace NewApi.TokenEstimator

open List NNRat

inductive Provider
  | openai | gemini | claude | unknown

structure Multipliers where
  (word number cjk symbol mathSymbol urlDelim atSign emoji newline space : ℚ≥0)
  basePad : Nat

def getMultipliers : Provider → Multipliers
  | .gemini => ⟨1.15, 2.8, 0.68, 0.38, 1.05, 1.2, 2.5, 1.08, 1.15, 0.2, 0⟩
  | .claude => ⟨1.13, 1.63, 1.21, 0.4, 4.52, 1.26, 2.82, 2.6, 0.89, 0.39, 0⟩
  | .openai | .unknown => ⟨1.02, 1.55, 0.85, 0.4, 2.68, 1.0, 2.0, 2.12, 0.5, 0.42, 0⟩

/-- The tables of `unicode` besides white space. -/
structure Unicode where
  (isHan isLetter isNumber : Char → Bool)

inductive WordType
  | none | latin | number
  deriving DecidableEq

def between (lo hi : Nat) (r : Char) : Bool := lo ≤ r.toNat && r.toNat ≤ hi

def isCJK (u : Unicode) (r : Char) : Bool :=
  u.isHan r || between 0x3040 0x30FF r || between 0xAC00 0xD7A3 r

def isLatinOrNumber (u : Unicode) (r : Char) : Bool := u.isLetter r || u.isNumber r

def isEmoji (r : Char) : Bool :=
  between 0x1F300 0x1F9FF r || between 0x2600 0x26FF r ||
    between 0x2700 0x27BF r || between 0x1F600 0x1F64F r ||
    between 0x1F900 0x1F9FF r || between 0x1FA00 0x1FAFF r

def isMathSymbol (r : Char) : Bool :=
  "∑∫∂√∞≤≥≠≈±×÷∈∉∋∌⊂⊃⊆⊇∪∩∧∨¬∀∃∄∅∆∇∝∟∠∡∢°′″‴⁺⁻⁼⁽⁾ⁿ₀₁₂₃₄₅₆₇₈₉₊₋₌₍₎²³¹⁴⁵⁶⁷⁸⁹⁰".toList.contains r ||
    between 0x2200 0x22FF r || between 0x2A00 0x2AFF r ||
    between 0x1D400 0x1D7FF r

def isURLDelim (r : Char) : Bool := "/:?&=;#%".toList.contains r

/-- The body of the loop, on `count` and `currentWordType`. -/
def scanRune (u : Unicode) (m : Multipliers) (s : ℚ≥0 × WordType) (r : Char) : ℚ≥0 × WordType :=
  if Text.isSpace r then (s.1 + if r = '\n' ∨ r = '\t' then m.newline else m.space, .none)
  else if isCJK u r then (s.1 + m.cjk, .none)
  else if isEmoji r then (s.1 + m.emoji, .none)
  else if isLatinOrNumber u r then
    let newType := if u.isNumber r then WordType.number else .latin
    if s.2 = .none ∨ s.2 ≠ newType then (s.1 + if newType = .number then m.number else m.word, newType) else s
  else if isMathSymbol r then (s.1 + m.mathSymbol, .none)
  else if r = '@' then (s.1 + m.atSign, .none)
  else if isURLDelim r then (s.1 + m.urlDelim, .none)
  else (s.1 + m.symbol, .none)

def estimateToken (u : Unicode) (provider : Provider) (text : List Char) : Nat :=
  let m := getMultipliers provider
  ⌈(text.foldl (scanRune u m) (0, .none)).1⌉₊ + m.basePad

variable (u : Unicode) (m : Multipliers)

theorem scanRune_eq (s : ℚ≥0 × WordType) (r : Char) :
    scanRune u m s r = (s.1 + (scanRune u m (0, s.2) r).1, (scanRune u m (0, s.2) r).2) := by
  simp only [scanRune, zero_add]
  split_ifs <;> simp

/-- Outside of a word a rune adds the most, and what it leaves does not depend on the word before
it. -/
theorem scanRune_le (w : WordType) (r : Char) :
    (scanRune u m (0, w) r).1 ≤ (scanRune u m (0, .none) r).1 ∧
      (scanRune u m (0, w) r).2 = (scanRune u m (0, .none) r).2 := by
  by_cases hword : w = .none ∨ w ≠ if u.isNumber r then WordType.number else .latin
  · simp [scanRune, hword]
  · obtain ⟨-, hw⟩ := not_or.mp hword
    rw [not_not] at hw
    simp only [scanRune, hword, if_false, true_or, if_true]
    split_ifs <;> simp [*]

theorem foldl_scanRune (text : List Char) (s : ℚ≥0 × WordType) :
    (text.foldl (scanRune u m) s).1 = s.1 + (text.foldl (scanRune u m) (0, s.2)).1 := by
  induction text generalizing s with
  | nil => simp
  | cons r text ih =>
    rw [foldl_cons, foldl_cons, ih (scanRune u m s r), ih (scanRune u m (0, s.2) r),
      scanRune_eq u m s, add_assoc]

theorem foldl_scanRune_le (text : List Char) (w : WordType) :
    (text.foldl (scanRune u m) (0, w)).1 ≤ (text.foldl (scanRune u m) (0, .none)).1 := by
  cases text with
  | nil => rfl
  | cons r text =>
    obtain ⟨hle, hnext⟩ := scanRune_le u m w r
    rw [foldl_cons, foldl_cons, foldl_scanRune, foldl_scanRune u m text (scanRune u m (0, .none) r),
      hnext]
    exact add_le_add_left hle _

/-- **More text is never cheaper, and neither is a text cut in two**, for every provider and
whatever the tables of `unicode` say. -/
theorem estimateToken_append (provider : Provider) (s t : List Char) :
    estimateToken u provider s ≤ estimateToken u provider (s ++ t) ∧
      estimateToken u provider (s ++ t) ≤ estimateToken u provider s + estimateToken u provider t := by
  simp only [estimateToken]
  set m := getMultipliers provider
  set before := s.foldl (scanRune u m) (0, .none) with hbefore
  have happend : ((s ++ t).foldl (scanRune u m) (0, .none)).1 =
      before.1 + (t.foldl (scanRune u m) (0, before.2)).1 := by
    rw [foldl_append, foldl_scanRune]
  have hmore : ⌈before.1⌉₊ ≤ ⌈before.1 + (t.foldl (scanRune u m) (0, before.2)).1⌉₊ :=
    Nat.ceil_mono le_self_add
  have hcut : ⌈before.1 + (t.foldl (scanRune u m) (0, before.2)).1⌉₊ ≤
      ⌈before.1⌉₊ + ⌈(t.foldl (scanRune u m) (0, .none)).1⌉₊ :=
    (Nat.ceil_add_le _ _).trans (Nat.add_le_add_left (Nat.ceil_mono (foldl_scanRune_le u m t _)) _)
  rw [happend]
  omega

end NewApi.TokenEstimator
