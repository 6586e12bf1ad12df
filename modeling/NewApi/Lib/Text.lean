import Mathlib

/-!
# Text helpers with the behaviour of the Go `strings` package

* `join_eq_iff_dropped_empty` — leaving out pieces does not change a concatenation exactly when they
  are empty.
-/

namespace NewApi.Text

open List String

/-- `unicode.IsSpace`: the Latin-1 spaces and the Unicode white-space property. -/
def isSpace (c : Char) : Bool :=
  let n := c.toNat
  (9 ≤ n && n ≤ 13) || n == 0x20 || n == 0x85 || n == 0xA0 || n == 0x1680 ||
    (0x2000 ≤ n && n ≤ 0x200a) || n == 0x2028 || n == 0x2029 || n == 0x202f || n == 0x205f ||
    n == 0x3000

/-- `strings.TrimSpace(s) == ""`. -/
def isBlank (s : String) : Bool := s.toList.all isSpace

/-- `strings.TrimSpace(s)`. -/
def trimSpace (s : String) : String :=
  String.ofList (((s.toList.dropWhile isSpace).reverse.dropWhile isSpace).reverse)

/-- `strings.Cut`: the text before and after the first occurrence of `pat`. -/
def cutFirst (pat : List Char) : List Char → Option (List Char × List Char)
  | [] => if pat = [] then some ([], []) else none
  | c :: s =>
    if pat.isPrefixOf (c :: s) then some ([], (c :: s).drop pat.length)
    else (cutFirst pat s).map fun cut => (c :: cut.1, cut.2)

/-- `strings.Contains(s, sub)`. -/
def contains (s sub : String) : Bool := decide (sub.toList <:+: s.toList)

/-- `strings.HasPrefix(s, start)`. -/
def hasPrefix (s start : String) : Bool := start.toList.isPrefixOf s.toList

/-- `strings.HasSuffix(s, suffix)`. -/
def hasSuffix (s ending : String) : Bool := ending.toList.isSuffixOf s.toList

/-- `strings.Split(s, sep)` with a separator of one character. -/
def split (s : String) (sep : Char) : List String := (s.toList.splitOn sep).map String.ofList

/-- `strings.Trim(s, cutset)` with a cutset of one character. -/
def trim (s : String) (c : Char) : String :=
  String.ofList (((s.toList.dropWhile (· == c)).reverse.dropWhile (· == c)).reverse)

theorem split_ne_nil (s : String) (sep : Char) : split s sep ≠ [] := by
  rw [split, ne_eq, map_eq_nil_iff]
  exact splitOn_ne_nil sep s.toList

@[simp] theorem trimSpace_trimSpace (s : String) : trimSpace (trimSpace s) = trimSpace s := by
  have hlist : ∀ l : List Char, (l.dropWhile isSpace).rdropWhile isSpace =
      (((l.dropWhile isSpace).rdropWhile isSpace).dropWhile isSpace).rdropWhile isSpace := by
    intro l
    have hdrop : ((l.dropWhile isSpace).rdropWhile isSpace).dropWhile isSpace =
        (l.dropWhile isSpace).rdropWhile isSpace := by
      rw [dropWhile_eq_self_iff]
      intro hl
      -- what is left starts where the first pass stopped
      have hpre := rdropWhile_prefix isSpace (l.dropWhile isSpace)
      have hpos : 0 < (l.dropWhile isSpace).length := lt_of_lt_of_le hl hpre.length_le
      rw [hpre.getElem hl]
      exact dropWhile_get_zero_not isSpace l hpos
    rw [hdrop, rdropWhile_idempotent]
  have h := hlist s.toList
  simp only [rdropWhile] at h
  simp only [trimSpace, toList_ofList]
  rw [← h]

section Join

variable {α : Type} (keep : α → Prop) [DecidablePred keep] (str : α → String)

theorem join_eq_empty_iff (l : List α) : String.join (l.map str) = "" ↔ ∀ a ∈ l, str a = "" := by
  induction l with
  | nil => simp
  | cons a l ih => simp [ih]

theorem join_filter_map (l : List α) : String.join ((l.filter fun a => decide (keep a)).map str) =
    String.join (l.map fun a => if keep a then str a else "") := by
  induction l with
  | nil => rfl
  | cons a l ih =>
    rw [map_cons, join_cons, ← ih, filter_cons]
    by_cases hkeep : keep a
    · simp [hkeep]
    · simp [hkeep]

theorem length_join_kept_le (l : List α) :
    (String.join (l.map fun a => if keep a then str a else "")).length ≤ (String.join (l.map str)).length := by
  induction l with
  | nil => exact le_refl _
  | cons a l ih =>
    simp only [map_cons, String.join_cons, String.length_append]
    split
    · omega
    · rw [String.length_empty]
      omega

theorem join_eq_iff_dropped_empty (l : List α) :
    String.join (l.map fun a => if keep a then str a else "") = String.join (l.map str) ↔
      ∀ a ∈ l, ¬ keep a → str a = "" := by
  induction l with
  | nil => simp
  | cons a l ih =>
    rw [forall_mem_cons, map_cons, map_cons, join_cons, join_cons]
    by_cases hkeep : keep a
    · rw [if_pos hkeep, String.append_right_inj, ih]
      exact ⟨fun h => ⟨fun hnot => absurd hkeep hnot, h⟩, fun h => h.2⟩
    rw [if_neg hkeep, empty_append]
    constructor
    · intro heq
      -- what is kept of the rest is no longer than the rest
      have hle := length_join_kept_le keep str l
      have hlen := congrArg String.length heq
      rw [String.length_append] at hlen
      have hempty : str a = "" := length_eq_zero_iff.mp (by omega)
      rw [hempty, empty_append] at heq
      exact ⟨fun _ => hempty, ih.mp heq⟩
    · rintro ⟨hempty, hrest⟩
      rw [hempty hkeep, empty_append]
      exact ih.mpr hrest

end Join

end NewApi.Text
