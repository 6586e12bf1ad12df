import Mathlib

/-!
# Lists of texts kept as lines

* `trimBoth` — a text without the characters of a class at both ends.
* `lines` — `strings.Split(strings.Trim(text, "\n"), "\n")`.
* `unlines` — `strings.Join(texts, "\n")`.
* `lines_unlines_iff` — texts written as lines are read back exactly if none has a line break in it
  and neither the first nor the last is empty.
-/

namespace NewApi.Lines

open List

abbrev Str := List Char

def trimBoth (p : Char → Bool) (s : Str) : Str := (s.dropWhile p).rdropWhile p

theorem length_trimBoth_le (p : Char → Bool) (s : Str) : (trimBoth p s).length ≤ s.length :=
  (List.rdropWhile_prefix p _).length_le.trans (dropWhile_suffix p).length_le

theorem trimBoth_eq_self {p : Char → Bool} {s : Str} (hhead : ∀ c ∈ s.head?, p c = false)
    (hlast : ∀ c ∈ s.getLast?, p c = false) : trimBoth p s = s := by
  have hdrop : s.dropWhile p = s := by
    cases s with
    | nil => rfl
    | cons c s => exact dropWhile_cons_of_neg (by simpa using hhead c rfl)
  rw [trimBoth, hdrop, rdropWhile_eq_self_iff]
  intro hne
  simpa using hlast _ (getLast?_eq_some_getLast hne)

theorem head_trimBoth (p : Char → Bool) (s : Str) : ∀ c ∈ (trimBoth p s).head?, p c = false := by
  intro c hc
  obtain ⟨rest, hrest⟩ := rdropWhile_prefix p (s.dropWhile p)
  have hhead : (s.dropWhile p).head? = some c := by
    rw [trimBoth] at hc
    rw [← hrest, head?_append, hc]
    rfl
  have hnot := head?_dropWhile_not p s
  rw [hhead] at hnot
  simpa using hnot

theorem last_trimBoth (p : Char → Bool) (s : Str) : ∀ c ∈ (trimBoth p s).getLast?, p c = false := by
  intro c hc
  by_cases hne : trimBoth p s = []
  · rw [hne] at hc
    cases hc
  have hlast := rdropWhile_last_not p (s.dropWhile p) hne
  have hc' := getLast?_eq_some_getLast hne
  rw [hc'] at hc
  cases hc
  simpa [trimBoth] using hlast

def isBreak (c : Char) : Bool := c == '\n'

def lines (text : Str) : List Str := (trimBoth isBreak text).splitOn '\n'

def unlines (texts : List Str) : Str := ['\n'].intercalate texts

theorem lines_ne_nil (text : Str) : lines text ≠ [] := splitOn_ne_nil '\n' _

theorem not_break_of_mem_lines {text line : Str} (h : line ∈ lines text) : '\n' ∉ line := by
  have hsplit : ∀ s : Str, ∀ w ∈ s.splitOn '\n', '\n' ∉ w := by
    intro s
    induction s with
    | nil => simp
    | cons c s ih =>
      intro w hw
      rw [splitOn_cons_eq_if_modifyHead] at hw
      split at hw
      · rcases mem_cons.mp hw with rfl | hw
        · simp
        · exact ih w hw
      rename_i hc
      obtain ⟨first, rest, hfirst⟩ := exists_cons_of_ne_nil (splitOn_ne_nil '\n' s)
      rw [hfirst, modifyHead_cons] at hw
      rcases mem_cons.mp hw with rfl | hw
      · have hnot := ih first (by rw [hfirst]; exact mem_cons_self)
        simp only [mem_cons, not_or]
        exact ⟨fun heq => hc (by simp [← heq]), hnot⟩
      · exact ih w (by rw [hfirst]; exact mem_cons_of_mem _ hw)
  exact hsplit _ line h

theorem unlines_cons_cons (t t' : Str) (ts : List Str) :
    unlines (t :: t' :: ts) = t ++ '\n' :: unlines (t' :: ts) := by
  simp [unlines]

theorem unlines_eq_nil_iff {texts : List Str} (hne : texts ≠ []) :
    unlines texts = [] ↔ texts = [[]] := by
  obtain ⟨t, ts, rfl⟩ := exists_cons_of_ne_nil hne
  cases ts with
  | nil => simp [unlines]
  | cons t' ts =>
    rw [unlines_cons_cons]
    simp

theorem length_unlines (texts : List Str) :
    (unlines texts).length = (texts.map List.length).sum + (texts.length - 1) := by
  induction texts with
  | nil => rfl
  | cons t ts ih =>
    cases ts with
    | nil => simp [unlines]
    | cons t' ts =>
      rw [unlines_cons_cons, length_append, length_cons, ih]
      simp only [map_cons, sum_cons, length_cons]
      omega

theorem head_unlines (t : Str) (ts : List Str) : (unlines (t :: ts)).head? =
    if t = [] then (if ts = [] then none else some '\n') else t.head? := by
  cases ts with
  | nil => cases t <;> rfl
  | cons t' ts => cases t <;> rfl

theorem last_unlines (ts : List Str) (t : Str) : (unlines (ts ++ [t])).getLast? =
    if t = [] then (if ts = [] then none else some '\n') else t.getLast? := by
  induction ts with
  | nil =>
    rw [nil_append, unlines, intercalate_singleton]
    cases t <;> rfl
  | cons u us ih =>
    have hcons : ∃ v vs, us ++ [t] = v :: vs := by
      cases us with
      | nil => exact ⟨t, [], rfl⟩
      | cons v vs => exact ⟨v, vs ++ [t], rfl⟩
    obtain ⟨v, vs, hv⟩ := hcons
    rw [cons_append, hv, unlines_cons_cons, ← hv]
    by_cases hus : unlines (us ++ [t]) = []
    · have hempty := (unlines_eq_nil_iff (by simp)).mp hus
      have ht : t = [] := by
        cases us with
        | nil => simpa using hempty
        | cons w ws => simp at hempty
      rw [hus, ht]
      simp
    · rw [getLast?_append_of_ne_nil _ (by simp), ← singleton_append,
        getLast?_append_of_ne_nil _ hus, ih]
      by_cases ht : t = []
      · have hus' : us ≠ [] := by
          rintro rfl
          exact hus (by rw [ht]; rfl)
        simp [ht, hus']
      · simp [ht]

/-- **Texts written as lines and read back.** -/
theorem lines_unlines_iff {texts : List Str} (hne : texts ≠ []) : lines (unlines texts) = texts ↔
    texts = [[]] ∨ (∀ t ∈ texts, '\n' ∉ t) ∧ texts.head? ≠ some [] ∧ texts.getLast? ≠ some [] := by
  constructor
  · intro h
    have hbreak : ∀ t ∈ texts, '\n' ∉ t := fun t ht => not_break_of_mem_lines (by rw [h]; exact ht)
    -- the trimmed text is the join of what was read
    have htrim : trimBoth isBreak (unlines texts) = unlines texts := by
      have hjoin := @intercalate_splitOn Char (trimBoth isBreak (unlines texts)) _ _ '\n'
      rw [lines] at h
      rw [h] at hjoin
      exact hjoin.symm
    have hhead := head_trimBoth isBreak (unlines texts)
    have hlast := last_trimBoth isBreak (unlines texts)
    rw [htrim] at hhead hlast
    by_cases hone : texts = [[]]
    · exact .inl hone
    refine .inr ⟨hbreak, fun hfirst => ?_, fun hend => ?_⟩
    · obtain ⟨t, ts, rfl⟩ := exists_cons_of_ne_nil hne
      have ht : t = [] := by simpa using hfirst
      have hts : ts ≠ [] := by
        rintro rfl
        exact hone (by rw [ht])
      rw [head_unlines, if_pos ht, if_neg hts] at hhead
      exact absurd (hhead '\n' rfl) (by decide)
    · obtain ⟨ts, t, rfl⟩ := (eq_nil_or_concat' texts).resolve_left hne
      have ht : t = [] := by simpa using hend
      have hts : ts ≠ [] := by
        rintro rfl
        exact hone (by rw [ht]; rfl)
      rw [last_unlines, if_pos ht, if_neg hts] at hlast
      exact absurd (hlast '\n' rfl) (by decide)
  · rintro (rfl | ⟨hbreak, hhead, hlast⟩)
    · rfl
    have hchar : ∀ t ∈ texts, ∀ c ∈ t, isBreak c = false := by
      intro t ht c hc
      rw [isBreak, beq_eq_false_iff_ne]
      rintro rfl
      exact hbreak t ht hc
    have htrim : trimBoth isBreak (unlines texts) = unlines texts := by
      refine trimBoth_eq_self ?_ ?_
      · obtain ⟨t, ts, rfl⟩ := exists_cons_of_ne_nil hne
        have ht : t ≠ [] := fun h => hhead (by rw [h]; rfl)
        rw [head_unlines, if_neg ht]
        exact fun c hc => hchar t mem_cons_self c (mem_of_mem_head? hc)
      obtain ⟨ts, t, rfl⟩ := (eq_nil_or_concat' texts).resolve_left hne
      have ht : t ≠ [] := fun h => hlast (by simp [h])
      rw [last_unlines, if_neg ht]
      exact fun c hc => hchar t (by simp) c (mem_of_getLast? hc)
    rw [lines, htrim]
    exact splitOn_intercalate '\n' hbreak hne

theorem ends_of_lines {text : Str} (h : lines text ≠ [[]]) :
    (lines text).head? ≠ some [] ∧ (lines text).getLast? ≠ some [] := by
  have htrim : unlines (lines text) = trimBoth isBreak text := intercalate_splitOn '\n'
  have hread : lines (unlines (lines text)) = lines text := by
    rw [htrim, lines, lines, trimBoth_eq_self (head_trimBoth _ _) (last_trimBoth _ _)]
  rcases (lines_unlines_iff (lines_ne_nil text)).mp hread with hone | hends
  · exact absurd hone h
  · exact hends.2

end NewApi.Lines
