import NewApi.Lib.Int64

/-!
# Weighted draws

A list is walked while the weights are taken off a random number; the element at which the number is
used up is drawn. Two such loops are in use, one stopping below zero and one at zero.

* `total` — the sum of the weights.
* `exists_drawBelow_iff` — over all numbers below the total, the first draws the elements of
  positive weight.
* `exists_drawAtMost_iff` — the second draws every element, when no weight is under two.
* `drawCount` — how many numbers draw an element.
* `walk` — the loops in 64-bit arithmetic, which agree with the exact ones while the weights fit.
-/

namespace NewApi

open List

section Draw

variable {α : Type} (w : α → Nat)

/-- `r -= w; if r < 0 { return }`. -/
def drawBelow : List α → Int → Option α
  | [], _ => none
  | a :: as, r => if r - w a < 0 then some a else drawBelow as (r - w a)

/-- `r -= w; if r <= 0 { return }`. -/
def drawAtMost : List α → Int → Option α
  | [], _ => none
  | a :: as, r => if r - w a ≤ 0 then some a else drawAtMost as (r - w a)

def totalWeight (as : List α) : Nat := (as.map w).sum

variable {w}

@[simp] theorem totalWeight_nil : totalWeight w ([] : List α) = 0 := rfl

@[simp] theorem totalWeight_cons (a : α) (as : List α) :
    totalWeight w (a :: as) = w a + totalWeight w as := rfl

variable {r : Int} {as : List α} {a : α}

theorem drawBelow_some (hr : 0 ≤ r) (h : drawBelow w as r = some a) : a ∈ as ∧ 0 < w a := by
  induction as generalizing r with
  | nil => cases h
  | cons b as ih =>
    simp only [drawBelow] at h
    split at h
    · cases h
      exact ⟨mem_cons_self, by omega⟩
    · obtain ⟨hmem, hpos⟩ := ih (by omega) h
      exact ⟨mem_cons_of_mem _ hmem, hpos⟩

theorem exists_drawBelow (ha : a ∈ as) (hpos : 0 < w a) :
    ∃ r : Nat, r < totalWeight w as ∧ drawBelow w as r = some a := by
  induction as with
  | nil => cases ha
  | cons b as ih =>
    rcases mem_cons.mp ha with rfl | hmem
    · refine ⟨0, by simp [hpos], ?_⟩
      simp [drawBelow, hpos]
    obtain ⟨r, hr, hdraw⟩ := ih hmem
    refine ⟨w b + r, by simp [hr], ?_⟩
    have hrest : ((w b + r : Nat) : Int) - w b = r := by push_cast; ring
    simp only [drawBelow, hrest]
    rw [if_neg (by omega), hdraw]

theorem exists_drawBelow_iff (as : List α) (a : α) :
    (∃ r : Nat, r < totalWeight w as ∧ drawBelow w as r = some a) ↔ a ∈ as ∧ 0 < w a := by
  constructor
  · rintro ⟨r, _, hdraw⟩
    exact drawBelow_some (by omega) hdraw
  · rintro ⟨ha, hpos⟩
    exact exists_drawBelow ha hpos

theorem drawBelow_isSome (hr : 0 ≤ r) (hlt : r < totalWeight w as) : (drawBelow w as r).isSome := by
  induction as generalizing r with
  | nil =>
    rw [totalWeight_nil] at hlt
    omega
  | cons b as ih =>
    simp only [drawBelow]
    split
    · rfl
    · rw [totalWeight_cons] at hlt
      exact ih (by omega) (by omega)

theorem drawAtMost_mem (h : drawAtMost w as r = some a) : a ∈ as := by
  induction as generalizing r with
  | nil => cases h
  | cons b as ih =>
    simp only [drawAtMost] at h
    split at h
    · cases h
      exact mem_cons_self
    · exact mem_cons_of_mem _ (ih h)

/-- Zero stops at the first element whatever it weighs, so the numbers from 1 on decide. -/
theorem exists_drawAtMost (hw : ∀ b ∈ as, 2 ≤ w b) (ha : a ∈ as) :
    ∃ r : Nat, 1 ≤ r ∧ r < totalWeight w as ∧ drawAtMost w as r = some a := by
  induction as with
  | nil => cases ha
  | cons b as ih =>
    have hb := hw b mem_cons_self
    rcases mem_cons.mp ha with rfl | hmem
    · refine ⟨1, le_refl 1, by rw [totalWeight_cons]; omega, ?_⟩
      simp only [drawAtMost]
      rw [if_pos (by omega)]
    obtain ⟨r, hone, hr, hdraw⟩ := ih (fun c hc => hw c (mem_cons_of_mem _ hc)) hmem
    refine ⟨w b + r, by omega, by rw [totalWeight_cons]; omega, ?_⟩
    have hrest : ((w b + r : Nat) : Int) - w b = r := by push_cast; ring
    simp only [drawAtMost, hrest]
    rw [if_neg (by omega), hdraw]

theorem exists_drawAtMost_iff (hw : ∀ b ∈ as, 2 ≤ w b) (a : α) :
    (∃ r : Nat, r < totalWeight w as ∧ drawAtMost w as r = some a) ↔ a ∈ as := by
  constructor
  · rintro ⟨r, _, hdraw⟩
    exact drawAtMost_mem hdraw
  intro ha
  obtain ⟨r, _, hr, hdraw⟩ := exists_drawAtMost hw ha
  exact ⟨r, hr, hdraw⟩

theorem drawAtMost_isSome (hne : as ≠ []) (hle : r ≤ totalWeight w as) :
    (drawAtMost w as r).isSome := by
  induction as generalizing r with
  | nil => exact absurd rfl hne
  | cons b as ih =>
    simp only [drawAtMost]
    split
    · rfl
    rw [totalWeight_cons] at hle
    refine ih (fun hnil => ?_) (by omega)
    subst hnil
    rw [totalWeight_nil] at hle
    omega

/-! ### In 64 bits -/

/-- The loop with every subtraction in 64 bits; `stop` is its test. -/
def walk (stop : Int → Bool) (w : α → Int) : List α → Int → Option α
  | [], _ => none
  | a :: as, r => if stop (int64 (r - w a)) then some a else walk stop w as (int64 (r - w a))

theorem walk_mem {stop : Int → Bool} {v : α → Int} (h : walk stop v as r = some a) : a ∈ as := by
  induction as generalizing r with
  | nil => cases h
  | cons b as ih =>
    simp only [walk] at h
    split at h
    · cases h
      exact mem_cons_self
    · exact mem_cons_of_mem _ (ih h)

variable {v : α → Int} (hw : ∀ a ∈ as, v a = w a ∧ w a < 2 ^ 63) (hr : 0 ≤ r) (hlt : r < 2 ^ 63)

include hw hr hlt

theorem walk_eq_drawBelow : walk (decide <| · < 0) v as r = drawBelow w as r := by
  induction as generalizing r with
  | nil => rfl
  | cons b as ih =>
    obtain ⟨hb, hsmall⟩ := hw b mem_cons_self
    have hexact : int64 (r - v b) = r - w b := by rw [hb, int64_eq] <;> omega
    simp only [walk, drawBelow, hexact, decide_eq_true_eq]
    split
    · rfl
    · exact ih (fun a ha => hw a (mem_cons_of_mem _ ha)) (by omega) (by omega)

theorem walk_eq_drawAtMost : walk (decide <| · ≤ 0) v as r = drawAtMost w as r := by
  induction as generalizing r with
  | nil => rfl
  | cons b as ih =>
    obtain ⟨hb, hsmall⟩ := hw b mem_cons_self
    have hexact : int64 (r - v b) = r - w b := by rw [hb, int64_eq] <;> omega
    simp only [walk, drawAtMost, hexact, decide_eq_true_eq]
    split
    · rfl
    · exact ih (fun a ha => hw a (mem_cons_of_mem _ ha)) (by omega) (by omega)

omit hw hr hlt

/-! ### Counting -/

/-- How many of the numbers below `bound` draw `b`. -/
def drawCount {β : Type} [DecidableEq β] (bound : Nat) (draw : Nat → β) (b : β) : Nat :=
  (List.range bound).countP fun r => decide (draw r = b)

variable [DecidableEq α]

theorem drawCount_drawBelow (as : List α) (a : α) :
    drawCount (totalWeight w as) (fun r => drawBelow w as r) (some a) = as.count a * w a := by
  unfold drawCount
  induction as with
  | nil => simp
  | cons b as ih =>
    have hfirst : (range (w b)).countP (fun r : Nat => decide (drawBelow w (b :: as) r = some a)) =
        (range (w b)).countP fun _ => decide (b = a) := by
      refine countP_congr fun r hr => ?_
      simp [drawBelow, mem_range.mp hr]
    have hrest : ∀ r : Nat, drawBelow w (b :: as) ((w b + r : Nat) : Int) = drawBelow w as r := by
      intro r
      simp [drawBelow]
    rw [totalWeight_cons, range_add, countP_append, countP_map, count_cons, add_mul, hfirst]
    simp only [Function.comp_def, hrest, ih]
    by_cases h : b = a <;> simp [h, add_comm]

theorem drawCount_drawAtMost_iff (hne : as ≠ []) (hw : ∀ b ∈ as, 0 < w b) :
    (∀ a ∈ as, drawCount (totalWeight w as) (fun r => drawAtMost w as r) (some a) = w a) ↔
      as.length = 1 := by
  obtain ⟨a, rest, rfl⟩ := exists_cons_of_ne_nil hne
  have hfirst : ∀ n ≤ w a + 1, drawCount n (fun r => drawAtMost w (a :: rest) r) (some a) = n := by
    intro n hn
    refine (countP_eq_length.mpr fun r hr => ?_).trans length_range
    have hlt := mem_range.mp hr
    simp [drawAtMost, show (r : Int) - w a ≤ 0 by omega]
  constructor
  · intro h
    rcases rest with _ | ⟨b, rest⟩
    · rfl
    have hb := hw b (by simp)
    have hsub : (range (w a + 1)).Sublist (range (totalWeight w (a :: b :: rest))) :=
      range_sublist.mpr (by simp only [totalWeight_cons]; omega)
    have hmore := (hfirst _ (le_refl _)).symm.trans_le hsub.countP_le
    rw [← drawCount, h a mem_cons_self] at hmore
    omega
  · intro hone b hb
    obtain rfl : rest = [] := length_eq_zero_iff.mp (by simpa using hone)
    obtain rfl := mem_singleton.mp hb
    exact hfirst _ (by simp)

end Draw

/-! ## Sorting and ranks -/

/-- A descending sort by an integer key; which order equal keys come out in is not fixed. -/
structure Sorting where
  sort : {α : Type} → (α → Int) → List α → List α
  perm : ∀ {α : Type} (key : α → Int) (l : List α), (sort key l).Perm l
  sorted : ∀ {α : Type} (key : α → Int) (l : List α), (sort key l).Pairwise fun a b => key b ≤ key a

namespace Sorting

/-- The sort that keeps the order of equal keys. -/
def stable : Sorting where
  sort key l := l.insertionSort fun a b => key b ≤ key a
  perm key l := List.perm_insertionSort _ l
  sorted key l := by
    have : Std.Total (fun a b => key b ≤ key a) := ⟨fun a b => le_total (key b) (key a)⟩
    have : IsTrans _ (fun a b => key b ≤ key a) := ⟨fun a b c hab hbc => le_trans hbc hab⟩
    exact List.pairwise_insertionSort _ l

end Sorting

/-- The distinct values in descending order. -/
def ranks (l : List Int) : List Int := l.dedup.insertionSort fun a b => b ≤ a

variable {l l' : List Int}

theorem mem_ranks {x : Int} : x ∈ ranks l ↔ x ∈ l := by
  rw [ranks, mem_insertionSort, mem_dedup]

theorem ranks_congr (h : ∀ x, x ∈ l ↔ x ∈ l') : ranks l = ranks l' := by
  have hperm : l.dedup.Perm l'.dedup := by
    rw [perm_ext_iff_of_nodup l.nodup_dedup l'.nodup_dedup]
    simpa using h
  have hsorted : ∀ k : List Int, (ranks k).Pairwise fun a b => b ≤ a := fun k =>
    pairwise_insertionSort _ _
  refine List.Perm.eq_of_pairwise (fun a b _ _ hab hba => le_antisymm hba hab) (hsorted l) (hsorted l') ?_
  exact ((perm_insertionSort _ _).trans hperm).trans (perm_insertionSort _ _).symm

/-- The value of rank `n`, or the last one when there are fewer. -/
def rankOrLast (l : List Int) (n : Nat) : Option Int := (ranks l)[min n ((ranks l).length - 1)]?

theorem exists_rankOrLast (h : l ≠ []) (n : Nat) : ∃ x, rankOrLast l n = some x ∧ x ∈ l := by
  have hpos : 0 < (ranks l).length := by
    obtain ⟨x, hx⟩ := exists_mem_of_ne_nil _ h
    exact length_pos_of_mem (mem_ranks.mpr hx)
  have hlt : min n ((ranks l).length - 1) < (ranks l).length := by omega
  refine ⟨(ranks l)[min n ((ranks l).length - 1)], ?_, ?_⟩
  · rw [rankOrLast, getElem?_eq_getElem hlt]
  · exact mem_ranks.mp (getElem_mem hlt)

theorem rankOrLast_congr (h : ∀ x, x ∈ l ↔ x ∈ l') (n : Nat) :
    rankOrLast l n = rankOrLast l' n := by
  rw [rankOrLast, rankOrLast, ranks_congr h]

theorem rankOrLast_zero (l : List Int) : rankOrLast l 0 = l.max? := by
  rcases hranks : ranks l with _ | ⟨x, rest⟩
  · have hnil : l = [] := eq_nil_iff_forall_not_mem.mpr fun x hx => by
      have hmem := mem_ranks.mpr hx
      rw [hranks] at hmem
      cases hmem
    rw [rankOrLast, hranks, hnil]
    rfl
  have hsorted : (ranks l).Pairwise fun a b => b ≤ a := pairwise_insertionSort _ _
  rw [hranks, pairwise_cons] at hsorted
  have hmax : l.max? = some x := by
    rw [max?_eq_some_iff]
    refine ⟨mem_ranks.mp (hranks ▸ mem_cons_self), fun y hy => ?_⟩
    have hmem : y ∈ x :: rest := hranks ▸ mem_ranks.mpr hy
    rcases mem_cons.mp hmem with rfl | hmem
    · exact le_refl y
    · exact hsorted.1 y hmem
  rw [hmax, rankOrLast, hranks]
  rfl

end NewApi
