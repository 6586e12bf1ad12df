import Mathlib

/-!
# Counting in sliding windows

Times are counted in two ways: those less than `window` before a moment (`recent`), and those in the
half-open window from a moment on (`within`). Lists of times have the newest first.

* `Admitted.within_le` — times that were each let in while fewer than `limit` were recent are at
  most `limit` in any window.
* `Earned.within_le` — the bound for times that are paid for out of a bucket that fills at a steady
  rate.
* `Covers` — a log of the newest times stands for the whole history: `Covers.recent_lt_iff` decides
  the limit from the log, and `push`, `forget` and `tick` say how a log goes on standing for its
  history.
-/

namespace NewApi.Window

open List

/-- How many of the times are less than `window` before `now`. -/
def recent (window now : Int) (times : List Int) : Nat :=
  times.countP fun t => decide (now - t < window)

/-- How many of the times are in the window that begins at `start`. -/
def within (window start : Int) (times : List Int) : Nat :=
  times.countP fun t => decide (start ≤ t) && decide (t < start + window)

/-- How many of the times are at `start` or later. -/
def since (start : Int) (times : List Int) : Nat := times.countP fun t => decide (start ≤ t)

variable {limit : Nat} {window clock now start t : Int} {log times : List Int}

theorem within_le_since : within window start times ≤ since start times := by
  refine countP_mono_left ?_
  intro x _ hx
  exact (Bool.and_eq_true_iff.mp hx).1

theorem within_eq_zero (h : window ≤ 0) : within window start times = 0 := by
  rw [within, countP_eq_zero]
  intro x _
  simp only [Bool.and_eq_true, decide_eq_true_eq]
  omega

theorem within_le_of_sublist {times' : List Int} (h : times.Sublist times') :
    within window start times ≤ within window start times' :=
  h.countP_le

/-! ## A limit on what is recent -/

/-- Every time was let in while fewer than `limit` of those before it were recent. -/
def Admitted (limit : Nat) (window : Int) : List Int → Prop
  | [] => True
  | t :: before => recent window t before < limit ∧ Admitted limit window before

theorem Admitted.within_le (h : Admitted limit window times) (start : Int) :
    within window start times ≤ limit := by
  induction times with
  | nil => exact Nat.zero_le _
  | cons t before ih =>
    by_cases ht : start ≤ t ∧ t < start + window
    · -- what is in the window before `t` is recent at `t`
      have hrecent : within window start before ≤ recent window t before := by
        refine countP_mono_left ?_
        intro x _ hx
        simp only [Bool.and_eq_true, decide_eq_true_eq] at hx ⊢
        omega
      have hcount : within window start (t :: before) = within window start before + 1 :=
        countP_cons_of_pos (by simpa using ht)
      have hlimit := h.1
      omega
    · rw [within, countP_cons_of_neg (by simpa using ht)]
      exact ih h.2

/-! ## A bucket -/

/-- From `start` on, each time has been paid for: `cost` for each, out of `burst` and of what has
    come in at `rate` since. -/
def Earned (cost rate burst start : Int) : List Int → Prop
  | [] => True
  | t :: before =>
    (start ≤ t → cost * since start (t :: before) ≤ burst + rate * (t - start)) ∧ Earned cost rate burst start before

theorem Earned.within_le {cost rate burst : Int} (h : Earned cost rate burst start times)
    (hcost : 0 ≤ cost) (hrate : 0 ≤ rate) (hburst : 0 ≤ burst) (hwindow : 0 < window) :
    cost * within window start times ≤ burst + rate * (window - 1) := by
  have hfill : 0 ≤ rate * (window - 1) := mul_nonneg hrate (by omega)
  induction times with
  | nil =>
    rw [within, countP_nil, Int.natCast_zero, mul_zero]
    omega
  | cons t before ih =>
    by_cases ht : start ≤ t ∧ t < start + window
    · calc cost * (within window start (t :: before) : Int) ≤ cost * since start (t :: before) :=
            mul_le_mul_of_nonneg_left (by exact_mod_cast within_le_since) hcost
        _ ≤ burst + rate * (t - start) := h.1 ht.1
        _ ≤ burst + rate * (window - 1) := by
            have hlast : rate * (t - start) ≤ rate * (window - 1) :=
              mul_le_mul_of_nonneg_left (by omega) hrate
            omega
    · rw [within, countP_cons_of_neg (by simpa using ht)]
      exact ih h.2

/-! ## A log of the newest times -/

/-- `log` has the newest of `times`, at most `limit`; those it lacks do not matter from `clock` on,
as there are `limit` newer ones or they are a window old. -/
structure Covers (limit : Nat) (window clock : Int) (log times : List Int) : Prop where
  kept : ∃ rest, times = log ++ rest ∧ (log.length = limit ∨ ∀ t ∈ rest, t + window ≤ clock)
  short : log.length ≤ limit
  newestFirst : times.Pairwise fun newer older => older ≤ newer
  past : ∀ t ∈ times, t ≤ clock

theorem Covers.nil : Covers limit window clock [] [] where
  kept := ⟨[], rfl, .inr fun _ h => absurd h not_mem_nil⟩
  short := Nat.zero_le _
  newestFirst := List.Pairwise.nil
  past := fun _ h => absurd h not_mem_nil

variable (h : Covers limit window clock log times)

include h

theorem Covers.tick (hnow : clock ≤ now) :
    Covers limit window now log times where
  kept := by
    obtain ⟨rest, hrest, hfull | hold⟩ := h.kept
    · exact ⟨rest, hrest, .inl hfull⟩
    · exact ⟨rest, hrest, .inr fun t ht => (hold t ht).trans hnow⟩
  short := h.short
  newestFirst := h.newestFirst
  past := fun t ht => (h.past t ht).trans hnow

theorem Covers.push (ht : clock ≤ t) :
    Covers limit window t ((t :: log).take limit) (t :: times) where
  kept := by
    obtain ⟨rest, rfl, hrest⟩ := h.kept
    refine ⟨(t :: log).drop limit ++ rest, ?_, ?_⟩
    · rw [← append_assoc, take_append_drop, cons_append]
    rcases Nat.lt_or_ge log.length limit with hlt | hge
    · -- nothing is dropped
      refine .inr fun x hx => ?_
      rw [drop_eq_nil_of_le (by rw [length_cons]; omega), nil_append] at hx
      rcases hrest with hfull | hold
      · omega
      · exact (hold x hx).trans ht
    · refine .inl ?_
      rw [length_take, length_cons]
      omega
  short := length_take_le _ _
  newestFirst := pairwise_cons.mpr ⟨fun x hx => (h.past x hx).trans ht, h.newestFirst⟩
  past := by
    intro x hx
    rcases mem_cons.mp hx with rfl | hx
    · exact le_rfl
    · exact (h.past x hx).trans ht

theorem Covers.forget (hlimit : 0 < limit) (hnow : clock ≤ now)
    (hold : ∀ t ∈ log, t + window ≤ now) : Covers limit window now [] times where
  kept := by
    obtain ⟨rest, rfl, hrest⟩ := h.kept
    refine ⟨log ++ rest, rfl, .inr fun x hx => ?_⟩
    rcases mem_append.mp hx with hx | hx
    · exact hold x hx
    rcases hrest with hfull | hdead
    · -- everything in the rest is older than the log, which has an entry
      obtain ⟨newer, hnewer⟩ := exists_mem_of_length_pos (by omega : 0 < log.length)
      have hle := (pairwise_append.mp h.newestFirst).2.2 newer hnewer x hx
      have hnewer' := hold newer hnewer
      omega
    · exact (hdead x hx).trans hnow
  short := Nat.zero_le _
  newestFirst := h.newestFirst
  past := fun x hx => (h.past x hx).trans hnow

theorem Covers.recent_lt_iff (hlimit : 0 < limit) (hnow : clock ≤ now) :
    recent window now times < limit ↔
      log.length < limit ∨ ∃ oldest, log.getLast? = some oldest ∧ window ≤ now - oldest := by
  obtain ⟨rest, rfl, hrest⟩ := h.kept
  have hsplit : recent window now (log ++ rest) = recent window now log + recent window now rest :=
    countP_append
  have hlog : recent window now log ≤ log.length := countP_le_length
  obtain ⟨-, -, hacross⟩ := pairwise_append.mp h.newestFirst
  have hsorted := (pairwise_append.mp h.newestFirst).1
  have hshort := h.short
  have hzero : (∀ x ∈ rest, x + window ≤ now) → recent window now rest = 0 := by
    intro hdead
    rw [recent, countP_eq_zero]
    intro x hx
    have hx' := hdead x hx
    simp only [decide_eq_true_eq]
    omega
  rcases Nat.lt_or_ge log.length limit with hlt | hge
  · have hdead : recent window now rest = 0 := by
      rcases hrest with hfull | hdead
      · omega
      · exact hzero fun x hx => (hdead x hx).trans hnow
    constructor
    · intro _
      exact .inl hlt
    · intro _
      omega
  · have hne : log ≠ [] := by
      rintro rfl
      rw [length_nil] at hge
      omega
    have hlast : log.getLast? = some (log.getLast hne) := getLast?_eq_some_getLast hne
    have holdest : ∀ x ∈ log, log.getLast hne ≤ x := by
      intro x hx
      rw [← dropLast_concat_getLast hne] at hsorted hx
      rcases mem_append.mp hx with hx | hx
      · exact (pairwise_append.mp hsorted).2.2 x hx _ mem_cons_self
      · rw [mem_singleton.mp hx]
    constructor
    · intro hfew
      refine .inr ⟨_, hlast, ?_⟩
      by_contra hrecent
      have hall : recent window now log = log.length := by
        rw [recent, countP_eq_length]
        intro x hx
        have hx' := holdest x hx
        simp only [decide_eq_true_eq]
        omega
      omega
    · rintro (hlt | ⟨oldest, hget, hold⟩)
      · omega
      rw [hlast] at hget
      cases hget
      have hdead : recent window now rest = 0 := by
        refine hzero fun x hx => ?_
        have hx' := hacross _ (getLast_mem hne) x hx
        omega
      have hless : recent window now log < log.length := by
        refine lt_of_le_of_ne hlog ?_
        intro hall
        have hlast' := countP_eq_length.mp hall _ (getLast_mem hne)
        simp only [decide_eq_true_eq] at hlast'
        omega
      omega

end NewApi.Window
