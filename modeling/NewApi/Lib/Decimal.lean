import Mathlib

/-!
# Decimal rounding

What `IntPart`, `Round(0)` and `Div` of `shopspring/decimal` give, on exact rationals: `intPart`
truncates towards zero, `round` takes halves away from zero, `div` keeps sixteen places.

`round_le_round`, `round_pos_iff`, `div_nonneg` and `div_le_self` are what the bounds on rounded
amounts use; `round_eq_zero_iff` and `abs_round_sub_le_one_iff` say when a rounded amount is 0, or
close to a whole number. `foldl_truncated` and `foldl_recovered` are about amounts multiplied and
divided by one factor after another with truncation at each step: they say when that is the product
taken at once.
-/

namespace NewApi.Decimal

open List

/-- Truncation towards zero. -/
def intPart (q : ℚ) : Int := q.num.tdiv q.den

/-- Halves go away from zero. -/
def round (q : ℚ) : Int := if 0 ≤ q then ⌊q + 1 / 2⌋ else -⌊-q + 1 / 2⌋

/-- Division to sixteen places. -/
def div (a b : ℚ) : ℚ := round (a / b * 10 ^ 16) / 10 ^ 16

variable {q a b : ℚ}

theorem intPart_eq_floor (h : 0 ≤ q) : intPart q = ⌊q⌋ := by
  rw [intPart, Int.tdiv_eq_ediv_of_nonneg (Rat.num_nonneg.mpr h), ← Rat.floor_intCast_div_natCast,
    Rat.num_div_den]

@[simp] theorem intPart_intCast (n : Int) : intPart n = n := by simp [intPart]

theorem intPart_nonpos (h : q ≤ 0) : intPart q ≤ 0 := by
  have hn : q.num ≤ 0 := Rat.num_nonpos.mpr h
  unfold intPart
  have hneg : (-q.num).tdiv q.den = -(q.num.tdiv q.den) := Int.neg_tdiv _ _
  have hpos : 0 ≤ (-q.num).tdiv (q.den : Int) := Int.tdiv_nonneg (by omega) (by omega)
  omega

theorem intPart_pos_iff : 0 < intPart q ↔ 1 ≤ q := by
  constructor
  · intro h
    by_contra hlt
    by_cases h0 : 0 ≤ q
    · rw [intPart_eq_floor h0] at h
      have : ⌊q⌋ < 1 := Int.floor_lt.mpr (by simpa using hlt)
      omega
    · have := intPart_nonpos (le_of_lt (not_le.mp h0))
      omega
  · intro h
    rw [intPart_eq_floor (by linarith)]
    exact Int.floor_pos.mpr h

theorem round_of_nonneg (h : 0 ≤ q) : round q = ⌊q + 1 / 2⌋ := if_pos h

@[simp] theorem round_natCast (n : ℕ) : round n = n := by
  rw [round_of_nonneg (Nat.cast_nonneg n), Int.floor_eq_iff]
  constructor
  · push_cast
    linarith
  · push_cast
    linarith

theorem round_nonneg (h : 0 ≤ q) : 0 ≤ round q := by
  rw [round_of_nonneg h]
  exact Int.floor_nonneg.mpr (by linarith)

theorem round_le_round (ha : 0 ≤ a) (h : a ≤ b) : round a ≤ round b := by
  rw [round_of_nonneg ha, round_of_nonneg (ha.trans h)]
  exact Int.floor_le_floor (by linarith)

theorem round_pos_iff : 0 < round q ↔ 1 / 2 ≤ q := by
  by_cases h : 0 ≤ q
  · rw [round_of_nonneg h, Int.floor_pos]
    constructor
    · intro h'
      linarith
    · intro h'
      linarith
  · have hneg : 0 ≤ ⌊-q + 1 / 2⌋ := Int.floor_nonneg.mpr (by linarith)
    rw [round, if_neg h]
    constructor
    · intro h'
      omega
    · intro h'
      linarith

theorem round_neg (q : ℚ) : round (-q) = -round q := by
  rcases lt_trichotomy q 0 with h | h | h
  · rw [round, round, if_pos (by linarith), if_neg (by linarith), neg_neg]
  · subst h
    norm_num [round]
  · rw [round, round, if_neg (by linarith), if_pos h.le, neg_neg]

theorem round_eq_zero_iff : round q = 0 ↔ |q| < 1 / 2 := by
  have hpos : 0 < round q ↔ 1 / 2 ≤ q := round_pos_iff
  have hneg : 0 < round (-q) ↔ 1 / 2 ≤ -q := round_pos_iff
  rw [round_neg] at hneg
  rw [abs_lt]
  constructor
  · intro h
    have hle : ¬ 1 / 2 ≤ q := fun hq => by have := hpos.mpr hq; omega
    have hge : ¬ 1 / 2 ≤ -q := fun hq => by have := hneg.mpr hq; omega
    constructor
    · linarith [not_le.mp hge]
    · exact not_le.mp hle
  · rintro ⟨hlo, hhi⟩
    have hle : ¬ 0 < round q := fun hq => absurd (hpos.mp hq) (not_le.mpr hhi)
    have hge : ¬ 0 < -round q := fun hq => by linarith [hneg.mp hq]
    omega

theorem abs_round_sub_le_one_of_nonneg (h : 0 ≤ q) {m : Int} :
    |round q - m| ≤ 1 ↔ (m : ℚ) - 3 / 2 ≤ q ∧ q < m + 3 / 2 := by
  have hlower : -1 ≤ round q - m ↔ (m : ℚ) - 3 / 2 ≤ q := by
    rw [round_of_nonneg h, show -1 ≤ ⌊q + 1 / 2⌋ - m ↔ m - 1 ≤ ⌊q + 1 / 2⌋ by omega, Int.le_floor]
    push_cast
    constructor
    · intro h'
      linarith
    · intro h'
      linarith
  have hupper : round q - m ≤ 1 ↔ q < m + 3 / 2 := by
    rw [round_of_nonneg h, show ⌊q + 1 / 2⌋ - m ≤ 1 ↔ ⌊q + 1 / 2⌋ < m + 2 by omega, Int.floor_lt]
    push_cast
    constructor
    · intro h'
      linarith
    · intro h'
      linarith
  rw [abs_le, hlower, hupper]

/-- A rounded amount is within one of a whole number if the amount is within one and a half and
rounds the right way.
-/
theorem abs_round_sub_le_one_iff {m : Int} :
    |round q - m| ≤ 1 ↔ |q - m| < 3 / 2 ∨ q = m - 3 / 2 ∧ 0 ≤ q ∨ q = m + 3 / 2 ∧ q < 0 := by
  rw [abs_lt]
  by_cases h : 0 ≤ q
  · rw [abs_round_sub_le_one_of_nonneg h]
    constructor
    · rintro ⟨hlo, hhi⟩
      rcases lt_or_eq_of_le hlo with hlt | heq
      · exact .inl ⟨by linarith, by linarith⟩
      · exact .inr (.inl ⟨heq.symm, h⟩)
    rintro (⟨hlo, hhi⟩ | ⟨heq, -⟩ | ⟨-, hneg⟩)
    · exact ⟨by linarith, by linarith⟩
    · exact ⟨heq.ge, by linarith⟩
    · exact absurd h (not_le.mpr hneg)
  · -- the mirror image: halves go away from zero on both sides
    have hmirror : |round q - m| = |round (-q) - (-m : Int)| := by
      rw [round_neg, ← abs_neg]
      congr 1
      ring
    rw [hmirror, abs_round_sub_le_one_of_nonneg (by linarith)]
    push_cast
    constructor
    · rintro ⟨hlo, hhi⟩
      rcases lt_or_eq_of_le hlo with hlt | heq
      · exact .inl ⟨by linarith, by linarith⟩
      · exact .inr (.inr ⟨by linarith, not_le.mp h⟩)
    rintro (⟨hlo, hhi⟩ | ⟨-, hpos⟩ | ⟨heq, -⟩)
    · exact ⟨by linarith, by linarith⟩
    · exact absurd hpos h
    · exact ⟨by linarith, by linarith⟩

theorem div_nonneg (ha : 0 ≤ a) (hb : 0 < b) : 0 ≤ div a b := by
  have hq : 0 ≤ a / b * 10 ^ 16 := by positivity
  have hround : (0 : ℚ) ≤ round (a / b * 10 ^ 16) := by exact_mod_cast round_nonneg hq
  unfold div
  positivity

/-- Sixteen places hold every whole number, so rounding does not lift a quotient above it. -/
theorem div_le_self {n : ℕ} (hb : 1 ≤ b) : div n b ≤ n := by
  have hb0 : 0 < b := by linarith
  have hquot : (n : ℚ) / b * 10 ^ 16 ≤ ((n * 10 ^ 16 : ℕ) : ℚ) := by
    push_cast
    exact mul_le_mul_of_nonneg_right (div_le_of_le_mul₀ hb0.le (Nat.cast_nonneg n) (le_mul_of_one_le_right (Nat.cast_nonneg n) hb)) (by positivity)
  have hround := round_le_round (by positivity) hquot
  rw [round_natCast] at hround
  have hcast : (round ((n : ℚ) / b * 10 ^ 16) : ℚ) ≤ n * 10 ^ 16 := by exact_mod_cast hround
  unfold div
  rw [div_le_iff₀ (by positivity)]
  exact hcast

/-! ## Truncated products -/

def Whole (q : ℚ) : Prop := ∃ n : Int, q = n

/-- No product with some, but not all, of the factors is cut off. -/
def WholeBelow (base : Int) (factors : List ℚ) : Prop :=
  ∀ part : List ℚ, part.Subperm factors → part.length < factors.length → Whole (base * part.prod)

theorem WholeBelow.perm {base : Int} {factors factors' : List ℚ} (h : WholeBelow base factors)
    (hp : factors'.Perm factors) : WholeBelow base factors' := by
  intro part hsub hlen
  refine h part (hsub.trans hp.subperm) ?_
  rw [← hp.length_eq]
  exact hlen

theorem foldl_truncated (factors : List ℚ) (base : Int) (h : WholeBelow base factors) :
    factors.foldl (fun quota ratio => intPart (quota * ratio)) base = intPart (base * factors.prod) := by
  induction factors generalizing base with
  | nil => simp
  | cons ratio rest ih =>
    rw [foldl_cons]
    rcases rest with _ | ⟨ratio', rest⟩
    · simp
    -- the first product is a proper part of them all
    obtain ⟨n, hn⟩ := h [ratio] (singleton_sublist.mpr mem_cons_self).subperm (by simp)
    rw [prod_singleton] at hn
    have hcut : intPart ((base : ℚ) * ratio) = n := by rw [hn, intPart_intCast]
    have hrest : WholeBelow n (ratio' :: rest) := by
      intro part hsub hlen
      have hpart := h (ratio :: part) (subperm_cons ratio |>.mpr hsub) (by simpa using hlen)
      rw [prod_cons, ← mul_assoc, hn] at hpart
      exact hpart
    have hprod : (ratio :: ratio' :: rest).prod = ratio * (ratio' :: rest).prod := prod_cons
    rw [hcut, ih n hrest, ← hn, hprod, mul_assoc]

theorem foldl_recovered (factors : List ℚ) (base n : Int) (hpos : ∀ ratio ∈ factors, 0 < ratio)
    (h : WholeBelow base factors) (hn : (base : ℚ) * factors.prod = n) :
    factors.foldl (fun quota ratio => intPart (quota / ratio)) n = base := by
  induction factors generalizing n with
  | nil =>
    rw [prod_nil, mul_one] at hn
    exact_mod_cast hn.symm
  | cons ratio rest ih =>
    have hratio : ratio ≠ 0 := (hpos ratio mem_cons_self).ne'
    obtain ⟨m, hm⟩ := h rest (sublist_cons_self ratio rest).subperm (by simp)
    have hcut : intPart ((n : ℚ) / ratio) = m := by
      have hquot : (n : ℚ) / ratio = m := by
        rw [← hn, ← hm, prod_cons]
        field_simp
      rw [hquot, intPart_intCast]
    rw [foldl_cons, hcut]
    refine ih m (fun r hr => hpos r (mem_cons_of_mem _ hr)) ?_ hm
    intro part hsub hlen
    exact h part (hsub.trans (sublist_cons_self ratio rest).subperm) (by simp; omega)

end NewApi.Decimal
