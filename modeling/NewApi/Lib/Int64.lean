import Mathlib

/-!
# Signed 64-bit numbers

Arithmetic on them is arithmetic on integers whose results are brought back into the range.
-/

namespace NewApi

/-- The number of 64 bits that stands for an integer, with a sign. -/
def int64 (n : Int) : Int := n.bmod (2 ^ 64)

theorem int64_eq {n : Int} (hlow : -2 ^ 63 ≤ n) (hhigh : n < 2 ^ 63) : int64 n = n :=
  Int.bmod_eq_of_le (by norm_num at hlow ⊢; omega) (by norm_num at hhigh ⊢; omega)

theorem int64_natCast {n : Nat} (h : n < 2 ^ 63) : int64 n = n :=
  int64_eq (by omega) (by exact_mod_cast h)

end NewApi
