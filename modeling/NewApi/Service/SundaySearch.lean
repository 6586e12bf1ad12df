import Mathlib

/-!
# Sunday's substring search (`service/str.go`)

In an ASCII pattern a rune is a byte, and `range` meets it at its own index. Texts and patterns are
compared by their codes; the loops are read on what is left of the text from `i` on. A skip is the
distance from the end of the pattern to the last place of the byte in it.
-/

namespace NewApi.Sunday

open List Function

/-- `for i, c := range pattern { offset[c] = len(pattern) - i }` on what is left of the pattern. -/
def offsets : List Nat → (Nat → Option Nat) → Nat → Option Nat
  | [], offset => offset
  | c :: pattern, offset => offsets pattern (update offset c (some (pattern.length + 1)))

/-- How far `j` goes in the inner loop. -/
def agree : List Nat → List Nat → Nat
  | p :: pattern, t :: text => if t = p then agree pattern text + 1 else 0
  | _, _ => 0

/-- The main loop; `none` if it has not ended after `fuel` rounds. -/
def search (offset : Nat → Option Nat) (pattern : List Nat) : Nat → List Nat → Option Bool
  | 0, _ => none
  | fuel + 1, text =>
    if pattern.length ≤ text.length then
      if agree pattern text = pattern.length then some true
      else
        match text[pattern.length]? with
        | some next => search offset pattern fuel (text.drop ((offset next).getD (pattern.length + 1)))
        | none => some false
    else some false

def sundaySearch (fuel : Nat) (text : List UInt8) (pattern : List (Fin 128)) : Option Bool :=
  let pattern := pattern.map Fin.val
  search (offsets pattern fun _ => none) pattern fuel (text.map UInt8.toNat)

variable {offset : Nat → Option Nat} {pattern : List Nat}

theorem agree_eq_length_iff (text : List Nat) :
    agree pattern text = pattern.length ↔ pattern <+: text := by
  induction pattern generalizing text with
  | nil => simp [agree]
  | cons p pattern ih =>
    cases text with
    | nil => simp [agree]
    | cons t text =>
      rw [agree, cons_prefix_cons, ← ih, length_cons]
      split
      · rename_i heq
        simp [heq]
      · rename_i hne
        simp [Ne.symm hne]

/-- What a table must be for no occurrence to be skipped. -/
structure Sound (offset : Nat → Option Nat) (pattern : List Nat) : Prop where
  bounds : ∀ b v, offset b = some v → 0 < v ∧ v ≤ pattern.length
  reach : ∀ j b : Nat, pattern[j]? = some b → ∃ v, offset b = some v ∧ v + j ≤ pattern.length

theorem offsets_spec (pattern : List Nat) (offset : Nat → Option Nat) (b : Nat) :
    (offsets pattern offset b = offset b ∨ ∃ v, offsets pattern offset b = some v ∧ 0 < v ∧ v ≤ pattern.length) ∧
      ∀ j : Nat, pattern[j]? = some b → ∃ v, offsets pattern offset b = some v ∧ 0 < v ∧
      v + j ≤ pattern.length := by
  induction pattern generalizing offset with
  | nil => simp [offsets]
  | cons c pattern ih =>
    obtain ⟨hlast, hlater⟩ := ih (update offset c (some (pattern.length + 1)))
    rw [offsets, length_cons]
    -- the write for `c` stands, unless the rest of the pattern has it again
    have hwritten : c = b → ∃ v, offsets pattern (update offset c (some (pattern.length + 1))) b = some v ∧
        0 < v ∧ v ≤ pattern.length + 1 := by
      rintro rfl
      rcases hlast with heq | ⟨v, hv, hpos, hle⟩
      · exact ⟨pattern.length + 1, by rw [heq, update_self], by omega, le_rfl⟩
      · exact ⟨v, hv, hpos, by omega⟩
    refine ⟨?_, ?_⟩
    · by_cases hb : c = b
      · exact .inr (hwritten hb)
      rcases hlast with heq | ⟨v, hv, hpos, hle⟩
      · exact .inl (by rw [heq, update_of_ne (Ne.symm hb)])
      · exact .inr ⟨v, hv, hpos, by omega⟩
    · rintro (_ | j) hj
      · exact hwritten (Option.some.inj hj)
      · obtain ⟨v, hv, hpos, hle⟩ := hlater j hj
        exact ⟨v, hv, hpos, by omega⟩

theorem offsets_sound (pattern : List Nat) : Sound (offsets pattern fun _ => none) pattern := by
  refine ⟨fun b v hv => ?_, fun j b hj => ?_⟩
  · rcases (offsets_spec pattern _ b).1 with hnone | ⟨w, hw, hbounds⟩
    · rw [hnone] at hv
      cases hv
    · rw [hv] at hw
      cases hw
      exact hbounds
  · obtain ⟨v, hv, -, hle⟩ := (offsets_spec pattern _ b).2 j hj
    exact ⟨v, hv, hle⟩

/-- An occurrence behind the present window is not before its skip. -/
theorem Sound.skip_le {before after : List Nat} {next : Nat} (h : Sound offset pattern)
    (hne : before ≠ []) (hnext : (before ++ pattern ++ after)[pattern.length]? = some next) :
    (offset next).getD (pattern.length + 1) ≤ before.length := by
  have hpos := length_pos_of_ne_nil hne
  by_cases hfar : pattern.length < before.length
  · cases hv : offset next with
    | none => exact hfar
    | some v =>
      have hle := (h.bounds _ v hv).2
      rw [Option.getD_some]
      omega
  · -- `next` is a byte of the occurrence
    rw [append_assoc, List.getElem?_append_right (by omega), List.getElem?_append_left (by omega)] at hnext
    obtain ⟨v, hv, hle⟩ := h.reach _ _ hnext
    rw [hv, Option.getD_some]
    omega

theorem Sound.search_eq (h : Sound offset pattern) (fuel : Nat) (text : List Nat)
    (hfuel : text.length < fuel) :
    search offset pattern fuel text = some (decide (pattern <:+: text)) := by
  induction fuel generalizing text with
  | zero => omega
  | succ fuel ih =>
    rw [search]
    split
    · split
      · rename_i hall
        rw [agree_eq_length_iff] at hall
        simp [hall.isInfix]
      rename_i hlen hnot
      rw [agree_eq_length_iff] at hnot
      split
      · rename_i next hnext
        have hpos : 0 < (offset next).getD (pattern.length + 1) := by
          cases hv : offset next with
          | none => simp
          | some v => exact (h.bounds _ v hv).1
        have hlt := (List.getElem?_eq_some_iff.mp hnext).1
        rw [ih _ (by rw [length_drop]; omega), Option.some.injEq, decide_eq_decide]
        refine ⟨fun hin => hin.trans (drop_suffix _ text).isInfix, ?_⟩
        rintro ⟨before, after, rfl⟩
        have hne : before ≠ [] := by
          rintro rfl
          exact hnot (prefix_append pattern after)
        rw [append_assoc, drop_append_of_le_length (h.skip_le hne hnext)]
        exact infix_append' _ pattern after
      · rename_i hnone
        rw [List.getElem?_eq_none_iff] at hnone
        rw [Option.some.injEq, eq_comm, decide_eq_false_iff_not]
        intro hin
        rw [hin.eq_of_length (by omega)] at hnot
        exact hnot prefix_rfl
    · rename_i hlen
      rw [Option.some.injEq, eq_comm, decide_eq_false_iff_not]
      exact fun hin => hlen hin.length_le

/-- **The search ends and says whether the pattern occurs**, for every text and every ASCII
pattern. -/
theorem sundaySearch_finds (text : List UInt8) (pattern : List (Fin 128)) (extra : Nat) :
    sundaySearch (text.length + 1 + extra) text pattern =
      some (decide (pattern.map Fin.val <:+: text.map UInt8.toNat)) := by
  refine (offsets_sound _).search_eq _ _ ?_
  rw [length_map]
  omega

end NewApi.Sunday
