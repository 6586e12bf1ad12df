import Mathlib

/-!
# A shared row and its working copies

Parties share one row. Some change it in place; others take a copy, work on the copy and later write
it back over whatever the row has become.

* `read`, `hold`, `forget`, `modify`, `writeBack` — the operations; a write back says which columns
  it takes from the copy.
-/

namespace NewApi

/-- A row that the parties `π` share, with the copies they hold. -/
structure Cell (π ρ : Type) where
  row : ρ
  copy : π → Option ρ

namespace Cell

variable {π ρ : Type}

/-- Nobody holds a copy. -/
def start (row : ρ) : Cell π ρ := ⟨row, fun _ => none⟩

/-- Change the row in place. -/
def modify (c : Cell π ρ) (f : ρ → ρ) : Cell π ρ := { c with row := f c.row }

variable [DecidableEq π]

def hold (c : Cell π ρ) (p : π) (copy : ρ) : Cell π ρ :=
  { c with copy := Function.update c.copy p (some copy) }

def read (c : Cell π ρ) (p : π) : Cell π ρ := c.hold p c.row

def forget (c : Cell π ρ) (p : π) : Cell π ρ := { c with copy := Function.update c.copy p none }

/-- The row becomes what `put` makes of the copy and the present row; nothing without a copy. -/
def writeBack (c : Cell π ρ) (p : π) (put : ρ → ρ → ρ) : Cell π ρ :=
  match c.copy p with
  | none => c
  | some copy => (c.modify (put copy)).forget p

/-! ## What a write back loses -/

section Measure

variable {M : Type} [AddCommGroup M] (μ : ρ → M)

omit [DecidableEq π] in
/-- The change of the row since the copy of `p`, as `μ` sees it. -/
def lost (c : Cell π ρ) (p : π) : M :=
  match c.copy p with
  | none => 0
  | some copy => μ c.row - μ copy

variable {μ} {c : Cell π ρ} {p : π} {copy : ρ}

omit [DecidableEq π] in
theorem lost_of_copy (hp : c.copy p = some copy) : c.lost μ p = μ c.row - μ copy := by
  unfold lost
  rw [hp]

theorem measure_writeBack {put : ρ → ρ → ρ} {d : M} (hput : ∀ copy row, μ (put copy row) = μ copy + d)
    (hp : c.copy p = some copy) : μ (c.writeBack p put).row = μ c.row + d - c.lost μ p := by
  have hrow : (c.writeBack p put).row = put copy c.row := by
    unfold writeBack
    rw [hp]
    rfl
  rw [hrow, hput, lost_of_copy hp]
  abel

end Measure

end Cell

end NewApi
