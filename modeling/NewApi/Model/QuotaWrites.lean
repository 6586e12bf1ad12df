import NewApi.Lib.Cell

/-!
# Quota columns written in place (`model/utils.go` and the quota writers of `model/`)

Users and tokens have a quota column that is changed in place, at once or through the batch store.

* `Batch`, `addNewRecord`, `collect`, `written` — the deferred amounts of one row.
* `increase`, `decrease`, `write` — the two writers and the batch writer, for any column.
-/

namespace NewApi.Quota

/-! ## Deferred updates -/

/-- The entry of one row in `batchUpdateStores`, and the amount `batchUpdate` has taken from it and
not written yet. -/
structure Batch where
  store : Int
  taken : Option Int
  deriving DecidableEq, Repr

namespace Batch

def empty : Batch := ⟨0, none⟩

/-- What the row does not have yet. -/
def waiting (b : Batch) : Int := b.store + b.taken.getD 0

def addNewRecord (b : Batch) (value : Int) : Batch := { b with store := b.store + value }

/-- `batchUpdate` swaps the store for an empty one; there is one updater, so not while it writes. -/
def collect (b : Batch) : Batch :=
  match b.taken with
  | none => ⟨0, some b.store⟩
  | some _ => b

/-- The amount is written, or its write has failed: it is not kept either way. -/
def written (b : Batch) : Batch := { b with taken := none }

@[simp] theorem waiting_addNewRecord (b : Batch) (value : Int) :
    (b.addNewRecord value).waiting = b.waiting + value := by
  simp only [waiting, addNewRecord]
  omega

@[simp] theorem waiting_collect (b : Batch) : b.collect.waiting = b.waiting := by
  unfold collect
  split
  · rename_i h
    simp [waiting, h]
  · rfl

@[simp] theorem waiting_written (b : Batch) : b.written.waiting = b.waiting - b.taken.getD 0 := by
  simp only [waiting, written, Option.getD_none]
  omega

end Batch

/-! ## Writers -/

/-- A row with copies and a batch, and the amounts of the increases and decreases that have returned
without error. -/
structure Counted (π ρ : Type) where
  cell : Cell π ρ
  batch : Batch
  increased : Int
  decreased : Int

namespace Counted

variable {π ρ : Type}

def start (row : ρ) : Counted π ρ := ⟨Cell.start row, Batch.empty, 0, 0⟩

/-- Apply `amount` through the batch store or at once; `addTo` is the `UPDATE` of the column. -/
def add (batched : Bool)
    (addTo : Int → ρ → ρ) (s : Counted π ρ) (amount : Int) (fault : Option String) :
    Counted π ρ × Except String Unit :=
  if batched then ({ s with batch := s.batch.addNewRecord amount }, .ok ())
  else
    match fault with
    | some e => (s, .error e)
    | none => ({ s with cell := s.cell.modify (addTo amount) }, .ok ())

def increase (batched : Bool)
    (addTo : Int → ρ → ρ) (s : Counted π ρ) (quota : Int) (fault : Option String) :
    Counted π ρ × Except String Unit :=
  if quota < 0 then (s, .error "quota 不能为负数！")
  else
    match s.add batched addTo quota fault with
    | (s, .ok ()) => ({ s with increased := s.increased + quota }, .ok ())
    | (s, .error e) => (s, .error e)

def decrease (batched : Bool)
    (addTo : Int → ρ → ρ) (s : Counted π ρ) (quota : Int) (fault : Option String) :
    Counted π ρ × Except String Unit :=
  if quota < 0 then (s, .error "quota 不能为负数！")
  else
    match s.add batched addTo (-quota) fault with
    | (s, .ok ()) => ({ s with decreased := s.decreased + quota }, .ok ())
    | (s, .error e) => (s, .error e)

/-- `batchUpdate` takes the stores. -/
def collect (s : Counted π ρ) : Counted π ρ := { s with batch := s.batch.collect }

/-- `batchUpdate` writes what it has taken for this row; an error is only logged. -/
def write (addTo : Int → ρ → ρ) (s : Counted π ρ) (fault : Option String) : Counted π ρ :=
  let cell := match fault with
    | some _ => s.cell
    | none => s.cell.modify (addTo (s.batch.taken.getD 0))
  { s with cell := cell, batch := s.batch.written }

/-- What the increases and decreases leave unexplained of the column `μ`. -/
def net (μ : ρ → Int) (s : Counted π ρ) : Int :=
  μ s.cell.row + s.batch.waiting - s.increased + s.decreased

/-! ## What the writers leave as it is -/

section Net

variable {γ : Type*} {μ : ρ → Int} {addTo : Int → ρ → ρ} {batched : Bool} {s s' : Counted π ρ} {amount : Int}
  {fault : Option String}

theorem net_collect : s.collect.net μ = s.net μ := by
  simp only [net, collect, Batch.waiting_collect]

section

variable (hadd : ∀ a row, μ (addTo a row) = μ row + a)

include hadd

theorem add_cases {r : Except String Unit} (h : s.add batched addTo amount fault = (s', r)) :
    (∃ e, r = .error e ∧ s' = s) ∨ (r = .ok () ∧ s'.net μ = s.net μ + amount) := by
  unfold add at h
  split at h
  · cases h
    refine .inr ⟨rfl, ?_⟩
    simp only [net, Batch.waiting_addNewRecord]
    omega
  split at h
  · cases h
    exact .inl ⟨_, rfl, rfl⟩
  cases h
  refine .inr ⟨rfl, ?_⟩
  simp only [net, Cell.modify, hadd]
  omega

theorem net_increase (quota : Int) : (s.increase batched addTo quota fault).1.net μ = s.net μ := by
  unfold increase
  split
  · rfl
  split
  all_goals
    rename_i s' h
    rcases add_cases hadd h with ⟨_, herr, rfl⟩ | ⟨hok, hnet⟩
  · cases herr
  · simp only [net] at hnet ⊢
    omega
  · rfl
  · cases hok

theorem net_decrease (quota : Int) : (s.decrease batched addTo quota fault).1.net μ = s.net μ := by
  unfold decrease
  split
  · rfl
  split
  all_goals
    rename_i s' h
    rcases add_cases hadd h with ⟨_, herr, rfl⟩ | ⟨hok, hnet⟩
  · cases herr
  · simp only [net] at hnet ⊢
    omega
  · rfl
  · cases hok

theorem net_write :
    (s.write addTo fault).net μ = s.net μ - if fault.isSome then s.batch.taken.getD 0 else 0 := by
  cases fault with
  | none =>
    simp only [net, write, Cell.modify, hadd, Batch.waiting_written, Option.isSome_none,
      Bool.false_eq_true, if_false]
    omega
  | some e =>
    simp only [net, write, Batch.waiting_written, Option.isSome_some, if_true]
    omega

theorem net_write_iff {b : Int} (h : s.net μ = b) :
    (s.write addTo fault).net μ = b ↔ (fault.isSome = true → s.batch.taken.getD 0 = 0) := by
  rw [net_write hadd, h]
  split <;> simp_all

end

variable {ν : ρ → γ} (hν : ∀ a row, ν (addTo a row) = ν row)

include hν

theorem row_increase (quota : Int) :
    ν (s.increase batched addTo quota fault).1.cell.row = ν s.cell.row := by
  unfold increase add
  split
  · rfl
  · cases batched <;> cases fault <;> simp [Cell.modify, hν]

theorem row_decrease (quota : Int) :
    ν (s.decrease batched addTo quota fault).1.cell.row = ν s.cell.row := by
  unfold decrease add
  split
  · rfl
  · cases batched <;> cases fault <;> simp [Cell.modify, hν]

theorem row_write : ν (s.write addTo fault).cell.row = ν s.cell.row := by
  cases fault <;> simp [write, Cell.modify, hν]

end Net

end Counted

end NewApi.Quota
