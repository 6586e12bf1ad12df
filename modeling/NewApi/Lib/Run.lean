import Mathlib

/-!
# Transactions and guarded runs

* `bind_eq_ok` — the steps of a computation that succeeds.
* `Guarded.invariant` — what one guarded step preserves, a whole guarded run preserves.
* `foldl_invariant` — the same without a guard.
-/

namespace NewApi

open List

theorem bind_eq_ok {ε α β : Type} {x : Except ε α}
    {f : α → Except ε β} {b : β} (h : x >>= f = .ok b) : ∃ a, x = .ok a ∧ f a = .ok b := by
  cases x with
  | error e => cases h
  | ok a => exact ⟨a, rfl, h⟩

section Transaction

variable {σ ε α : Type}

/-- One atomic commit. `commit` is the error the commit itself returns, if any. -/
def transaction (commit : Option ε) (s : σ) (body : σ → Except ε (σ × α)) : σ × Except ε α :=
  match body s with
  | .error e => (s, .error e)
  | .ok (s', a) =>
    match commit with
    | some e => (s, .error e)
    | none => (s', .ok a)

variable {commit : Option ε} {body : σ → Except ε (σ × α)}

theorem transaction_error {s s' : σ} {e : ε} (h : transaction commit s body = (s', .error e)) :
    s' = s := by
  unfold transaction at h
  split at h
  · cases h; rfl
  split at h
  · cases h; rfl
  · cases h

theorem transaction_ok {s s' : σ} {a : α}
    (h : transaction commit s body = (s', .ok a)) : body s = .ok (s', a) ∧ commit = none := by
  unfold transaction at h
  split at h
  · cases h
  rename_i hb
  split at h
  · cases h
  · cases h; exact ⟨hb, rfl⟩

/-- A call that failed and changed nothing. -/
abbrev Failed (s s' : σ) (r : Except ε α) : Prop := s' = s ∧ ∃ e, r = .error e

theorem transaction_cases {s s' : σ} {r : Except ε α} (h : transaction commit s body = (s', r)) :
    Failed s s' r ∨ ∃ a, r = .ok a ∧ body s = .ok (s', a) := by
  cases r with
  | error e => exact .inl ⟨transaction_error h, e, rfl⟩
  | ok a => exact .inr ⟨a, rfl, (transaction_ok h).1⟩

theorem transaction_preserves {P : σ → Prop} {s : σ} (hs : P s) (hb : ∀ s' a, body s = .ok (s', a) → P s') :
    P (transaction commit s body).1 := by
  unfold transaction
  split
  · exact hs
  rename_i s' a hs'
  split
  · exact hs
  · exact hb s' a hs'

end Transaction

section Runs

variable {σ α : Type} {step : σ → α → σ} {ok : σ → α → Prop} {P : σ → Prop}

theorem foldl_invariant (hstep : ∀ s a, P s → P (step s a)) : ∀ (as : List α) {s : σ}, P s →
      P (as.foldl step s)
  | [], _, h => h
  | a :: as, _, h => foldl_invariant hstep as (hstep _ a h)

/-- Every step of the run from `s` meets `ok` in the state it is taken from. -/
def Guarded (step : σ → α → σ) (ok : σ → α → Prop) : σ → List α → Prop
  | _, [] => True
  | s, a :: as => ok s a ∧ Guarded step ok (step s a) as

instance Guarded.decidable [∀ s a, Decidable (ok s a)] :
    ∀ (s : σ) (as : List α), Decidable (Guarded step ok s as)
  | _, [] => .isTrue trivial
  | s, a :: as =>
    have := Guarded.decidable (step s a) as
    inferInstanceAs (Decidable (ok s a ∧ Guarded step ok (step s a) as))

theorem Guarded.invariant (hstep : ∀ s a, ok s a → P s → P (step s a)) {as : List α} :
    ∀ {s : σ}, Guarded step ok s as → P s → P (as.foldl step s) := by
  induction as with
  | nil => intro s _ h; exact h
  | cons a as ih => intro s hg h; exact ih hg.2 (hstep s a hg.1 h)

/-- A property kept by exactly the guarded steps holds all along exactly the guarded runs. -/
theorem guarded_iff_prefixes (hstep : ∀ s a, P s → (P (step s a) ↔ ok s a)) (as : List α) :
    ∀ {s : σ}, P s → (Guarded step ok s as ↔ ∀ n, P ((as.take n).foldl step s)) := by
  induction as with
  | nil => intro s h; simpa [Guarded] using h
  | cons a as ih =>
    intro s h
    constructor
    · rintro ⟨hok, hrest⟩ n
      cases n with
      | zero => exact h
      | succ n => exact (ih ((hstep s a h).mpr hok)).mp hrest n
    · intro hall
      have hone : P (step s a) := hall 1
      exact ⟨(hstep s a h).mp hone, (ih hone).mpr fun n => hall (n + 1)⟩

theorem of_foldl (as : List α) (hback : ∀ s, ∀ a ∈ as, P (step s a) → P s) :
    ∀ {s : σ}, P (as.foldl step s) → P s := by
  induction as with
  | nil => intro s h; exact h
  | cons a as ih =>
    intro s h
    have hrest : ∀ s, ∀ b ∈ as, P (step s b) → P s := fun s b hb => hback s b (mem_cons_of_mem a hb)
    exact hback s a mem_cons_self (ih hrest h)

/-- A property that exactly the guarded steps keep, under an invariant, and that no step restores,
holds at the end of exactly the guarded runs. -/
theorem guarded_iff_end {I : σ → Prop} (as : List α) (hinv : ∀ s, ∀ a ∈ as, I s → I (step s a))
    (hstep : ∀ s, ∀ a ∈ as, I s → P s → (P (step s a) ↔ ok s a)) (hback : ∀ s, ∀ a ∈ as, P (step s a) → P s) :
    ∀ {s : σ}, I s → P s → (Guarded step ok s as ↔ P (as.foldl step s)) := by
  induction as with
  | nil => intro s _ h; simpa [Guarded] using h
  | cons a as ih =>
    intro s hs h
    have hrest := @ih (fun s b hb => hinv s b (mem_cons_of_mem a hb))
      (fun s b hb => hstep s b (mem_cons_of_mem a hb)) (fun s b hb => hback s b (mem_cons_of_mem a hb))
      (step s a)
    have hone := hstep s a mem_cons_self hs h
    have hs' := hinv s a mem_cons_self hs
    constructor
    · rintro ⟨hok, hg⟩
      exact (hrest hs' (hone.mpr hok)).mp hg
    intro hend
    have hnext : P (step s a) := of_foldl as (fun s b hb => hback s b (mem_cons_of_mem a hb)) hend
    exact ⟨hone.mp hnext, (hrest hs' hnext).mpr hend⟩

end Runs

end NewApi
