import NewApi.Lib.Run
import Mathlib.Logic.Function.Basic

/-!
# Two-factor login (`model/twofa.go`, `Verify2FALogin` in `controller/twofa.go`)

An attempt checks and counts on the copy of the record that it has read, and saves that copy whole;
a backup code is marked as used without a second look at it.
-/

namespace NewApi.TwoFactor

open List Function

/-- The failures that lock an account. -/
def maxFailAttempts : Nat := 5

def lockoutDuration : Int := 300

structure TwoFA where
  failedAttempts : Nat
  lockedUntil : Option Int
  deriving DecidableEq

def TwoFA.isLocked (t : TwoFA) (now : Int) : Bool :=
  t.lockedUntil.any fun until_ => decide (now < until_)

/-- The record of a success. -/
def TwoFA.reset : TwoFA := ⟨0, none⟩

def TwoFA.incrementFailedAttempts (t : TwoFA) (now : Int) : TwoFA :=
  ⟨t.failedAttempts + 1,
    if maxFailAttempts ≤ t.failedAttempts + 1 then some (now + lockoutDuration) else t.lockedUntil⟩

/-- What an attempt sends: whether it is a number of six digits, the times it is right at, whether
it has the form of a backup code, and which of them it is. -/
structure Code where
  numeric : Bool
  validTOTP : Int → Bool
  backupForm : Bool
  is : Nat → Bool

/-- What an attempt does next, with its copy of the record. -/
inductive Stage where
  /-- Read the record, and check the code against the secret. -/
  | start
  /-- Save the record after a wrong code. -/
  | failedTOTP (t : TwoFA)
  /-- Read the unused backup codes, and check the code against them. -/
  | backup (t : TwoFA)
  /-- Mark a backup code as used. -/
  | mark (t : TwoFA) (id : Nat)
  /-- Save the record at the end. -/
  | save (t : TwoFA)
  | finished
  deriving DecidableEq

/-- The record of a user, its used backup codes and the attempts, with the codes accepted so far and
whether the account was locked, at each check and at all. -/
structure World where
  row : TwoFA
  used : Nat → Bool
  stage : Nat → Stage
  accepted : List Nat
  checked : List Bool
  wasLocked : Bool

def World.check (w : World) (now : Int) : World :=
  { w with checked := w.row.isLocked now :: w.checked }

def World.write (w : World) (t : TwoFA) : World :=
  { w with row := t, wasLocked := w.wasLocked || t.lockedUntil.isSome }

variable (codes : List Nat) (input : Nat → Code)

/-- The next statement of attempt `i`, with the computation around it, and the stage it leads to. -/
def act (w : World) (i : Nat) (now : Int) : World × Stage :=
  match w.stage i with
  | .start =>
    if (input i).numeric && !w.row.isLocked now then
      (w.check now, if (input i).validTOTP now then .save .reset else .failedTOTP (w.row.incrementFailedAttempts now))
    else (w, .backup w.row)
  | .failedTOTP t => (w.write t, .backup t)
  | .backup t =>
    if t.isLocked now || !(input i).backupForm then (w, .finished)
    else (w.check now, match codes.find? fun id => !w.used id && (input i).is id with
      | some id => .mark t id
      | none => .save (t.incrementFailedAttempts now))
  | .mark _ id => ({ w with used := Function.update w.used id true, accepted := id :: w.accepted }, .save .reset)
  | .save t => (w.write t, .finished)
  | .finished => (w, .finished)

def step (w : World) (a : Nat × Int) : World :=
  { (act codes input w a.1 a.2).1 with stage := Function.update w.stage a.1 (act codes input w a.1 a.2).2 }

def initial (row : TwoFA) (used : Nat → Bool) : World := ⟨row, used, fun _ => .start, [], [], false⟩

/-- Every other attempt has not begun or has ended. -/
def Alone (w : World) (a : Nat × Int) : Prop :=
  ∀ j, j ≠ a.1 → w.stage j = .start ∨ w.stage j = .finished

variable {w : World}

theorem Alone.update {a : Nat × Int} (h : Alone w a) {P : Stage → Prop} (hstart : P .start)
    (hfinished : P .finished) {stage : Stage} (hstage : P stage) :
    ∀ j, P (Function.update w.stage a.1 stage j) := by
  intro j
  by_cases hj : j = a.1
  · rwa [hj, update_self]
  · rw [update_of_ne hj]
    rcases h j hj with hidle | hidle <;> rwa [hidle]

/-- Only the attempts that occur have to be looked at. -/
theorem guarded_of_lt (n : Nat) (schedule : List (Nat × Int)) :
    ∀ {w : World}, (∀ a ∈ schedule, a.1 < n) → (∀ j, n ≤ j → w.stage j = .start) →
    Guarded (step codes input)
      (fun w a => ∀ j < n, j ≠ a.1 → w.stage j = .start ∨ w.stage j = .finished) w schedule →
    Guarded (step codes input) Alone w schedule := by
  induction schedule with
  | nil => intro w _ _ _; trivial
  | cons a schedule ih =>
    intro w hlt hstart h
    have ha : a.1 < n := hlt a mem_cons_self
    constructor
    · intro j hj
      rcases Nat.lt_or_ge j n with hjn | hjn
      · exact h.1 j hjn hj
      · exact .inl (hstart j hjn)
    · refine ih (fun b hb => hlt b (mem_cons_of_mem a hb)) (fun j hj => ?_) h.2
      exact (update_of_ne (by omega) ..).trans (hstart j hj)

/-! ## Backup codes -/

/-- The stage marks only a code that is not used. -/
def Stage.marksFree (used : Nat → Bool) : Stage → Prop
  | .mark _ id => used id = false
  | _ => True

/-- No code was accepted twice, and accepted codes are used. -/
structure Fresh (w : World) : Prop where
  nodup : w.accepted.Nodup
  used : ∀ id ∈ w.accepted, w.used id = true

theorem Fresh.act (h : Fresh w) {i : Nat} (hmarks : (w.stage i).marksFree w.used) (now : Int) :
    Fresh (act codes input w i now).1 := by
  unfold TwoFactor.act
  cases hstage : w.stage i with
  | start | backup t =>
    dsimp only
    split <;> exact ⟨h.nodup, h.used⟩
  | mark t id =>
    have hfree : w.used id = false := by rwa [hstage] at hmarks
    have hnew : id ∉ w.accepted := fun hmem => by simp [h.used id hmem] at hfree
    refine ⟨nodup_cons.mpr ⟨hnew, h.nodup⟩, forall_mem_cons.mpr ⟨update_self .., ?_⟩⟩
    intro id' hmem
    have hne : id' ≠ id := fun heq => hnew (heq ▸ hmem)
    exact (update_of_ne hne ..).trans (h.used id' hmem)
  | failedTOTP t | save t | finished => exact ⟨h.nodup, h.used⟩

def Code.Wrong (code : Code) : Prop :=
  (∀ now, code.validTOTP now = false) ∧ ∀ id, code.is id = false

/-- The attempt has a failure to save. -/
def Stage.pending : Stage → Bool
  | .failedTOTP _ | .save _ => true
  | _ => false

/-- The copy of an attempt is the record, with one more failure if that is to be saved. -/
def Stage.Copies (row : TwoFA) : Stage → Prop
  | .failedTOTP t | .save t => ∃ now, t = row.incrementFailedAttempts now
  | .backup t => t = row
  | .mark _ _ => False
  | _ => True

/-- As long as the account has not been locked, the failures count the checks. -/
structure Counted (w : World) : Prop where
  copies : ∀ i, (w.stage i).Copies w.row
  open_ : ∀ locked ∈ w.checked, locked = false
  few : w.wasLocked = false → w.row.failedAttempts < maxFailAttempts ∧ w.checked.length ≤ w.row.failedAttempts + 1
  counts : w.wasLocked = false → (∀ i, (w.stage i).pending = false) → w.checked.length ≤ w.row.failedAttempts

theorem counted_write (h : Counted w) {t : TwoFA} {now : Int}
    (ht : t = w.row.incrementFailedAttempts now) (hlocked : (w.write t).wasLocked = false) :
    t.failedAttempts < maxFailAttempts ∧ w.checked.length ≤ t.failedAttempts := by
  obtain ⟨hwas, hnone⟩ := Bool.or_eq_false_iff.mp hlocked
  rw [Option.isSome_eq_false_iff, Option.isNone_iff_eq_none] at hnone
  constructor
  · rw [ht, TwoFA.incrementFailedAttempts] at hnone ⊢
    dsimp only at hnone ⊢
    split at hnone
    · cases hnone
    · omega
  · rw [ht]
    exact (h.few hwas).2

theorem Counted.act (h : Counted w) (hwrong : ∀ i, (input i).Wrong) {i : Nat} (now : Int)
    (hcount : w.wasLocked = false → (w.stage i).pending = false → w.checked.length ≤ w.row.failedAttempts) :
    let r := act codes input w i now
    r.2.Copies r.1.row ∧ (∀ locked ∈ r.1.checked, locked = false) ∧
      (r.1.wasLocked = false →
        r.1.row.failedAttempts < maxFailAttempts ∧ r.1.checked.length ≤ r.1.row.failedAttempts + 1) ∧
      (r.1.wasLocked = false → r.2.pending = false → r.1.checked.length ≤ r.1.row.failedAttempts) := by
  have hcopies := h.copies i
  have hcheck : (w.stage i).pending = false → w.row.isLocked now = false →
      (∀ locked ∈ (w.check now).checked, locked = false) ∧
      (w.wasLocked = false →
        w.row.failedAttempts < maxFailAttempts ∧ (w.check now).checked.length ≤ w.row.failedAttempts + 1) := by
    intro hpending hopen
    refine ⟨forall_mem_cons.mpr ⟨hopen, h.open_⟩, fun hwas => ?_⟩
    exact ⟨(h.few hwas).1, Nat.succ_le_succ (hcount hwas hpending)⟩
  unfold TwoFactor.act
  cases hstage : w.stage i with
  | start =>
    rw [hstage] at hcheck hcount
    dsimp only
    split
    · next hnumeric =>
      rw [Bool.and_eq_true, Bool.not_eq_true'] at hnumeric
      obtain ⟨hopen, hfew⟩ := hcheck rfl hnumeric.2
      simp only [(hwrong i).1 now, Bool.false_eq_true, if_false]
      exact ⟨⟨now, rfl⟩, hopen, hfew, fun _ hpending => by cases hpending⟩
    · exact ⟨rfl, h.open_, h.few, fun hwas _ => hcount hwas rfl⟩
  | backup t =>
    rw [hstage] at hcheck hcount hcopies
    have ht : t = w.row := hcopies
    dsimp only
    split
    · exact ⟨trivial, h.open_, h.few, fun hwas _ => hcount hwas rfl⟩
    next hform =>
    rw [Bool.or_eq_true, not_or, ht, Bool.not_eq_true] at hform
    obtain ⟨hopen, hfew⟩ := hcheck rfl hform.1
    have hnone : (codes.find? fun id => !w.used id && (input i).is id) = none :=
      find?_eq_none.mpr fun id _ => by simp [(hwrong i).2 id]
    simp only [hnone]
    exact ⟨⟨now, ht ▸ rfl⟩, hopen, hfew, fun _ hpending => by cases hpending⟩
  | failedTOTP t | save t =>
    rw [hstage] at hcopies
    obtain ⟨time, ht⟩ := hcopies
    refine ⟨by first | rfl | trivial, h.open_, fun hlocked => ?_,
      fun hlocked _ => (counted_write h ht hlocked).2⟩
    exact (counted_write h ht hlocked).imp_right Nat.le_succ_of_le
  | mark t id =>
    rw [hstage] at hcopies
    exact hcopies.elim
  | finished =>
    rw [hstage] at hcount
    exact ⟨trivial, h.open_, h.few, fun hwas _ => hcount hwas rfl⟩

/-- **At most five wrong codes are checked before the account is locked, and none while it is**, in
every run of wrong attempts that do not overlap. -/
theorem wrong_codes_bounded (used : Nat → Bool) (schedule : List (Nat × Int)) (hwrong : ∀ i, (input i).Wrong)
    (h : Guarded (step codes input) Alone (initial .reset used) schedule) :
    let w := schedule.foldl (step codes input) (initial .reset used)
    (w.wasLocked = false → w.checked.length ≤ maxFailAttempts) ∧ ∀ locked ∈ w.checked, locked = false := by
  have hcounted : Counted (schedule.foldl (step codes input) (initial .reset used)) := by
    refine h.invariant (fun w a halone hw => ?_) ⟨fun _ => trivial, by simp [initial],
      fun _ => ⟨Nat.zero_lt_succ _, ?_⟩, ?_⟩
    · have hquiet : (w.stage a.1).pending = false → ∀ j, (w.stage j).pending = false := by
        intro hi j
        by_cases hj : j = a.1
        · rw [hj, hi]
        · rcases halone j hj with hidle | hidle <;> rw [hidle] <;> rfl
      obtain ⟨hcopies, hopen, hfew, hcounts⟩ := hw.act codes input hwrong a.2
        fun hwas hpending => hw.counts hwas (hquiet hpending)
      refine ⟨halone.update (P := Stage.Copies _) trivial trivial hcopies, hopen, hfew,
        fun hwas hpending => ?_⟩
      exact hcounts hwas (by simpa [step] using hpending a.1)
    · simp [initial]
    · simp [initial]
  refine ⟨fun hwas => ?_, hcounted.open_⟩
  obtain ⟨hlt, hle⟩ := hcounted.few hwas
  omega

def wrongNumber : Code := ⟨true, fun _ => false, false, fun _ => false⟩

/-- Attempts one after another, of three statements each. -/
def inTurn (n : Nat) : List (Nat × Int) := (range n).flatMap fun i => replicate 3 (i, 0)

/-- Four wrong numbers do not lock the account, the fifth one does, and the sixth is not checked. -/
theorem fifth_number_locks :
    let run n := (inTurn n).foldl (step [] fun _ => wrongNumber) (initial .reset fun _ => false)
    (run 4).checked.length ≤ maxFailAttempts ∧ (run 5).wasLocked = true ∧
      (run 6).checked.length = maxFailAttempts ∧ ∀ locked ∈ (run 6).checked, locked = false := by
  have hwrong : ∀ _ : Nat, wrongNumber.Wrong := fun _ => ⟨fun _ => rfl, fun _ => rfl⟩
  have h4 := guarded_of_lt [] (fun _ => wrongNumber) 4 (inTurn 4)
    (w := initial .reset fun _ => false) (by decide) (fun _ _ => rfl) (by decide +kernel)
  have h6 := guarded_of_lt [] (fun _ => wrongNumber) 6 (inTurn 6)
    (w := initial .reset fun _ => false) (by decide) (fun _ _ => rfl) (by decide +kernel)
  refine ⟨(wrong_codes_bounded _ _ _ _ hwrong h4).1 (by decide +kernel), by decide +kernel,
    by decide +kernel, (wrong_codes_bounded _ _ _ _ hwrong h6).2⟩

/-- Six attempts read the record before one of them saves it. -/
theorem sixth_code_checked :
    let w := ([(0, 0), (1, 0), (2, 0), (3, 0), (4, 0), (5, 0)] : List (Nat × Int)).foldl (step [] fun _ => wrongNumber)
      (initial .reset fun _ => false)
    w.wasLocked = false ∧ w.checked.length = 6 := by
  decide +kernel

end NewApi.TwoFactor
