import NewApi.Service.Midjourney

/-!
# Refunds of Midjourney tasks

A task that fails gets its quota back. A report that fails asks for the refund and pays it if its
conditional write affects the row; the two bulk updates write `FAILURE` and pay nothing.
-/

namespace NewApi.Midjourneys

open List

namespace MjRun

/-! ## Refunds of one task -/

/-- The refunds of task `t` that are done or under way. -/
def dues (s : MjRun) (t : Int) : Nat :=
  s.refunds.countP (fun r => decide (r.2.taskId = t)) + s.credited.countP fun r => decide (r.taskId = t)

/-- A task with this quota needs no further refund; one that had failed before the run is not looked
at. -/
def paid (failedBefore : Bool) (s : MjRun) (t quota : Int) : Bool :=
  decide (quota = 0) || failedBefore || decide (s.dues t = 1)

/-- At most one refund, and one for a task that has been moved to `FAILURE`. -/
def Settled (failedBefore : Bool) (t : Int) (s : MjRun) : Prop :=
  s.dues t ≤ 1 ∧ ∀ row, s.tasks.get t = some row → row.status = "FAILURE" → s.paid failedBefore t row.quota = true

/-- The conditional write of a copy affects the row of task `t`. -/
def wins (s : MjRun) (t : Int) (task : Midjourney) : Bool := decide (task.id = t) && s.current task

/-- What a step must find: a winning report that asks for the refund comes first; one that reports
`FAILURE` without asking, and a bulk update, come to a task that needs none; and a refund of a
failed task does not fail. -/
def careful (failedBefore : Bool) (t : Int) (s : MjRun) : MjAct → Bool
  | .item p now false =>
    match s.report? p now with
    | some (task, item) =>
      !s.wins t task || (if item.failed && decide (task.quota ≠ 0) then decide (s.dues t = 0)
        else decide (item.status ≠ "FAILURE") || s.paid failedBefore t task.quota)
    | none => true
  | .refund p fault =>
    match s.refunds.find? fun r => decide (r.1 = p), s.tasks.get t with
    | some (_, r), some row =>
      decide (r.taskId ≠ t) || !(fault || decide (r.quota < 0)) || decide (row.status ≠ "FAILURE") ||
        decide (row.quota = 0) || failedBefore
    | _, _ => true
  | a =>
    match s.statement a, s.tasks.get t with
    | some (_, u), some row => !u.hits row || s.paid failedBefore t row.quota
    | _, _ => true

/-! ## Steps -/

end MjRun

def MjAct.isRefund : MjAct → Bool
  | .refund _ _ => true
  | _ => false

namespace MjRun

variable {failedBefore : Bool} {t : Int} {s s' : MjRun}

theorem settled_congr (htasks : s'.tasks.get t = s.tasks.get t) (hdues : s'.dues t = s.dues t) :
    Settled failedBefore t s' ↔ Settled failedBefore t s := by
  simp only [Settled, paid, htasks, hdues]

theorem settled_of_get {row : Midjourney} (hget : s'.tasks.get t = some row) :
    Settled failedBefore t s' ↔
      s'.dues t ≤ 1 ∧ (row.status = "FAILURE" → s'.paid failedBefore t row.quota = true) := by
  simp [Settled, hget]

variable {a : MjAct}

theorem dues_advance (h : a.isRefund = false) (t : Int) : (s.advance a).dues t = s.dues t := by
  cases a with
  | refund p fault => cases h
  | read p fault | fixNull p fault | visit p channelId lookup | item p now fault => simp only [advance]; split <;> rfl

theorem get_step_of_none (h : s.statement a = none) : (s.step a).tasks.get t = s.tasks.get t := by
  rw [step_tasks, h]
  rfl

theorem get_step_of_some {cause : Cause} {u : MjUpdate} (h : s.statement a = some (cause, u)) :
    (s.step a).tasks.get t = (s.tasks.get t).map u.apply := by
  rw [step_tasks, h]
  exact Table.get_exec s.tasks u t

theorem dues_step (h : a.isRefund = false) (t : Int) :
    (s.step a).dues t = s.dues t + ((s.statement a).bind fun _ => s.due? a).toList.countP fun r => decide (r.2.taskId = t) := by
  rcases hst : s.statement a with _ | x
  · rw [step_of_none hst, dues_advance h]; rfl
  have hadvance : (s.advance a).dues t = s.dues t := dues_advance h t
  rw [step_of_some hst]
  simp only [dues, exec, countP_append, Option.bind_some] at hadvance ⊢
  omega

theorem settled_step_of_none (h : a.isRefund = false) (hst : s.statement a = none) :
    Settled failedBefore t (s.step a) ↔ Settled failedBefore t s := by
  refine settled_congr (get_step_of_none hst) ?_
  rw [dues_step h, hst]
  rfl

attribute [local simp] Table.Update.apply careful statement

variable {task : Midjourney} {item : MidjourneyDto} {p : Nat} {now : Int}

theorem statement_item (hreport : s.report? p now = some (task, item)) :
    s.statement (.item p now false) =
      some (.answered (s.poller p).answer.1 item.mjId, updateWithStatus (task.report item) task.status) := by
  simp [hreport]

theorem settled_item_of_not_wins (hreport : s.report? p now = some (task, item))
    (hwins : s.wins t task = false) :
    Settled failedBefore t (s.step (.item p now false)) ↔ Settled failedBefore t s := by
  have hst := statement_item hreport
  refine settled_congr ?_ ?_
  · rw [get_step_of_some hst]
    rcases hget : s.tasks.get t with _ | row
    · rfl
    have hmiss : (updateWithStatus (task.report item) task.status).hits row = false := by
      refine decide_eq_false ?_
      rintro ⟨hid, hstatus⟩
      have htask : task.id = t := hid.symm.trans (Table.key_of_get hget)
      simp [wins, current, hget, htask, hstatus] at hwins
    simp [hmiss]
  · rw [dues_step rfl, hst]
    simp only [Option.bind_some, due?, hreport]
    split
    · rename_i hpays
      have hother : task.id ≠ t := by
        intro htask
        simp [affected_eq_current, wins, htask] at hpays hwins
        exact absurd hpays.2 (by simp [hwins])
      simp [hother]
    · rfl

theorem countP_eraseP {α : Type} (p q : α → Bool) {l : List α} {x : α} (h : l.find? p = some x) :
    l.countP q = (l.eraseP p).countP q + if q x then 1 else 0 := by
  obtain ⟨hpx, as, bs, rfl, has⟩ := find?_eq_some_iff_append.mp h
  rw [eraseP_append_right _ (by simpa using has), eraseP_cons_of_pos hpx]
  simp only [countP_append, countP_cons]
  omega

theorem dues_refund {q : Nat} {r : Refund} (fault : Bool)
    (hfind : s.refunds.find? (fun r => decide (r.1 = p)) = some (q, r)) :
    (s.step (.refund p fault)).dues t + (if decide (r.taskId = t) && (fault || decide (r.quota < 0)) then 1 else 0) =
      s.dues t := by
  have hcount : s.refunds.countP (fun r => decide (r.2.taskId = t)) =
      (s.refunds.eraseP fun r => decide (r.1 = p)).countP (fun r => decide (r.2.taskId = t)) +
        if decide (r.taskId = t) then 1 else 0 := countP_eraseP _ _ hfind
  rw [step_of_none rfl]
  simp only [advance, hfind, dues]
  cases hfails : fault || decide (r.quota < 0) with
  | true =>
    simp only [Bool.and_true, if_true]
    omega
  | false =>
    simp only [Bool.and_false, Bool.false_eq_true, if_false, countP_append, countP_singleton]
    omega

section

variable (h : Settled failedBefore t s)

include h

theorem Settled.bulk_iff (ha : a.isRefund = false)
    (hdue : s.due? a = none) (hfails : ∀ cause u row, s.statement a = some (cause, u) →
      (u.set row).status = "FAILURE" ∧ (u.set row).quota = row.quota) :
    Settled failedBefore t (s.step a) ↔
      (match s.statement a, s.tasks.get t with
        | some (_, u), some row => !u.hits row || s.paid failedBefore t row.quota
        | _, _ => true) = true := by
  rcases hst : s.statement a with _ | x
  · simp [settled_step_of_none ha hst, h]
  obtain ⟨cause, u⟩ := x
  have hdues : (s.step a).dues t = s.dues t := by
    rw [dues_step ha, hst, hdue]
    rfl
  rcases hget : s.tasks.get t with _ | row
  · have hget' : (s.step a).tasks.get t = none := by rw [get_step_of_some hst, hget]; rfl
    simp [Settled, hget', hdues, h.1]
  have hget' : (s.step a).tasks.get t = some (u.apply row) := by rw [get_step_of_some hst, hget]; rfl
  cases hhit : u.hits row with
  | false =>
    have hrow : u.apply row = row := by simp [hhit]
    rw [settled_congr (by rw [hget', hrow, hget]) hdues]
    simp [h, hhit]
  | true =>
    have hrow : u.apply row = u.set row := by simp [hhit]
    obtain ⟨hstatus, hquota⟩ := hfails cause u row hst
    rw [settled_of_get hget', hrow, hstatus, hquota]
    simp [paid, hdues, h.1, hhit]

theorem Settled.fixNull_iff (p : Nat) (fault : Bool) :
    Settled failedBefore t (s.step (.fixNull p fault)) ↔
      s.careful failedBefore t (.fixNull p fault) = true := by
  refine h.bulk_iff rfl rfl fun cause u row hst => ?_
  cases fault with
  | true => cases hst
  | false =>
    simp only [statement] at hst
    split at hst
    · cases hst
      exact ⟨rfl, rfl⟩
    · cases hst

theorem Settled.visit_iff (p : Nat) (channelId : Int) (lookup : Lookup) :
    Settled failedBefore t (s.step (.visit p channelId lookup)) ↔
      s.careful failedBefore t (.visit p channelId lookup) = true := by
  refine h.bulk_iff rfl rfl fun cause u row hst => ?_
  rcases lookup with ⟨_ | _⟩ | _
  · simp only [statement] at hst
    split at hst
    · cases hst
      exact ⟨rfl, rfl⟩
    · cases hst
  · cases hst
  · cases hst

theorem Settled.winning_iff
    (hreport : s.report? p now = some (task, item)) (hwins : s.wins t task = true) :
    Settled failedBefore t (s.step (.item p now false)) ↔
      (if item.failed && decide (task.quota ≠ 0) then decide (s.dues t = 0)
        else decide (item.status ≠ "FAILURE") || s.paid failedBefore t task.quota) = true := by
  obtain ⟨htask, hcurrent⟩ : task.id = t ∧ s.current task = true := by
    simpa only [wins, Bool.and_eq_true, decide_eq_true_eq] using hwins
  have hst := statement_item hreport
  have hget : (s.step (.item p now false)).tasks.get t = some (task.report item) := by
    rw [get_step_of_some hst]
    have haffected := (affected_eq_current s task item).trans hcurrent
    obtain ⟨row, hrow, hhit⟩ :=
      (Table.affected_iff (k := t) fun r hr => (of_decide_eq_true hr).1.trans htask).mp haffected
    simp only [hrow, Option.map_some, Table.Update.apply, hhit, if_true]
    rfl
  have hdues : (s.step (.item p now false)).dues t =
      s.dues t + if item.failed && decide (task.quota ≠ 0) then 1 else 0 := by
    rw [dues_step rfl, hst]
    simp only [Option.bind_some, due?, hreport, affected_eq_current, hcurrent, Bool.and_true]
    split
    · simp [htask]
    · rfl
  rw [settled_of_get hget]
  simp only [paid, hdues]
  have hle := h.1
  split
  · simp only [Bool.or_eq_true, decide_eq_true_eq]
    constructor
    · intro hnew
      omega
    · intro hnone
      exact ⟨by omega, fun _ => .inr (by omega)⟩
  · simp only [Nat.add_zero, hle, true_and, Bool.or_eq_true, decide_eq_true_eq]
    exact imp_iff_not_or

theorem Settled.item_iff (p : Nat) (now : Int) (fault : Bool) :
    Settled failedBefore t (s.step (.item p now fault)) ↔
      s.careful failedBefore t (.item p now fault) = true := by
  cases fault with
  | true => simp [settled_step_of_none (a := .item p now true) rfl rfl, h]
  | false =>
    rcases hreport : s.report? p now with _ | x
    · have hst : s.statement (.item p now false) = none := by simp only [statement, hreport, Option.map_none]
      simp [settled_step_of_none rfl hst, h, hreport]
    obtain ⟨task, item⟩ := x
    simp only [careful, hreport]
    cases hwins : s.wins t task with
    | false => simp [settled_item_of_not_wins hreport hwins, h]
    | true =>
      rw [h.winning_iff hreport hwins]
      simp

theorem Settled.refund_iff (p : Nat) (fault : Bool) :
    Settled failedBefore t (s.step (.refund p fault)) ↔
      s.careful failedBefore t (.refund p fault) = true := by
  have hget : (s.step (.refund p fault)).tasks.get t = s.tasks.get t := get_step_of_none rfl
  cases hfind : s.refunds.find? (fun r => decide (r.1 = p)) with
  | none =>
    have hsame : s.step (.refund p fault) = s := by
      rw [step_of_none rfl]
      simp only [advance, hfind]
    rw [hsame]
    simp [hfind, h]
  | some x =>
    obtain ⟨q, r⟩ := x
    have hdues := dues_refund (t := t) fault hfind
    have hle := h.1
    rcases hrow : s.tasks.get t with _ | row
    · simp only [careful, hfind, hrow, iff_true, Settled, hget, reduceCtorEq, false_implies,
        implies_true, and_true]
      omega
    rw [settled_of_get (hget.trans hrow)]
    have hbefore := (settled_of_get hrow).mp h
    simp only [careful, hfind, hrow]
    by_cases hlost : (decide (r.taskId = t) && (fault || decide (r.quota < 0))) = true
    · -- the one refund of the task is gone
      rw [if_pos hlost] at hdues
      have hzero : (s.step (.refund p fault)).dues t = 0 := by omega
      simp only [Bool.and_eq_true, decide_eq_true_eq] at hlost
      simp only [hzero, Nat.zero_le, true_and, paid, hlost.1, hlost.2, ne_eq, not_true_eq_false,
        decide_false,
        Bool.not_true, Bool.or_false, Bool.false_or, zero_ne_one, Bool.or_eq_true, decide_eq_true_eq]
      rw [imp_iff_not_or, or_assoc]
    · rw [if_neg hlost, Nat.add_zero] at hdues
      have hrest : (decide (r.taskId ≠ t) || !(fault || decide (r.quota < 0))) = true := by
        simpa [imp_iff_not_or] using hlost
      simp only [paid, hdues] at hbefore ⊢
      simp only [hrest, Bool.true_or, iff_true]
      exact hbefore

/-- **One step** keeps a task settled exactly when it is careful. -/
theorem Settled.step_iff (a : MjAct) :
    Settled failedBefore t (s.step a) ↔ s.careful failedBefore t a = true := by
  cases a with
  | read p fault => simp [settled_step_of_none (a := .read p fault) rfl rfl, h]
  | fixNull p fault => exact h.fixNull_iff p fault
  | visit p channelId lookup => exact h.visit_iff p channelId lookup
  | item p now fault => exact h.item_iff p now fault
  | refund p fault => exact h.refund_iff p fault

end

end MjRun

def hasFailed (tasks : MjTable) (t : Int) : Bool :=
  match tasks.get t with
  | some row => decide (row.status = "FAILURE")
  | none => false

/-- **A failed task gets its quota back once, exactly when every step is careful**: at every moment
there is at most one refund of the task, and one if it has been moved to `FAILURE` with a quota, if
and only if every step is careful.
-/
theorem refunded_once_iff (tasks : MjTable) (t : Int) (acts : List MjAct) :
    (∀ n, MjRun.Settled (hasFailed tasks t) t ((MjRun.start tasks).run (acts.take n))) ↔
      Guarded MjRun.step (fun s a => s.careful (hasFailed tasks t) t a = true) (.start tasks) acts := by
  have hstart : MjRun.Settled (hasFailed tasks t) t (.start tasks) := by
    refine ⟨Nat.zero_le 1, fun row hrow hfailed => ?_⟩
    have hbefore : hasFailed tasks t = true := by simp [hasFailed, show tasks.get t = some row from hrow, hfailed]
    simp [MjRun.paid, hbefore]
  exact (guarded_iff_prefixes (fun _ a h => h.step_iff a) acts hstart).symm

/-! ## Wrong numbers of refunds -/

/-- Task 1 of channel 3, half done, with a quota of 100. -/
def halfDone (mjId : String) : Midjourney :=
  ⟨1, 1, 7, mjId, "", "", 0, 0, 0, "", "", "", "IN_PROGRESS", "50%", "", 3, 100, "", ""⟩

def oneTask (task : Midjourney) : MjTable := ⟨[task], List.nodup_singleton _⟩

/-- A task without an upstream id, and one whose channel is gone, fail without a refund, and no
later round reads them. -/
theorem failures_without_refund :
    let noId := (MjRun.start (oneTask (halfDone ""))).run [.read 0 false, .fixNull 0 false, .read 0 false]
    let noChannel := (MjRun.start (oneTask (halfDone "m"))).run
      [.read 0 false, .fixNull 0 false, .visit 0 3 (.missing false), .read 0 false]
    (∀ s ∈ [noId, noChannel], s.tasks.rows.map Midjourney.status = ["FAILURE"] ∧ s.credited = [] ∧ s.refunds = [] ∧
      (s.poller 0).nullTaskIds = [] ∧ (s.poller 0).channels = []) := by
  decide +kernel

end NewApi.Midjourneys
