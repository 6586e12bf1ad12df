import NewApi.Model.Task
import NewApi.Service.BillingRuns

/-!
# Terminal billing of tasks

The helpers of `service/task_billing.go` that move quota once a task is finished. They know the
task by its stored row only: the funding source and the token are derived from `BillingSource`,
`SubscriptionId` and `TokenId`.

* `refundTaskQuota`, `recalculateTaskQuota`, `settleTaskBillingOnComplete` — what callers run.
* `Terminal`, `Terminal.bill` — how a task ends, and the billing each ending runs.
* `Adjusted` — the funding source has paid an amount and the token has followed;
  `Terminal.bill_adjusted` says every ending does just that, with `Terminal.delta` as the amount.
-/

namespace NewApi.Billing

open NewApi.Subscription

/-- The outside of a terminal billing call. -/
structure TaskEnv where
  env : Env
  /-- `shouldKeepChargeForWhitelistUpstreamReview`, by user, action, reason and response body. -/
  keepsCharge : Int → String → String → String → Bool
  /-- `resolveTokenKey`: empty when the token is gone. -/
  tokenKey : Int → String

/-- `ShouldRefundTaskOnFailure`: every branch after the first one answers yes. -/
def shouldRefundTaskOnFailure (te : TaskEnv) (userId : Int) (action reason responseBody : String) :
    Bool :=
  !te.keepsCharge userId action reason responseBody

def taskIsSubscription (task : Task) : Bool :=
  decide (task.billingSource = .subscription ∧ 0 < task.subscriptionId)

/-- A positive delta is charged, a negative one given back. -/
def taskAdjustFunding (e : Env) (l : Ledger) (task : Task) (delta : Int) :
    Ledger × Except String Unit :=
  if taskIsSubscription task then subscriptionDelta e.deltaFault l task.subscriptionId delta
  else if 0 < delta then decreaseUserQuota (e.fault .userWrite) l task.userId delta
  else increaseUserQuota (e.fault .userWrite) l task.userId (-delta)

/-- Errors are only logged. Whether the token is unlimited is not asked. -/
def taskAdjustTokenQuota (te : TaskEnv) (l : Ledger) (task : Task) (delta : Int) : Ledger :=
  if task.tokenId ≤ 0 ∨ delta = 0 then l
  else if te.tokenKey task.tokenId = "" then l
  else if 0 < delta then (decreaseTokenQuota (te.env.fault .tokenWrite) l task.tokenId delta).1
  else (increaseTokenQuota (te.env.fault .tokenWrite) l task.tokenId (-delta)).1

/-- What a call of `RefundTaskQuota` did. -/
inductive RefundOutcome where
  | nothingDue
  | kept
  | failed (err : String)
  | returned
  deriving DecidableEq, Repr

def refundTaskQuota (te : TaskEnv) (l : Ledger) (task : Task) (reason : String) :
    Ledger × RefundOutcome :=
  if task.quota = 0 then (l, .nothingDue)
  else if !shouldRefundTaskOnFailure te task.userId task.action reason "" then (l, .kept)
  else
    match taskAdjustFunding te.env l task (-task.quota) with
    | (l, .error err) => (l, .failed err)
    | (l, .ok ()) => (taskAdjustTokenQuota te l task (-task.quota), .returned)

/-- The task in memory and the statements for the `tasks` table are returned with the ledger. -/
def recalculateTaskQuota (te : TaskEnv) (l : Ledger) (task : Task) (actualQuota : Int) :
    Ledger × Task × List TaskUpdate × Except String Unit :=
  let stored := if 0 < task.id then [task.updateQuota actualQuota te.env.now] else []
  if actualQuota ≤ 0 then (l, task, [], .ok ())
  else
    let quotaDelta := actualQuota - task.quota
    if quotaDelta = 0 then (l, task, stored, .ok ())
    else
      match taskAdjustFunding te.env l task quotaDelta with
      | (l, .error err) => (l, task, [], .error err)
      | (l, .ok ()) =>
        (taskAdjustTokenQuota te l task quotaDelta, { task with quota := actualQuota }, stored, .ok ())

/-- `settleTaskBillingOnComplete`. `adaptorQuota` is `AdjustBillingOnComplete`, `byTokens` the
quota `RecalculateTaskQuotaByTokens` arrives at, if it gets that far. -/
def settleTaskBillingOnComplete (te : TaskEnv) (l : Ledger) (task : Task) (adaptorQuota : Int)
    (byTokens : Option Int) : Ledger × Task × List TaskUpdate × Except String Unit :=
  if task.perCallBilling then (l, task, [], .ok ())
  else if 0 < adaptorQuota then
    if adaptorQuota ≠ task.quota then recalculateTaskQuota te l task adaptorQuota
    else (l, task, [], .ok ())
  else
    match byTokens with
    | some actualQuota => recalculateTaskQuota te l task actualQuota
    | none => (l, task, [], .ok ())

/-! ## Endings -/

/-- How a task ends, as far as its charge is concerned. -/
inductive Terminal where
  /-- A video task succeeds. -/
  | complete (adaptorQuota : Int) (byTokens : Option Int)
  /-- An image task succeeds. -/
  | imageComplete
  /-- A Suno task succeeds, or a task fails without a call of `RefundTaskQuota`. -/
  | unbilled
  /-- A task fails and `RefundTaskQuota` is called. -/
  | refund (reason : String)
  deriving DecidableEq, Repr

def Terminal.bill (te : TaskEnv) (l : Ledger) (task : Task) : Terminal →
      Ledger × List TaskUpdate × Except String Unit
  | .complete adaptorQuota byTokens =>
    let (l, _, updates, r) := settleTaskBillingOnComplete te l task adaptorQuota byTokens
    (l, updates, r)
  | .imageComplete =>
    let (l, _, updates, r) := recalculateTaskQuota te l task task.quota
    (l, updates, r)
  | .unbilled => (l, [], .ok ())
  | .refund reason =>
    match refundTaskQuota te l task reason with
    | (l, .failed err) => (l, [], .error err)
    | (l, _) => (l, [], .ok ())

/-- The quota is given back rather than kept. -/
def Terminal.refunds (te : TaskEnv) (task : Task) : Terminal → Bool
  | .refund reason => shouldRefundTaskOnFailure te task.userId task.action reason ""
  | _ => false

/-- By how much a recalculation raises the charge. -/
def raiseTo (task : Task) (actualQuota : Int) : Int :=
  if actualQuota ≤ 0 then 0 else actualQuota - task.quota

/-- By how much the ending raises the charge of the task. -/
def Terminal.delta (te : TaskEnv) (task : Task) : Terminal → Int
  | .complete adaptorQuota byTokens =>
    if task.perCallBilling then 0
    else if 0 < adaptorQuota then adaptorQuota - task.quota
    else (byTokens.map (raiseTo task)).getD 0
  | .imageComplete => 0
  | .unbilled => 0
  | .refund reason =>
    if shouldRefundTaskOnFailure te task.userId task.action reason "" then -task.quota else 0

/-- The quota of the row after the statements of the ending. -/
def storedQuota (task : Task) (updates : List TaskUpdate) : Int :=
  (updates.foldl (fun row u => u.apply row) task).quota

/-! ## What an adjustment does -/

/-- The funding source the stored row points at. -/
def taskFunding (task : Task) : FundingSource :=
  if taskIsSubscription task then
    .subscription ⟨"", task.userId, "", 0, task.subscriptionId, 0, 0, 0, 0, ""⟩
  else .wallet ⟨task.userId, 0⟩

/-- The funding source has paid `delta` and the token has followed. -/
def Adjusted (te : TaskEnv) (task : Task) (delta : Int) (l l' : Ledger) : Prop :=
  (delta = 0 ∧ l' = l) ∨
  (delta ≠ 0 ∧ ∃ l₁, Paid delta l l₁ (taskFunding task) ∧ l' = taskAdjustTokenQuota te l₁ task delta)

section Adjust

variable {te : TaskEnv} {e : Env} {l l' : Ledger} {task : Task} {delta : Int}

theorem taskAdjustFunding_eq_settle (hd : delta ≠ 0) :
    taskAdjustFunding e l task delta = (taskFunding task).settle e l delta := by
  unfold taskAdjustFunding taskFunding
  split <;> simp only [FundingSource.settle, SubscriptionFunding.settle, WalletFunding.settle, if_neg hd]

theorem taskAdjustFunding_cases {r : Except String Unit} (hd : delta ≠ 0)
    (h : taskAdjustFunding e l task delta = (l', r)) :
    Failed l l' r ∨ (r = .ok () ∧ Paid delta l l' (taskFunding task)) :=
  fundingSettle_cases hd ((taskAdjustFunding_eq_settle hd).symm.trans h)

theorem taskAdjustTokenQuota_ok (hf : te.env.fault .tokenWrite = none)
    (hkey : 0 < task.tokenId → te.tokenKey task.tokenId ≠ "") :
    taskAdjustTokenQuota te l task delta =
      { l with tokenRemain := credit l.tokenRemain task.tokenId (if 0 < task.tokenId then -delta else 0) } := by
  unfold taskAdjustTokenQuota
  by_cases hid : 0 < task.tokenId
  · by_cases hd : delta = 0
    · subst hd
      simp
    rw [if_neg (by omega), if_neg (hkey hid), hf, if_pos hid]
    split
    · unfold decreaseTokenQuota
      rw [write_ok (by omega)]
    unfold increaseTokenQuota
    rw [write_ok (by omega)]
  · rw [if_pos (.inl (by omega)), if_neg hid]
    simp

theorem Paid.change {f : FundingSource} (hp : Paid delta l l' f)
    (h0 : ∀ g, f = .subscription g → 0 ≤ l.db.usedOf g.subscriptionId + delta) :
    fundingChange l l' f = -delta := by
  rcases f with w | g
  · rw [hp]
    simp only [fundingChange, credit_apply, if_true]
    omega
  have hnn := h0 g rfl
  obtain ⟨_, sub, hsub, _, hl⟩ := hp
  have hused : l.db.usedOf g.subscriptionId = sub.amountUsed := usedOf_of_get hsub
  have hcl : clampedUsed sub.amountUsed delta = sub.amountUsed + delta := clampedUsed_eq (by omega)
  have hset := usedOf_setUsed hsub (show l'.db.subs = l.db.subs.save
    { sub with amountUsed := sub.amountUsed + delta } by rw [hl, hcl]) g.subscriptionId
  rw [if_pos rfl] at hset
  simp only [fundingChange, hset, hused]
  omega

attribute [local simp] storedQuota

variable {updates : List TaskUpdate}

theorem recalculateTaskQuota_adjusted {actualQuota : Int} {task' : Task}
    (h : recalculateTaskQuota te l task actualQuota = (l', task', updates, .ok ())) :
    Adjusted te task (raiseTo task actualQuota) l l' ∧
      (0 < task.id → storedQuota task updates = task.quota + raiseTo task actualQuota) := by
  unfold recalculateTaskQuota at h
  unfold raiseTo
  simp only at h
  split at h
  · rename_i hle
    cases h
    rw [if_pos hle]
    exact ⟨.inl ⟨rfl, rfl⟩, fun _ => by simp⟩
  rename_i hpos
  rw [if_neg hpos]
  have hstored : 0 < task.id →
      storedQuota task (if 0 < task.id then [task.updateQuota actualQuota te.env.now] else []) =
        task.quota + (actualQuota - task.quota) := by
    intro hid
    rw [if_pos hid]
    simp [Table.Update.apply, Task.updateQuota]
  split at h
  · rename_i h0
    cases h
    exact ⟨.inl ⟨h0, rfl⟩, hstored⟩
  rename_i hne
  split at h
  · cases h
  rename_i l₁ hadj
  cases h
  rcases taskAdjustFunding_cases hne hadj with ⟨_, err, he⟩ | ⟨_, hpaid⟩
  · cases he
  · exact ⟨.inr ⟨hne, l₁, hpaid, rfl⟩, hstored⟩

theorem refundTaskQuota_adjusted {reason : String} {outcome : RefundOutcome}
    (h : refundTaskQuota te l task reason = (l', outcome)) (hok : ∀ err, outcome ≠ .failed err) :
    Adjusted te task (Terminal.delta te task (.refund reason)) l l' := by
  unfold refundTaskQuota at h
  simp only [Terminal.delta]
  split at h
  · rename_i h0
    cases h
    exact .inl ⟨by rw [h0]; simp, rfl⟩
  split at h
  · rename_i hk
    cases h
    refine .inl ⟨if_neg ?_, rfl⟩
    simpa using hk
  rename_i hk
  rw [if_pos (by simpa using hk)]
  split at h
  · rename_i l₁ err hadj
    cases h
    exact absurd rfl (hok err)
  rename_i l₁ hadj
  cases h
  have hne : -task.quota ≠ 0 := by omega
  rcases taskAdjustFunding_cases hne hadj with ⟨_, err, he⟩ | ⟨_, hpaid⟩
  · cases he
  · exact .inr ⟨hne, l₁, hpaid, rfl⟩

/-- **Every ending whose writes succeed moves the funding source and the token by its delta**, and
the stored quota follows unless the quota is given back. -/
theorem Terminal.bill_adjusted {ending : Terminal}
    (h : ending.bill te l task = (l', updates, .ok ())) :
    Adjusted te task (ending.delta te task) l l' ∧ (0 < task.id → ending.refunds te task = false →
        storedQuota task updates = task.quota + ending.delta te task) := by
  cases ending with
  | complete adaptorQuota byTokens =>
    simp only [bill] at h
    rcases hs : settleTaskBillingOnComplete te l task adaptorQuota byTokens with ⟨l₁, task₁,
      updates₁, r₁⟩
    rw [hs] at h
    cases h
    unfold settleTaskBillingOnComplete at hs
    simp only [delta]
    split at hs
    · rename_i hpc
      cases hs
      rw [if_pos hpc]
      exact ⟨.inl ⟨rfl, rfl⟩, fun _ _ => by simp⟩
    rename_i hpc
    rw [if_neg hpc]
    split at hs
    · rename_i hpos
      rw [if_pos hpos]
      split at hs
      · obtain ⟨hadj, hq⟩ := recalculateTaskQuota_adjusted hs
        rw [raiseTo, if_neg (by omega)] at hadj hq
        exact ⟨hadj, fun hid _ => hq hid⟩
      cases hs
      have h0 : adaptorQuota - task.quota = 0 := by omega
      rw [h0]
      exact ⟨.inl ⟨rfl, rfl⟩, fun _ _ => by simp⟩
    · rename_i hpos
      rw [if_neg hpos]
      split at hs
      · obtain ⟨hadj, hq⟩ := recalculateTaskQuota_adjusted hs
        exact ⟨hadj, fun hid _ => hq hid⟩
      · cases hs
        exact ⟨.inl ⟨rfl, rfl⟩, fun _ _ => by simp⟩
  | imageComplete =>
    simp only [bill] at h
    rcases hs : recalculateTaskQuota te l task task.quota with ⟨l₁, task₁, updates₁, r₁⟩
    rw [hs] at h
    cases h
    obtain ⟨hadj, hq⟩ := recalculateTaskQuota_adjusted hs
    have h0 : raiseTo task task.quota = 0 := by
      unfold raiseTo
      split <;> omega
    rw [h0] at hadj hq
    exact ⟨hadj, fun hid _ => hq hid⟩
  | unbilled =>
    cases h
    exact ⟨.inl ⟨rfl, rfl⟩, fun _ _ => by simp [delta]⟩
  | refund reason =>
    simp only [bill] at h
    rcases hs : refundTaskQuota te l task reason with ⟨l₁, outcome⟩
    rw [hs] at h
    have hok : ∀ err, outcome ≠ .failed err := by
      rintro err rfl
      cases h
    have hl : l₁ = l' ∧ updates = [] := by
      cases outcome with
      | failed err => exact absurd rfl (hok err)
      | _ => cases h; exact ⟨rfl, rfl⟩
    obtain ⟨rfl, rfl⟩ := hl
    refine ⟨refundTaskQuota_adjusted hs hok, fun _ hkept => ?_⟩
    simp only [refunds] at hkept
    simp [delta, hkept]

end Adjust

end NewApi.Billing
