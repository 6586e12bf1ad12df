import NewApi.Service.TaskLife

/-!
# Usage statistics of tasks

Submission counts a task's quota as used (`LogTaskConsumption`); a completion should count only what
the settlement adds to it. The statistics are three columns that no balance depends on, so they
stand beside the ledger: `recalculateTaskCounters` and `settleTaskCounters` are what
`RecalculateTaskQuota` and `settleTaskBillingOnComplete` write to them, next to the ledger part in
`NewApi.Service.TaskBilling`.

* `Counters` — `used_quota` and `request_count` of users, `used_quota` of channels.
* `settleTaskCounters_same`, `settleTaskCounters_still`, `settleTaskCounters_raise` — what a
  completion counts, by the difference it settles.
-/

namespace NewApi.Billing

open NewApi.Subscription

@[ext] structure Counters where
  userUsed : Int → Int
  userRequests : Int → Int
  channelUsed : Int → Int

/-- Which of the two statistics writes fail; their errors are only logged. -/
structure CounterFaults where
  user : Option String
  channel : Option String
  deriving DecidableEq, Repr

def updateUserUsedQuotaAndRequestCount (fault : Option String) (c : Counters) (id quota : Int) :
    Counters :=
  match fault with
  | some _ => c
  | none =>
    { c with userUsed := credit c.userUsed id quota, userRequests := credit c.userRequests id 1 }

def updateChannelUsedQuota (fault : Option String) (c : Counters) (id quota : Int) : Counters :=
  match fault with
  | some _ => c
  | none => { c with channelUsed := credit c.channelUsed id quota }

/-- The pair of calls that counts a consumption. -/
def countConsumption (f : CounterFaults) (c : Counters) (userId channelId quota : Int) : Counters :=
  updateChannelUsedQuota f.channel (updateUserUsedQuotaAndRequestCount f.user c userId quota) channelId quota

/-- `LogTaskConsumption`; `quota` is `info.PriceData.Quota`. -/
def logTaskConsumption (f : CounterFaults) (c : Counters) (userId channelId quota : Int) :
    Counters :=
  countConsumption f c userId channelId quota

def recordTaskBillingConsumeLog (f : CounterFaults) (c : Counters) (task : Task) (quota : Int) :
    Counters :=
  if quota ≤ 0 then c else countConsumption f c task.userId task.channelId quota

/-- The statistics of `RecalculateTaskQuota`. -/
def recalculateTaskCounters (f : CounterFaults) (te : TaskEnv) (l : Ledger) (c : Counters)
    (task : Task) (actualQuota : Int) : Counters :=
  if actualQuota ≤ 0 then c
  else
    let quotaDelta := actualQuota - task.quota
    if quotaDelta = 0 then recordTaskBillingConsumeLog f c task actualQuota
    else
      match (recalculateTaskQuota te l task actualQuota).2.2.2 with
      | .error _ => c
      | .ok () =>
        if 0 < quotaDelta then countConsumption f c task.userId task.channelId quotaDelta else c

/-- The statistics of `settleTaskBillingOnComplete`. -/
def settleTaskCounters (f : CounterFaults) (te : TaskEnv) (l : Ledger) (c : Counters) (task : Task)
    (adaptorQuota : Int) (byTokens : Option Int) : Counters :=
  if task.perCallBilling then c
  else if 0 < adaptorQuota then
    if adaptorQuota ≠ task.quota then recalculateTaskCounters f te l c task adaptorQuota else c
  else
    match byTokens with
    | some actualQuota => recalculateTaskCounters f te l c task actualQuota
    | none => c

/-! ## What a completion counts -/

/-- The token route is taken and arrives at the quota that is already charged. -/
def recomputesSame (task : Task) (adaptorQuota : Int) (byTokens : Option Int) : Bool :=
  !task.perCallBilling && decide (adaptorQuota ≤ 0) && decide (byTokens = some task.quota) && decide (0 < task.quota)

/-- The funding source of the task can be charged `delta`: no statement fails, and a subscription is
stored and has room. -/
def Chargeable (e : Env) (l : Ledger) (task : Task) (delta : Int) : Prop :=
  if taskIsSubscription task then
    (∀ s, e.deltaFault s = none) ∧ ∃ sub, l.db.subs.get task.subscriptionId = some sub ∧
      (0 < sub.amountTotal → clampedUsed sub.amountUsed delta ≤ sub.amountTotal)
  else e.fault .userWrite = none

variable {delta : Int}

section Counting

variable {f : CounterFaults} {te : TaskEnv} {l : Ledger} {c : Counters} {task : Task}

theorem taskAdjustFunding_ok_iff (hd : 0 < delta) :
    (taskAdjustFunding te.env l task delta).2 = .ok () ↔ Chargeable te.env l task delta := by
  unfold taskAdjustFunding Chargeable
  split
  · rename_i hs
    have hid : 0 < task.subscriptionId := by
      simp only [taskIsSubscription, decide_eq_true_eq] at hs
      exact hs.2
    exact delta_ok_iff hid (by omega)
  · simp only [decreaseUserQuota, guardNegative, update, if_neg (show ¬ delta < 0 by omega)]
    cases te.env.fault .userWrite <;> simp

variable {actualQuota channelId quota userId : Int}

section Raise

variable (hpos : 0 < actualQuota) (hd : 0 < actualQuota - task.quota)
include hpos hd

theorem recalculateTaskQuota_ok_iff : (recalculateTaskQuota te l task actualQuota).2.2.2 = .ok () ↔
      Chargeable te.env l task (actualQuota - task.quota) := by
  rw [← taskAdjustFunding_ok_iff hd]
  simp only [recalculateTaskQuota, if_neg hd.ne', if_neg (not_le.mpr hpos)]
  rcases taskAdjustFunding te.env l task (actualQuota - task.quota) with ⟨l', err | ⟨⟩⟩ <;> simp

theorem recalculateTaskCounters_raise (hc : Chargeable te.env l task (actualQuota - task.quota)) :
    recalculateTaskCounters f te l c task actualQuota =
      countConsumption f c task.userId task.channelId (actualQuota - task.quota) := by
  simp only [recalculateTaskCounters, if_neg hd.ne', if_neg (not_le.mpr hpos), if_pos hd,
    (recalculateTaskQuota_ok_iff hpos hd).mpr hc]

theorem recalculateTaskCounters_refused (hc : ¬ Chargeable te.env l task (actualQuota - task.quota)) :
    recalculateTaskCounters f te l c task actualQuota = c := by
  simp only [recalculateTaskCounters, if_neg hd.ne', if_neg (not_le.mpr hpos)]
  split
  · rfl
  · rename_i hok
    exact absurd ((recalculateTaskQuota_ok_iff hpos hd).mp hok) hc

end Raise

theorem recalculateTaskCounters_same (hpos : 0 < task.quota) :
    recalculateTaskCounters f te l c task task.quota =
      countConsumption f c task.userId task.channelId task.quota := by
  have hle : ¬ task.quota ≤ 0 := by omega
  simp [recalculateTaskCounters, recordTaskBillingConsumeLog, if_neg hle]

theorem countConsumption_eq_self_iff (hq : 0 < quota) :
    countConsumption f c userId channelId quota = c ↔ f.user ≠ none ∧ f.channel ≠ none := by
  have hne : quota ≠ 0 := by omega
  rcases f with ⟨_ | eu, _ | ec⟩ <;>
    simp [countConsumption, updateChannelUsedQuota, updateUserUsedQuotaAndRequestCount,
      Counters.ext_iff, credit_eq_self_iff, hne]

theorem countConsumption_used_iff (hq : 0 < quota) :
    ((countConsumption f c userId channelId quota).userUsed = credit c.userUsed userId quota ∧
      (countConsumption f c userId channelId quota).channelUsed = credit c.channelUsed channelId quota) ↔
      f.user = none ∧ f.channel = none := by
  have hne : ∀ (b : Int → Int) id, b ≠ credit b id quota := by
    intro b id h
    have := credit_eq_self_iff.mp h.symm
    omega
  rcases f with ⟨_ | eu, _ | ec⟩ <;>
    simp [countConsumption, updateChannelUsedQuota, updateUserUsedQuotaAndRequestCount, hne]

end Counting

/-! ## The routes of a completion -/

/-- How a completion should move the statistics. -/
def CountsDifference (task : Task) (delta : Int) (c c' : Counters) : Prop :=
  (delta = 0 → c' = c) ∧
  (0 < delta → c'.userUsed = credit c.userUsed task.userId delta ∧
    c'.channelUsed = credit c.channelUsed task.channelId delta)

/-- The token route does not arrive at the charged quota again, and a positive difference meets no
failing write. -/
def CountedOnce (f : CounterFaults) (te : TaskEnv) (l : Ledger) (task : Task) (adaptorQuota : Int)
    (byTokens : Option Int) : Prop :=
  let delta := Terminal.delta te task (.complete adaptorQuota byTokens)
  (recomputesSame task adaptorQuota byTokens = true → f.user ≠ none ∧ f.channel ≠ none) ∧
  (0 < delta → f.user = none ∧ f.channel = none ∧ Chargeable te.env l task delta)

section Routes

variable {f : CounterFaults} {te : TaskEnv} {l : Ledger} {c : Counters} {task : Task} {adaptorQuota : Int}
  {byTokens : Option Int}

theorem recomputesSame_iff : recomputesSame task adaptorQuota byTokens = true ↔
    task.perCallBilling = false ∧ adaptorQuota ≤ 0 ∧ byTokens = some task.quota ∧
      0 < task.quota := by
  simp [recomputesSame, and_assoc]

theorem settleTaskCounters_same (h : recomputesSame task adaptorQuota byTokens = true) :
    settleTaskCounters f te l c task adaptorQuota byTokens =
      countConsumption f c task.userId task.channelId task.quota := by
  obtain ⟨hpc, hle, rfl, hpos⟩ := recomputesSame_iff.mp h
  have hnp : ¬ 0 < adaptorQuota := by omega
  simp only [settleTaskCounters, hpc, if_neg hnp, Bool.false_eq_true, if_false]
  exact recalculateTaskCounters_same hpos

theorem recomputesSame_delta (h : recomputesSame task adaptorQuota byTokens = true) :
    Terminal.delta te task (.complete adaptorQuota byTokens) = 0 := by
  obtain ⟨hpc, hle, rfl, hpos⟩ := recomputesSame_iff.mp h
  have hnp : ¬ 0 < adaptorQuota := by omega
  simp [Terminal.delta, raiseTo, hpc, hnp]

theorem settleTaskCounters_still (h0 : Terminal.delta te task (.complete adaptorQuota byTokens) = 0)
    (h : recomputesSame task adaptorQuota byTokens = false) :
    settleTaskCounters f te l c task adaptorQuota byTokens = c := by
  have hnot : ¬ (task.perCallBilling = false ∧ adaptorQuota ≤ 0 ∧ byTokens = some task.quota ∧ 0 < task.quota) := by
    rw [← recomputesSame_iff, h]
    simp
  unfold settleTaskCounters
  simp only [Terminal.delta] at h0
  split
  · rfl
  rename_i hpc
  rw [if_neg hpc] at h0
  split
  · rw [if_neg (by omega)]
  rcases byTokens with _ | actualQuota
  · rfl
  simp only [Option.map_some, Option.getD_some, raiseTo] at h0
  by_cases hq : actualQuota ≤ 0
  · simp only [recalculateTaskCounters, if_pos hq]
  · exact absurd ⟨by simpa using hpc, by omega, by rw [show actualQuota = task.quota by omega],
      by omega⟩ hnot

section

variable (hd : Terminal.delta te task (.complete adaptorQuota byTokens) = delta)

include hd

theorem settleTaskCounters_raise (hpos : 0 < delta) :
    ∃ actualQuota, 0 < actualQuota ∧ actualQuota - task.quota = delta ∧
      settleTaskCounters f te l c task adaptorQuota byTokens =
        recalculateTaskCounters f te l c task actualQuota := by
  unfold settleTaskCounters
  simp only [Terminal.delta] at hd
  split
  · rename_i hpc
    rw [if_pos hpc] at hd
    omega
  rename_i hpc
  rw [if_neg hpc] at hd
  split
  · rename_i ha
    rw [if_pos ha] at hd
    exact ⟨adaptorQuota, ha, hd, if_pos (by omega)⟩
  rename_i ha
  rw [if_neg ha] at hd
  rcases byTokens with _ | actualQuota
  · simp only [Option.map_none, Option.getD_none] at hd; omega
  simp only [Option.map_some, Option.getD_some, raiseTo] at hd
  split at hd
  · omega
  · exact ⟨actualQuota, by omega, hd, rfl⟩

theorem settleTaskCounters_raise_iff (hpos : 0 < delta) :
    ((settleTaskCounters f te l c task adaptorQuota byTokens).userUsed = credit c.userUsed task.userId delta ∧
      (settleTaskCounters f te l c task adaptorQuota byTokens).channelUsed =
        credit c.channelUsed task.channelId delta) ↔
      f.user = none ∧ f.channel = none ∧ Chargeable te.env l task delta := by
  obtain ⟨actualQuota, hq, rfl, hs⟩ := settleTaskCounters_raise (f := f) (l := l) (c := c) hd hpos
  rw [hs]
  by_cases hc : Chargeable te.env l task (actualQuota - task.quota)
  · rw [recalculateTaskCounters_raise hq hpos hc, countConsumption_used_iff hpos]
    simp [hc]
  rw [recalculateTaskCounters_refused hq hpos hc]
  constructor
  · rintro ⟨h, _⟩
    have := credit_eq_self_iff.mp h.symm
    omega
  · rintro ⟨_, _, h⟩
    exact absurd h hc

end

end Routes

/-- **A completion counts exactly the difference to what submission has counted**, on every route,
unless the token route arrives at the charged quota again or a positive difference meets a failing
write. -/
theorem completion_counts_difference_iff (submitFaults f : CounterFaults) (te : TaskEnv)
    (l : Ledger) (c : Counters) (task : Task) (submittedQuota adaptorQuota : Int)
    (byTokens : Option Int) :
    let submitted := logTaskConsumption submitFaults c task.userId task.channelId submittedQuota
    CountsDifference task (Terminal.delta te task (.complete adaptorQuota byTokens)) submitted
        (settleTaskCounters f te l submitted task adaptorQuota byTokens) ↔
      CountedOnce f te l task adaptorQuota byTokens := by
  intro submitted
  refine and_congr ?_ (forall_congr' fun hpos => settleTaskCounters_raise_iff rfl hpos)
  cases hr : recomputesSame task adaptorQuota byTokens with
  | false => simpa using fun h0 => settleTaskCounters_still h0 hr
  | true =>
    rw [settleTaskCounters_same hr, countConsumption_eq_self_iff (recomputesSame_iff.mp hr).2.2.2]
    simp [recomputesSame_delta hr]

/-- A task of 100 is submitted, and its tokens come to 100 again: 200 are counted as used, in two
requests. -/
theorem same_quota_counted_twice : let task := { sampleTask 1 7 "a" with quota := 100 }
    let submitted := logTaskConsumption ⟨none, none⟩ ⟨fun _ => 0, fun _ => 0, fun _ => 0⟩ task.userId task.channelId 100
    let completed := settleTaskCounters ⟨none, none⟩ quietTaskEnv smallLedger submitted task 0 (some 100)
    Terminal.delta quietTaskEnv task (.complete 0 (some 100)) = 0 ∧
    (submitted.userUsed task.userId, submitted.userRequests task.userId,
      submitted.channelUsed task.channelId) = (100, 1, 100) ∧
    (completed.userUsed task.userId, completed.userRequests task.userId,
      completed.channelUsed task.channelId) = (200, 2, 200) ∧
    ¬ CountsDifference task 0 submitted completed := by
  refine ⟨by decide, by decide, by decide, fun h => ?_⟩
  have := congrFun (congrArg Counters.userUsed (h.1 rfl)) 1
  revert this
  decide

end NewApi.Billing
