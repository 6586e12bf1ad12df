import NewApi.Service.TaskBilling

/-!
# A task's quota from submission to its end

Submission charges through a `BillingSession` (`RelayTask` in `controller/relay.go`,
`RelayImageTaskSubmit` in `controller/image_async.go`); the end of the task adjusts through the
helpers of `NewApi.Service.TaskBilling`, which see the stored row only.

* `settleBilling`, `postConsumeQuota` — what `RelayTask` runs once the upstream has accepted.
-/

namespace NewApi.Billing

open NewApi.Subscription Table

/-! ## Submission -/

/-- One attempt of a submission. The quota is priced before it, `accepted` holds the final quota
when the upstream takes the task. -/
structure SubmitAttempt where
  quota : Int
  freeModel : Bool
  env : FactoryEnv
  accepted : Option Int

/-- Quotas are not negative, and a free model is priced at nothing (`ModelPriceHelperPerCall`). -/
structure SubmitAttempt.Priced (a : SubmitAttempt) : Prop where
  nonneg : 0 ≤ a.quota
  free : a.freeModel = true → a.quota = 0
  accepted_nonneg : ∀ q, a.accepted = some q → 0 ≤ q
  accepted_free : ∀ q, a.accepted = some q → a.freeModel = true → q = 0
  wallet : a.env.wallet.Compensates
  subscription : a.env.subscription.Compensates

/-- Step 7 of `RelayTaskSubmit`: charge in full, once, and not for a free model. The session and
the caller share one `relayInfo`. -/
def preConsumeBilling (cal : Calendar) (a : SubmitAttempt) (l : Ledger) (info : RelayInfo)
    (billing : Option BillingSession) :
    Ledger × RelayInfo × Except NewAPIError (Option BillingSession) :=
  if billing.isNone && !a.freeModel then
    match newSessionFor cal a.env l { info with forcePreConsume := true } a.quota with
    | (l, info, .error err) => (l, info, .error err)
    | (l, _, .ok s) => (l, s.relayInfo, .ok (some s))
  else (l, info, .ok billing)

/-- The retry loop of `RelayTask`. -/
def submitLoop (cal : Calendar) : List SubmitAttempt → Ledger → RelayInfo → Option BillingSession →
    Ledger × RelayInfo × Option BillingSession × Option Int
  | [], l, info, billing => (l, info, billing, none)
  | a :: rest, l, info, billing =>
    match preConsumeBilling cal a l info billing with
    | (l, info, .error _) => submitLoop cal rest l info billing
    | (l, info, .ok billing) =>
      match a.accepted with
      | some quota => (l, info, billing, some quota)
      | none => submitLoop cal rest l info billing

/-- `PostConsumeQuota`, the path without a session. -/
def postConsumeQuota (e : Env) (l : Ledger) (info : RelayInfo) (quota : Int) :
    Ledger × Except String Unit :=
  match
    if info.billingSource = some .subscription then
      if info.subscriptionId = 0 then (l, .error "subscription id is missing")
      else if quota ≠ 0 then subscriptionDelta e.deltaFault l info.subscriptionId quota
      else (l, .ok ())
    else if 0 < quota then decreaseUserQuota (e.fault .userWrite) l info.userId quota
    else increaseUserQuota (e.fault .userWrite) l info.userId (-quota) with
  | (l, .error err) => (l, .error err)
  | (l, .ok ()) => settleToken e l info quota

def settleBilling (e : Env) (l : Ledger) (info : RelayInfo) (billing : Option BillingSession)
    (actualQuota : Int) : Ledger × RelayInfo × Except String Unit :=
  match billing with
  | some s =>
    let (l, s, r) := s.settle e l actualQuota
    (l, s.relayInfo, r)
  | none =>
    let quotaDelta := actualQuota - info.finalPreConsumedQuota
    if quotaDelta ≠ 0 then
      let (l, r) := postConsumeQuota e l info quotaDelta
      (l, info, r)
    else (l, info, .ok ())

/-- `MaybeRefundBilling`, when no task comes of the submission. -/
def maybeRefundBilling (te : TaskEnv) (l : Ledger) (info : RelayInfo)
    (billing : Option BillingSession) (action reason : String) : Ledger :=
  match billing with
  | none => l
  | some s =>
    if shouldRefundTaskOnFailure te info.userId action reason "" then (s.refund te.env l).1 else l

/-- The billing columns of the row a submission stores; the others are `row`'s. -/
def submittedTask (row : Task) (info : RelayInfo) (quota : Int) : Task :=
  { row with
    userId := info.userId
    quota := quota
    billingSource := match info.billingSource with
      | none => .unrecorded
      | some .wallet => .wallet
      | some .subscription => .subscription
    subscriptionId := info.subscriptionId
    tokenId := info.tokenId }

inductive Submission where
  /-- Video and Suno: any number of attempts, then `SettleBilling` at the final quota. -/
  | relayTask (attempts : List SubmitAttempt) (settleEnv : Env)
  /-- Images: one attempt, and what was pre-consumed stays. -/
  | relayImageTask (attempt : SubmitAttempt)

def Submission.isImage : Submission → Bool
  | .relayTask _ _ => false
  | .relayImageTask _ => true

def Submission.Priced : Submission → Prop
  | .relayTask attempts _ => ∀ a ∈ attempts, a.Priced
  | .relayImageTask attempt => attempt.Priced

/-- The ledger after a submission, the row it stores, and the error of the settlement, which is
only logged. -/
def Submission.run (cal : Calendar) (te : TaskEnv) (l : Ledger) (info : RelayInfo) (row : Task)
    (failure : String) : Submission → Ledger × Option Task × Except String Unit
  | .relayTask attempts settleEnv =>
    match submitLoop cal attempts l info none with
    | (l, info, billing, none) => (maybeRefundBilling te l info billing row.action failure, none, .ok ())
    | (l, info, billing, some quota) =>
      let (l, info, r) := settleBilling settleEnv l info billing quota
      (l, some (submittedTask row info quota), r)
  | .relayImageTask a =>
    match preConsumeBilling cal a l info none with
    | (l, _, .error _) => (l, none, .ok ())
    | (l, info, .ok billing) =>
      match a.accepted with
      | none => (maybeRefundBilling te l info billing row.action failure, none, .ok ())
      | some _ => (l, some (submittedTask row info a.quota), .ok ())

/-! ## Where a submission stands -/

/-- A request that has not been billed yet: its id is new, and a token id is given exactly when
there is a token. -/
structure FreshRequest (l : Ledger) (info : RelayInfo) : Prop where
  valid : l.db.Valid
  fresh : l.db.records.get info.requestId = none
  unbilled : info.billingSource = none
  preConsumed : info.finalPreConsumedQuota = 0
  token : if info.isPlayground then info.tokenId ≤ 0 else 0 < info.tokenId

/-- The submission has taken the ledger from `l₀` to `l`: nothing charged yet, or one session
opened. -/
inductive Charging (cal : Calendar) (info₀ : RelayInfo) (l₀ l : Ledger) (info : RelayInfo) :
    Option BillingSession → Prop
  | uncharged (hl : l = l₀)
      (hinfo : ∃ quota force, info = { info₀ with userQuota := quota, forcePreConsume := force }) :
      Charging cal info₀ l₀ l info none
  | charged (s : BillingSession) (now : Int) (hopen : Opened cal now info₀ l₀ l s)
      (hinfo : info = s.relayInfo) : Charging cal info₀ l₀ l info (some s)

section Submit

variable {cal : Calendar} {info₀ info info' : RelayInfo} {l₀ l l' : Ledger}
  {billing : Option BillingSession} {a : SubmitAttempt}

theorem Opened.of_caches {now userQuota : Int} {force : Bool} {s : BillingSession}
    (h : Opened cal now { info with userQuota := userQuota, forcePreConsume := force } l l' s) :
    Opened cal now info l l' s :=
  ⟨h.settled, h.refunded, h.fundingSettled, h.extraReserved, h.nonneg, h.trusted, h.tokenId, h.limited,
    h.tokenConsumed, h.token, h.funded, h.subscriptionId, h.billingSource, h.userId⟩

theorem preConsumeBilling_cases {r : Except NewAPIError (Option BillingSession)} (ha : a.Priced)
    (hfresh : l₀.db.records.get info₀.requestId = none) (h : Charging cal info₀ l₀ l info billing)
    (hr : preConsumeBilling cal a l info billing = (l', info', r)) :
    (∃ err, r = .error err ∧ Charging cal info₀ l₀ l' info' billing) ∨
    (∃ billing', r = .ok billing' ∧ Charging cal info₀ l₀ l' info' billing' ∧
      (billing' = none → a.freeModel = true)) := by
  unfold preConsumeBilling at hr
  split at hr
  · rename_i hnew
    obtain ⟨hnone, _⟩ := Bool.and_eq_true_iff.mp hnew
    cases h with
    | charged s now hopen hinfo => cases hnone
    | uncharged hl hinfo =>
      obtain ⟨q, b, rfl⟩ := hinfo
      subst hl
      rcases hs : newSessionFor cal a.env l { info₀ with userQuota := q, forcePreConsume := true } a.quota
        with ⟨l₁, info₁, r₁⟩
      simp only [hs] at hr
      have hatt : Attempted cal [a.env.wallet.now, a.env.subscription.now] l
          { info₀ with userQuota := q, forcePreConsume := true } (l₁, info₁, r₁) :=
        hs ▸ newSessionFor_attempted ha.wallet ha.subscription ha.nonneg hfresh
      obtain ⟨q', hq'⟩ := hatt.same
      rcases hatt.result with ⟨hl₁, err, herr⟩ | ⟨s, now, _, hok, hopen⟩
      · simp only at hl₁ herr hq'
        rw [herr] at hr
        cases hr
        exact .inl ⟨err, rfl, .uncharged hl₁ ⟨q', true, hq'⟩⟩
      simp only at hok
      rw [hok] at hr
      cases hr
      refine .inr ⟨some s, rfl, .charged s now hopen.of_caches rfl, ?_⟩
      intro hbad
      cases hbad
  · rename_i hskip
    cases hr
    refine .inr ⟨billing, rfl, h, ?_⟩
    rintro rfl
    simpa using hskip

/-- **The retry loop charges at most one session**, and an accepted task without a session is
free. -/
theorem submitLoop_charging {attempts : List SubmitAttempt} {billing' : Option BillingSession}
    {result : Option Int} (ha : ∀ a ∈ attempts, a.Priced)
    (hfresh : l₀.db.records.get info₀.requestId = none) (h : Charging cal info₀ l₀ l info billing)
    (hr : submitLoop cal attempts l info billing = (l', info', billing', result)) :
    Charging cal info₀ l₀ l' info' billing' ∧
      ∀ q, result = some q → 0 ≤ q ∧ (billing' = none → q = 0) := by
  induction attempts generalizing l info billing with
  | nil =>
    cases hr
    exact ⟨h, fun q hq => by cases hq⟩
  | cons a rest ih =>
    have hpriced := ha a List.mem_cons_self
    have hrest : ∀ x ∈ rest, SubmitAttempt.Priced x := fun x hx => ha x (List.mem_cons_of_mem _ hx)
    simp only [submitLoop] at hr
    rcases hp : preConsumeBilling cal a l info billing with ⟨l₁, info₁, r₁⟩
    rw [hp] at hr
    rcases preConsumeBilling_cases hpriced hfresh h hp with ⟨err, rfl, hc⟩ | ⟨b, rfl, hc, hfree⟩
    · exact ih hrest hc hr
    rcases hacc : a.accepted with _ | q
    · rw [hacc] at hr
      exact ih hrest hc hr
    rw [hacc] at hr
    cases hr
    refine ⟨hc, fun q' hq' => ?_⟩
    cases hq'
    exact ⟨hpriced.accepted_nonneg q hacc, fun hb => hpriced.accepted_free q hacc (hfree hb)⟩

end Submit

/-! ## How much a submission charges -/

/-- The session of a forced pre-consume holds the priced quota; a subscription at least 1. -/
def ForcedAmount (quota : Int) (out : Ledger × RelayInfo × Except NewAPIError BillingSession) :
    Prop :=
  out.2.1.forcePreConsume = true ∧ ∀ s, out.2.2 = .ok s →
    s.preConsumedQuota = (match s.funding.source with
      | .wallet => quota
      | .subscription => subConsume quota)

section Amount

variable {cal : Calendar} {e : Env} {l l' : Ledger} {info : RelayInfo} {quota : Int}

theorem fundingPreConsume_source {f f' : FundingSource} {amount : Int}
    (h : f.preConsume cal e l amount = (l', .ok f')) : f'.source = f.source := by
  unfold FundingSource.preConsume at h
  split at h <;> split at h <;> cases h <;> rfl

theorem preConsume_forced {s s' : BillingSession} (hforce : s.relayInfo.forcePreConsume = true)
    (h : s.preConsume cal e l quota = (l', .ok s')) :
    s'.preConsumedQuota = quota ∧ s'.funding.source = s.funding.source := by
  have htrust : s.shouldTrust e = false := by
    unfold BillingSession.shouldTrust
    rw [if_pos hforce]
  unfold BillingSession.preConsume at h
  simp only [htrust, Bool.false_eq_true, if_false] at h
  split at h
  · cases h
  split at h
  · cases h
  rename_i f' hp
  cases h
  simp only [syncRelayInfo_fields]
  exact ⟨trivial, fundingPreConsume_source hp⟩

theorem orElseInsufficient_forced {out : Ledger × RelayInfo × Except NewAPIError BillingSession}
    {next : Ledger → RelayInfo → Ledger × RelayInfo × Except NewAPIError BillingSession}
    (h : ForcedAmount quota out)
    (hnext : ∀ l info, info.forcePreConsume = true → ForcedAmount quota (next l info)) :
    ForcedAmount quota (orElseInsufficient out next) := by
  unfold orElseInsufficient
  split
  · split
    · exact hnext _ _ h.1
    · exact h
  · exact h

section

variable (hforce : info.forcePreConsume = true)

include hforce

theorem tryWallet_forced : ForcedAmount quota (tryWallet cal e l info quota) := by
  unfold tryWallet
  split
  · exact ⟨hforce, fun s hs => by cases hs⟩
  split
  · exact ⟨hforce, fun s hs => by cases hs⟩
  split
  · exact ⟨hforce, fun s hs => by cases hs⟩
  refine ⟨hforce, fun s hs => ?_⟩
  rename_i userQuota _ _ _
  rcases hp : (BillingSession.fresh { info with userQuota := userQuota }
    (.wallet ⟨info.userId, 0⟩)).preConsume cal e l quota with ⟨l₁, r₁⟩
  simp only [hp] at hs
  subst hs
  obtain ⟨hq, hsrc⟩ := preConsume_forced hforce hp
  rw [hsrc]
  exact hq

theorem trySubscription_forced : ForcedAmount quota (trySubscription cal e l info quota) := by
  refine ⟨hforce, fun s hs => ?_⟩
  obtain ⟨hq, hsrc⟩ := preConsume_forced hforce (Prod.ext rfl hs)
  rw [hsrc]
  exact hq

/-- **A forced pre-consume holds the priced quota**, whichever source the factory settles on. -/
theorem newSessionFor_forced {e : FactoryEnv} :
    ForcedAmount quota (newSessionFor cal e l info quota) := by
  unfold newSessionFor
  split
  · exact trySubscription_forced hforce
  · exact tryWallet_forced hforce
  · exact orElseInsufficient_forced (tryWallet_forced hforce) fun _ _ => trySubscription_forced
  split
  · exact ⟨hforce, fun s hs => by cases hs⟩
  · exact tryWallet_forced hforce
  · exact orElseInsufficient_forced (trySubscription_forced hforce) fun _ _ => tryWallet_forced

end

end Amount

/-! ## The stored row -/

section Stored

variable {cal : Calendar} {e : Env} {info₀ : RelayInfo} {l₀ l l' : Ledger} {s s' : BillingSession} {row : Task}

variable {r : Except String Unit} {actual c q : Int}

theorem settle_keeps (h : s.settle e l actual = (l', s', r)) :
    s'.funding = s.funding ∧ s'.relayInfo.userId = s.relayInfo.userId ∧
    s'.relayInfo.tokenId = s.relayInfo.tokenId ∧
    s'.relayInfo.billingSource = s.relayInfo.billingSource ∧
    s'.relayInfo.subscriptionId = s.relayInfo.subscriptionId := by
  rcases settle_cases h with ⟨-, rfl, -⟩ | ⟨-, rfl, -⟩ | ⟨_, _, -, -, rfl⟩ <;> exact ⟨rfl, rfl, rfl,
    rfl, rfl⟩

variable {f : FundingSource}

theorem Paid.period {d : Int} (hp : Paid d l l' f) (id : Int) :
    l'.db.period id = l.db.period id := by
  rcases f with w | g
  · rw [show l' = _ from hp]
  obtain ⟨_, sub, hsub, _, hl⟩ := hp
  have hk : sub.id = g.subscriptionId := key_of_get hsub
  by_cases hid : id = g.subscriptionId
  · subst hid
    have hrow : l'.db.subs.get g.subscriptionId = some { sub with amountUsed := clampedUsed sub.amountUsed d } := by
      rw [hl]
      exact get_save_of_key hsub hk
    rw [period_of_get hrow, period_of_get hsub]
    rfl
  · have hrow : l'.db.subs.get id = l.db.subs.get id := by
      rw [hl]
      exact get_save_ne _ (fun h => hid (h.trans hk))
    unfold DB.period
    rw [hrow]

theorem settle_period (h : s.settle e l actual = (l', s', r)) (id : Int) :
    l'.db.period id = l.db.period id := by
  rcases settle_cases h with ⟨rfl, -⟩ | ⟨rfl, -⟩ | ⟨l₁, _, hpaid, ht, -⟩
  · rfl
  · rfl
  have hdb : l'.db = l₁.db := by rcases settleToken_cases ht with ⟨rfl, _⟩ | ⟨rfl, _⟩ <;> simp
  rcases hpaid with ⟨-, rfl⟩ | hpaid
  · rw [hdb]
  · rw [hdb]
    exact hpaid.period id

attribute [local simp] taskIsSubscription FundingSource.source

theorem Moved.taskFunding {info : RelayInfo} (h : Moved c l₀ l f)
    (hsrc : info.billingSource = some f.source)
    (huser : ∀ w, f = .wallet w → w.userId = info.userId)
    (hsub : ∀ g, f = .subscription g → info.subscriptionId = g.subscriptionId ∧ 0 < g.subscriptionId) :
    Moved c l₀ l (taskFunding (submittedTask row info q)) := by
  cases f with
  | wallet w =>
    have hs : taskIsSubscription (submittedTask row info q) = false := by
      simp [submittedTask, hsrc]
    have hw : w.userId = info.userId := huser w rfl
    unfold Billing.taskFunding
    rw [hs]
    show l.userQuota = credit l₀.userQuota info.userId (-c) ∧ l.db = l₀.db
    rw [← hw]
    exact h
  | subscription g =>
    obtain ⟨hid, hpos⟩ := hsub g rfl
    have hs : taskIsSubscription (submittedTask row info q) = true := by
      simp [submittedTask, hsrc, hid, hpos]
    unfold Billing.taskFunding
    rw [hs]
    show l.userQuota = l₀.userQuota ∧ ∀ id, l.db.usedOf id = credit l₀.db.usedOf info.subscriptionId c id
    rw [hid]
    exact h

/-- What a submission charges: the stored quota, but 1 for an image task stored at nothing and
charged to a subscription. -/
def submitCharge (sub : Submission) (task : Task) : Int :=
  if sub.isImage = true ∧ task.quota = 0 ∧ task.billingSource = .subscription then 1 else task.quota

/-- **A submission that has stored its row** on the way from `l₀` to `l`. -/
structure Submitted (info₀ : RelayInfo) (l₀ l : Ledger) (sub : Submission) (task : Task) : Prop where
  nonneg : 0 ≤ task.quota
  tokenId : task.tokenId = info₀.tokenId
  moved : Moved (submitCharge sub task) l₀ l (taskFunding task)
  token : l.tokenRemain = (l₀.chargeToken info₀ (submitCharge sub task)).tokenRemain

variable {sub : Submission}

theorem submitted_uncharged (quota : Int) (force : Bool) (hreq : FreshRequest l₀ info₀) :
    Submitted info₀ l₀ l₀ sub
      (submittedTask row { info₀ with userQuota := quota, forcePreConsume := force } 0) := by
  have hs : taskIsSubscription
      (submittedTask row { info₀ with userQuota := quota, forcePreConsume := force } 0) = false := by
    simp [submittedTask, hreq.unbilled]
  have hcharge : submitCharge sub
      (submittedTask row { info₀ with userQuota := quota, forcePreConsume := force } 0) = 0 := by
    simp [submitCharge, submittedTask, hreq.unbilled]
  refine ⟨le_refl _, rfl, ?_, ?_⟩
  · rw [hcharge, taskFunding, hs]
    exact ⟨by simp, rfl⟩
  · rw [hcharge, chargeToken_zero]

theorem Held.submitted (h : Held info₀ l₀ l s)
    (hsrc : s.relayInfo.billingSource = some s.funding.source)
    (huser : ∀ w, s.funding = .wallet w → w.userId = s.relayInfo.userId)
    (hkeep : s'.relayInfo.userId = s.relayInfo.userId ∧ s'.relayInfo.tokenId = s.relayInfo.tokenId ∧
      s'.relayInfo.billingSource = s.relayInfo.billingSource ∧
      s'.relayInfo.subscriptionId = s.relayInfo.subscriptionId)
    (hm : Moved c l₀ l' s.funding) (htok : l'.tokenRemain = (l₀.chargeToken info₀ c).tokenRemain)
    (hq : 0 ≤ q) (hc : submitCharge sub (submittedTask row s'.relayInfo q) = c) :
    Submitted info₀ l₀ l' sub (submittedTask row s'.relayInfo q) := by
  obtain ⟨hu, ht, hb, hsid⟩ := hkeep
  refine ⟨hq, ht.trans h.tokenId, ?_, by rw [hc]; exact htok⟩
  rw [hc]
  refine hm.taskFunding (hb.trans hsrc) (fun w hw => (huser w hw).trans hu.symm) fun g hg => ?_
  have hback := h.backed
  rw [hg] at hback
  obtain ⟨_, hid, record, row', ho, hrec, _⟩ := hback
  have hpos : 0 < row'.id := (ho.valid.sub ho.charged).pos
  have hkey : row'.id = record.userSubscriptionId := key_of_get ho.charged
  exact ⟨hsid.trans hid, by omega⟩

end Stored

section Run

variable {cal : Calendar} {te : TaskEnv} {info₀ : RelayInfo} {l₀ l : Ledger} {row task : Task} {failure : String}

theorem preConsumeBilling_amount {a : SubmitAttempt} {info info' : RelayInfo} {l' : Ledger}
    {s : BillingSession} (h : preConsumeBilling cal a l info none = (l', info', .ok (some s))) :
    s.preConsumedQuota = (match s.funding.source with
      | .wallet => a.quota
      | .subscription => subConsume a.quota) := by
  unfold preConsumeBilling at h
  split at h
  · have hforced : ForcedAmount a.quota (newSessionFor cal a.env l { info with forcePreConsume := true } a.quota) :=
      newSessionFor_forced rfl
    split at h
    · cases h
    rename_i l₁ info₁ s₁ hs
    cases h
    rw [hs] at hforced
    exact hforced.2 s rfl
  · cases h

/-- **What a submission charges**, when it stores a row and its settlement succeeds. -/
theorem Submission.run_submitted {sub : Submission} (hreq : FreshRequest l₀ info₀)
    (hpriced : sub.Priced) (hperiod : ∀ id, l.db.period id = l₀.db.period id)
    (hrun : sub.run cal te l₀ info₀ row failure = (l, some task, .ok ())) :
    Submitted info₀ l₀ l sub task := by
  have hstart : Charging cal info₀ l₀ l₀ info₀ none := .uncharged rfl ⟨_, _, rfl⟩
  cases sub with
  | relayTask attempts settleEnv =>
    simp only [run] at hrun
    rcases hloop : submitLoop cal attempts l₀ info₀ none with ⟨l₁, info₁, billing, result⟩
    rw [hloop] at hrun
    obtain ⟨hcharging, hresult⟩ := submitLoop_charging hpriced hreq.fresh hstart hloop
    rcases result with _ | q
    · cases hrun
    obtain ⟨hq, hfree⟩ := hresult q rfl
    cases hcharging with
    | uncharged hl hinfo =>
      obtain ⟨u, f, rfl⟩ := hinfo
      subst hl
      obtain rfl := hfree rfl
      simp only [settleBilling, hreq.preConsumed, sub_self, ne_eq, not_true, if_false] at hrun
      cases hrun
      exact submitted_uncharged u f hreq
    | charged s now hopen hinfo =>
      simp only [settleBilling] at hrun
      rcases hs : s.settle settleEnv l₁ q with ⟨l₂, s₂, r₂⟩
      rw [hs] at hrun
      cases hrun
      have hp : ∀ id, l₁.db.period id = l₀.db.period id := fun id =>
        (settle_period hs id).symm.trans (hperiod id)
      have hheld := hopen.held hreq.valid hp
      obtain ⟨hfunding, hkeep⟩ := settle_keeps hs
      rcases held_settle hheld hq hs with ⟨_, _, err, hr⟩ | ⟨_, hm, c, htok, _, hc⟩
      · cases hr
      obtain rfl := hc rfl
      rw [hfunding] at hm
      refine hheld.submitted hopen.billingSource ?_ hkeep hm htok hq ?_
      · intro w hw
        have hfd := hopen.funded
        rw [hw] at hfd
        exact hfd.1.trans hopen.userId.symm
      rw [submitCharge, if_neg]
      · rfl
      · rintro ⟨himg, _⟩
        cases himg
  | relayImageTask a =>
    simp only [run] at hrun
    rcases hpre : preConsumeBilling cal a l₀ info₀ none with ⟨l₁, info₁, r⟩
    rw [hpre] at hrun
    rcases preConsumeBilling_cases hpriced hreq.fresh hstart hpre with ⟨err, rfl, _⟩ | ⟨billing,
      rfl, hcharging, hfree⟩
    · cases hrun
    rcases hacc : a.accepted with _ | q
    · rw [hacc] at hrun; cases hrun
    rw [hacc] at hrun
    cases hrun
    rcases hcharging with ⟨hl, hinfo⟩ | ⟨s, now, hopen, hinfo⟩
    · obtain ⟨u, f, rfl⟩ := hinfo
      subst hl
      rw [hpriced.free (hfree rfl)]
      exact submitted_uncharged u f hreq
    subst hinfo
    have hheld := hopen.held hreq.valid hperiod
    refine hheld.submitted hopen.billingSource ?_ ⟨rfl, rfl, rfl,
      rfl⟩ hheld.moved hheld.token hpriced.nonneg ?_
    · intro w hw
      have hfd := hopen.funded
      rw [hw] at hfd
      exact hfd.1.trans hopen.userId.symm
    rw [preConsumeBilling_amount hpre]
    have hnn := hpriced.nonneg
    cases hsrc : s.funding.source with
    | wallet => simp [submitCharge, submittedTask, hopen.billingSource, hsrc]
    | subscription =>
      simp only [submitCharge, submittedTask, hopen.billingSource, hsrc, isImage,
        true_and, and_true, subConsume]
      split <;> split <;> omega

end Run

/-! ## A whole life -/

/-- The ledger around a task's submission and around its end, and the statements of the end.
Other requests may run in between. -/
structure Life where
  submitBefore : Ledger
  submitAfter : Ledger
  endBefore : Ledger
  endAfter : Ledger
  task : Task
  updates : List TaskUpdate

/-- By how much the task has changed its funding source. -/
def Life.fundingTotal (c : Life) : Int :=
  fundingChange c.submitBefore c.submitAfter (taskFunding c.task) +
    fundingChange c.endBefore c.endAfter (taskFunding c.task)

/-- By how much the task has changed the remaining quota of a token. -/
def Life.tokenTotal (c : Life) (id : Int) : Int :=
  (c.submitAfter.tokenRemain id - c.submitBefore.tokenRemain id) +
    (c.endAfter.tokenRemain id - c.endBefore.tokenRemain id)

/-- The source has paid the quota finally stored, or nothing when it was given back; a limited
token has paid the same, any other token nothing. -/
structure Life.Conserves (c : Life) (info : RelayInfo) (refunded : Bool) : Prop where
  funding : c.fundingTotal = if refunded then 0 else -storedQuota c.task c.updates
  limited : info.limited = true → c.tokenTotal info.tokenId = c.fundingTotal
  unlimited : info.limited = false → c.tokenTotal info.tokenId = 0
  others : ∀ id, id ≠ info.tokenId → c.tokenTotal id = 0

section Life

variable {cal : Calendar} {te : TaskEnv} {info : RelayInfo} {l₀ l₁ l₂ l₃ : Ledger} {task : Task}
  {ending : Terminal} {updates : List TaskUpdate}

theorem Terminal.delta_ge (hq : 0 ≤ task.quota) : -task.quota ≤ ending.delta te task := by
  unfold delta
  cases ending with
  | complete adaptorQuota byTokens =>
    simp only
    split
    · omega
    split
    · omega
    cases byTokens with
    | none => simpa using hq
    | some q =>
      simp only [Option.map_some, Option.getD_some, raiseTo]
      split <;> omega
  | imageComplete | unbilled => simpa using hq
  | refund reason =>
    simp only
    split <;> omega

theorem Terminal.delta_of_refunds (h : ending.refunds te task = true) :
    ending.delta te task = -task.quota := by
  cases ending with
  | refund reason =>
    simp only [refunds] at h
    simp [delta, h]
  | complete _ _ | imageComplete | unbilled => cases h

theorem Adjusted.changes {delta : Int} (h : Adjusted te task delta l₂ l₃)
    (hused : taskIsSubscription task = true → 0 ≤ l₂.db.usedOf task.subscriptionId + delta)
    (hwrite : te.env.fault .tokenWrite = none)
    (hkey : 0 < task.tokenId → te.tokenKey task.tokenId ≠ "") :
    fundingChange l₂ l₃ (taskFunding task) = -delta ∧ ∀ id, l₃.tokenRemain id - l₂.tokenRemain id =
        if id = task.tokenId ∧ 0 < task.tokenId then -delta else 0 := by
  rcases h with ⟨rfl, rfl⟩ | ⟨_, l, hpaid, rfl⟩
  · constructor
    · unfold fundingChange
      split <;> simp
    · intro id
      split <;> simp
  rw [taskAdjustTokenQuota_ok hwrite hkey]
  have hchange : fundingChange l₂ l (taskFunding task) = -delta := by
    refine hpaid.change fun g hg => ?_
    unfold taskFunding at hg
    split at hg
    · rename_i hs
      cases hg
      exact hused hs
    · cases hg
  have htok : l.tokenRemain = l₂.tokenRemain := hpaid.tokenRemain
  constructor
  · rw [← hchange]
    split <;> rfl
  intro id
  simp only [htok, credit_apply]
  by_cases hid : id = task.tokenId <;> by_cases hpos : 0 < task.tokenId <;> simp [hid]

/-- **A task's charge over its whole life.** With every write succeeding and no reset in between:
the source has paid the quota finally stored, or nothing after a refund, a limited token the same
and any other token nothing, if and only if neither * the token is unlimited and the end of the task
adjusts the charge, nor * the task is an image task stored at quota 0 whose submission charged a
subscription. -/
theorem task_life_conserves_iff (sub : Submission) (row : Task) (failure : String)
    (hreq : FreshRequest l₀ info) (hpriced : sub.Priced)
    (hrun : sub.run cal te l₀ info row failure = (l₁, some task, .ok ()))
    (hperiod : ∀ id, l₁.db.period id = l₀.db.period id)
    (hcharge : taskIsSubscription task = true → task.quota ≤ l₂.db.usedOf task.subscriptionId)
    (hid : 0 < task.id) (hend : ending.bill te l₂ task = (l₃, updates, .ok ()))
    (hwrite : te.env.fault .tokenWrite = none)
    (hkey : 0 < task.tokenId → te.tokenKey task.tokenId ≠ "") :
    (Life.mk l₀ l₁ l₂ l₃ task updates).Conserves info (ending.refunds te task) ↔
      ¬ (info.limited = false ∧ 0 < info.tokenId ∧ ending.delta te task ≠ 0) ∧
      ¬ (sub.isImage = true ∧ task.quota = 0 ∧ task.billingSource = .subscription) := by
  have hs := Submission.run_submitted hreq hpriced hperiod hrun
  obtain ⟨hadj, hstored⟩ := ending.bill_adjusted hend
  have hge : -task.quota ≤ ending.delta te task := Terminal.delta_ge hs.nonneg
  obtain ⟨hend₁, hend₂⟩ := hadj.changes (fun h => by have := hcharge h; omega) hwrite hkey
  have hrefund : ending.refunds te task = true → ending.delta te task = -task.quota :=
    Terminal.delta_of_refunds
  generalize ending.delta te task = delta at *
  -- both halves of the life in numbers
  have hfunding : (Life.mk l₀ l₁ l₂ l₃ task updates).fundingTotal = -submitCharge sub task - delta := by
    simp only [Life.fundingTotal, hs.moved.fundingChange, hend₁]
    omega
  have htoken : ∀ id, (Life.mk l₀ l₁ l₂ l₃ task updates).tokenTotal id =
      (if id = info.tokenId ∧ info.limited = true then -submitCharge sub task else 0) +
        (if id = info.tokenId ∧ 0 < info.tokenId then -delta else 0) := by
    intro id
    have he := hend₂ id
    rw [hs.tokenId] at he
    simp only [Life.tokenTotal, he, hs.token, Ledger.chargeToken]
    by_cases hl : info.limited = true <;> by_cases hi : id = info.tokenId <;>
      simp [hl, hi, credit_apply]
  have hpos : info.limited = true → 0 < info.tokenId := by
    intro hl
    simp only [RelayInfo.limited, Bool.and_eq_true, Bool.not_eq_true'] at hl
    have := hreq.token
    rwa [hl.1, if_neg (by simp)] at this
  constructor
  · intro hc
    constructor
    · rintro ⟨hl, hp, hne⟩
      have h0 := hc.unlimited hl
      rw [htoken, if_neg (by simp [hl]), if_pos ⟨rfl, hp⟩] at h0
      omega
    intro himg
    have hf := hc.funding
    rw [hfunding, submitCharge, if_pos himg] at hf
    cases hr : ending.refunds te task with
    | true =>
      rw [hr, if_pos rfl] at hf
      omega
    | false =>
      have := hstored hid hr
      simp only at hf
      omega
  · rintro ⟨hA, hB⟩
    have hq : submitCharge sub task = task.quota := by rw [submitCharge, if_neg hB]
    refine ⟨?_, fun hl => ?_, fun hl => ?_, fun id hne => ?_⟩
    · cases hr : ending.refunds te task with
      | true =>
        have := hrefund hr
        rw [if_pos rfl]
        omega
      | false =>
        have := hstored hid hr
        rw [if_neg (by simp)]
        simp only
        omega
    · rw [htoken, hfunding, if_pos ⟨rfl, hl⟩, if_pos ⟨rfl, hpos hl⟩]
      omega
    · rw [htoken, if_neg (by simp [hl])]
      split
      · rename_i hp
        have : delta = 0 := by
          by_contra hne
          exact hA ⟨hl, hp.2, hne⟩
        omega
      · rfl
    · rw [htoken, if_neg (fun h => hne h.1), if_neg (fun h => hne h.1)]
      rfl

end Life

/-! ## Small lives -/

/-- Nothing fails and no charge is kept. -/
def quietTaskEnv : TaskEnv := ⟨quietEnv, fun _ _ _ _ => false, fun _ => "key"⟩

/-- One attempt, priced and accepted at `quota`. -/
def smallAttempt (quota : Int) : SubmitAttempt :=
  ⟨quota, false, ⟨quietEnv, quietEnv, none, 50⟩, some quota⟩

theorem smallAttempt_priced {quota : Int} (hq : 0 ≤ quota) : (smallAttempt quota).Priced where
  nonneg := hq
  free h := by cases h
  accepted_nonneg q h := by cases h; exact hq
  accepted_free q _ h := by cases h
  wallet := quietEnv_compensates
  subscription := quietEnv_compensates

/-- The life of a task that nothing else runs beside, on the small ledger. -/
def smallLife (sub : Submission) (info : RelayInfo) (ending : Terminal) : Option Life :=
  match sub.run utcCalendar quietTaskEnv smallLedger info (sampleTask 1 7 "a") "" with
  | (l, some task, .ok ()) =>
    match ending.bill quietTaskEnv l task with
    | (l', updates, .ok ()) => some ⟨smallLedger, l, l, l', task, updates⟩
    | _ => none
  | _ => none

theorem smallLife_run {sub : Submission} {info : RelayInfo} {ending : Terminal} {c : Life}
    (h : smallLife sub info ending = some c) :
    sub.run utcCalendar quietTaskEnv smallLedger info (sampleTask 1 7 "a") "" = (c.submitAfter, some c.task, .ok ()) ∧
      ending.bill quietTaskEnv c.submitAfter c.task = (c.endAfter, c.updates, .ok ()) ∧
      c = ⟨smallLedger, c.submitAfter, c.submitAfter, c.endAfter, c.task, c.updates⟩ := by
  unfold smallLife at h
  split at h
  · rename_i l task hrun
    split at h
    · rename_i l' updates hend
      cases h
      exact ⟨hrun, hend, rfl⟩
    · cases h
  · cases h

/-- A wallet pays 10 for a video task that then fails: wallet and token have everything back. -/
theorem task_life_conserves_refunded :
    ∃ c, smallLife (.relayTask [smallAttempt 10] quietEnv) (smallInfo "wallet_only") (.refund "timeout") =
        some c ∧ c.Conserves (smallInfo "wallet_only") true := by
  have hdb : (smallLife (.relayTask [smallAttempt 10] quietEnv) (smallInfo "wallet_only")
      (.refund "timeout")).map (fun c => (c.submitAfter.db, c.task)) =
        some (smallDB neverPlan, { sampleTask 1 7 "a" with quota := 10, tokenId := 5 }) := rfl
  obtain ⟨c, hc, hval⟩ := Option.map_eq_some_iff.mp hdb
  obtain ⟨hrun, hend, hmk⟩ := smallLife_run hc
  simp only [Prod.mk.injEq] at hval
  obtain ⟨hsame, htask⟩ := hval
  refine ⟨c, hc, ?_⟩
  rw [hmk]
  have hpriced : ∀ a ∈ [smallAttempt 10], a.Priced := by
    intro a ha
    cases List.mem_singleton.mp ha
    exact smallAttempt_priced (by decide)
  have hreq : FreshRequest smallLedger (smallInfo "wallet_only") :=
    ⟨smallDB_valid _, rfl, rfl, rfl, by decide⟩
  refine (task_life_conserves_iff (.relayTask [smallAttempt 10] quietEnv) (sampleTask 1 7 "a") "" hreq
    hpriced hrun ?_ ?_ ?_ hend rfl ?_).mpr ⟨?_, ?_⟩
  · intro id
    rw [hsame]
    rfl
  · rw [htask]
    intro h
    cases h
  · rw [htask]
    decide
  · intro _
    show "key" ≠ ""
    decide
  · rintro ⟨hl, _⟩
    revert hl
    decide
  · rintro ⟨himg, _⟩
    cases himg

/-- On an unlimited token the submission leaves the token alone and the refund gives it 10. For an
image task priced at nothing the subscription has paid 1. -/
theorem task_life_leaks : (∃ c, smallLife (.relayTask [smallAttempt 10] quietEnv)
        { smallInfo "wallet_only" with tokenUnlimited := true } (.refund "timeout") = some c ∧
      ¬ c.Conserves { smallInfo "wallet_only" with tokenUnlimited := true } true) ∧
    (∃ c, smallLife (.relayImageTask (smallAttempt 0)) (smallInfo "subscription_only") .imageComplete =
        some c ∧ c.task.quota = 0 ∧ ¬ c.Conserves (smallInfo "subscription_only") false) := by
  constructor
  · have hnum : (smallLife (.relayTask [smallAttempt 10] quietEnv)
        { smallInfo "wallet_only" with tokenUnlimited := true } (.refund "timeout")).map
          (fun c => c.tokenTotal 5) = some 10 := by decide
    obtain ⟨c, hc, h10⟩ := Option.map_eq_some_iff.mp hnum
    refine ⟨c, hc, fun h => ?_⟩
    have h0 : c.tokenTotal 5 = 0 := h.unlimited rfl
    omega
  · have hnum : (smallLife (.relayImageTask (smallAttempt 0)) (smallInfo "subscription_only")
        .imageComplete).map (fun c => (c.task.quota, c.fundingTotal, storedQuota c.task c.updates)) =
          some (0, -1, 0) := by decide
    obtain ⟨c, hc, hval⟩ := Option.map_eq_some_iff.mp hnum
    simp only [Prod.mk.injEq] at hval
    refine ⟨c, hc, hval.1, fun h => ?_⟩
    have hf := h.funding
    omega

end NewApi.Billing
