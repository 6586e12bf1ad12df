import NewApi.Service.BillingSessionSpec

/-!
# All or nothing: the session factory and `Reserve`

* `tryWallet_attempted`, `trySubscription_attempted`, `orElseInsufficient_attempted` — the two paths
  and the fallback between them.
* `billing_all_or_nothing` — `NewBillingSession` and `Reserve`.
-/

namespace NewApi.Billing

open NewApi.Subscription NewApi.Text

/-- The outcome of an attempt on ledger `l` for `info`: an error and nothing moved, or a session
opened at one of `clocks`. The request keeps its id, user and token either way. -/
structure Attempted (cal : Calendar) (clocks : List Int) (l : Ledger) (info : RelayInfo)
    (out : Ledger × RelayInfo × Except NewAPIError BillingSession) : Prop where
  same : ∃ userQuota, out.2.1 = { info with userQuota := userQuota }
  result : (out.1 = l ∧ ∃ err, out.2.2 = .error err) ∨
    ∃ s, ∃ now ∈ clocks, out.2.2 = .ok s ∧ Opened cal now info l out.1 s

section Factory

variable {cal : Calendar} {e : Env} {clocks : List Int} {l : Ledger} {info : RelayInfo} {quota : Int}

theorem Opened.of_userQuota {now userQuota : Int} {l' : Ledger} {s : BillingSession}
    (h : Opened cal now { info with userQuota := userQuota } l l' s) :
    Opened cal now info l l' s where
  settled := h.settled
  refunded := h.refunded
  fundingSettled := h.fundingSettled
  extraReserved := h.extraReserved
  nonneg := h.nonneg
  trusted := h.trusted
  tokenId := h.tokenId
  limited := h.limited
  tokenConsumed := h.tokenConsumed
  token := h.token
  funded := h.funded
  subscriptionId := h.subscriptionId
  billingSource := h.billingSource
  userId := h.userId

variable {out : Ledger × RelayInfo × Except NewAPIError BillingSession}

theorem Attempted.of_userQuota {userQuota : Int}
    (h : Attempted cal clocks l { info with userQuota := userQuota } out) :
    Attempted cal clocks l info out := by
  obtain ⟨q, hq⟩ := h.same
  refine ⟨⟨q, hq⟩, ?_⟩
  rcases h.result with herr | ⟨s, now, hn, hs, ho⟩
  · exact .inl herr
  · exact .inr ⟨s, now, hn, hs, ho.of_userQuota⟩

theorem Attempted.early (err : NewAPIError) : Attempted cal clocks l info (l, info, .error err) :=
  ⟨⟨info.userQuota, rfl⟩, .inl ⟨rfl, err, rfl⟩⟩

theorem attempted_preConsume (src : BillingSource) (he : e.Compensates) (hn : e.now ∈ clocks)
    (hq : 0 ≤ quota) (hfresh : l.db.records.get info.requestId = none) :
    Attempted cal clocks l info (((newSession info quota src).preConsume cal e l quota).1, info,
        ((newSession info quota src).preConsume cal e l quota).2) := by
  refine ⟨⟨info.userQuota, rfl⟩, ?_⟩
  rcases hp : (newSession info quota src).preConsume cal e l quota with ⟨l', r⟩
  rcases session_preConsume_cases he hq (fun _ => hfresh) hp with ⟨hl, herr⟩ | ⟨s, hr, _, ho⟩
  · exact .inl ⟨hl, herr⟩
  · exact .inr ⟨s, e.now, hn, hr, ho⟩

theorem tryWallet_attempted (he : e.Compensates) (hn : e.now ∈ clocks) (hq : 0 ≤ quota)
    (hfresh : l.db.records.get info.requestId = none) :
    Attempted cal clocks l info (tryWallet cal e l info quota) := by
  unfold tryWallet
  split
  · exact .early _
  rename_i userQuota _
  split
  · exact .early _
  split
  · exact .early _
  have h : Attempted cal clocks l { info with userQuota := userQuota } _ :=
    attempted_preConsume .wallet he hn hq hfresh
  exact h.of_userQuota

theorem subConsume_nonneg (quota : Int) : 0 ≤ subConsume quota := by
  unfold subConsume; split <;> omega

theorem trySubscription_attempted (he : e.Compensates) (hn : e.now ∈ clocks)
    (hfresh : l.db.records.get info.requestId = none) :
    Attempted cal clocks l info (trySubscription cal e l info quota) :=
  attempted_preConsume .subscription he hn (subConsume_nonneg quota) hfresh

theorem orElseInsufficient_attempted
    {next : Ledger → RelayInfo → Ledger × RelayInfo × Except NewAPIError BillingSession}
    (h : Attempted cal clocks l info out)
    (hnext : ∀ userQuota, Attempted cal clocks l { info with userQuota := userQuota }
      (next l { info with userQuota := userQuota })) :
    Attempted cal clocks l info (orElseInsufficient out next) := by
  obtain ⟨l₁, info₁, r⟩ := out
  obtain ⟨q, hq⟩ := h.same
  subst hq
  cases r with
  | ok s => exact h
  | error err =>
    unfold orElseInsufficient
    simp only
    rcases h.result with ⟨hl, _⟩ | ⟨s, now, _, hs, _⟩
    · subst hl
      split
      · exact (hnext q).of_userQuota
      · exact h
    · cases hs

theorem newSessionFor_attempted {e : FactoryEnv} (hw : e.wallet.Compensates)
    (hs : e.subscription.Compensates) (hq : 0 ≤ quota)
    (hfresh : l.db.records.get info.requestId = none) :
    Attempted cal [e.wallet.now, e.subscription.now] l info (newSessionFor cal e l info quota) := by
  have hwn : e.wallet.now ∈ [e.wallet.now, e.subscription.now] := by simp
  have hsn : e.subscription.now ∈ [e.wallet.now, e.subscription.now] := by simp
  unfold newSessionFor
  split
  · exact trySubscription_attempted hs hsn hfresh
  · exact tryWallet_attempted hw hwn hq hfresh
  · exact orElseInsufficient_attempted (tryWallet_attempted hw hwn hq hfresh)
      (fun _ => trySubscription_attempted hs hsn hfresh)
  split
  · exact .early _
  · exact tryWallet_attempted hw hwn hq hfresh
  · exact orElseInsufficient_attempted (trySubscription_attempted hs hsn hfresh)
      (fun _ => tryWallet_attempted hw hwn hq hfresh)

end Factory

/-- **All or nothing.** `NewBillingSession` fails and leaves the ledger as it was, or returns a
session whose funding source alone has paid the pre-consumed quota, a limited token charged the
same; `Reserve` changes nothing or moves source, token and counters by the same amount. -/
theorem billing_all_or_nothing (cal : Calendar) :
    (∀ (e : FactoryEnv) (l l' : Ledger) (relayInfo : Option RelayInfo) (quota : Int)
      (r : Except NewAPIError BillingSession),
      e.wallet.Compensates → e.subscription.Compensates → 0 ≤ quota →
      (∀ info, relayInfo = some info → l.db.records.get info.requestId = none) →
      newBillingSession cal e l relayInfo quota = (l', r) →
      (l' = l ∧ ∃ err, r = .error err) ∨
      ∃ s info, ∃ now ∈ [e.wallet.now, e.subscription.now], r = .ok s ∧ relayInfo = some info ∧
        Funded cal now info l l' s.preConsumedQuota s.funding ∧
        l'.tokenRemain = (l.chargeToken info s.preConsumedQuota).tokenRemain) ∧
    (∀ (e : Env) (l l' : Ledger) (s s' : BillingSession) (target : Int) (r : Except NewAPIError Unit),
      e.Compensates → l.db.Valid → s.reserve e l target = (l', s', r) →
      (l' = l ∧ s' = s ∧ ((∃ err, r = .error err) ∨ r = .ok () ∧
        (s.settled = true ∨ s.refunded = true ∨ s.trusted = true ∨ target ≤ s.preConsumedQuota))) ∨
      (r = .ok () ∧ s.preConsumedQuota < target ∧ ∃ l₁, Paid (target - s.preConsumedQuota) l l₁ s.funding ∧
          l' = l₁.chargeToken s.relayInfo (target - s.preConsumedQuota) ∧
          s'.funding = s.funding.bump (target - s.preConsumedQuota) ∧
          s'.preConsumedQuota = target ∧
          s'.tokenConsumed = s.tokenConsumed + (target - s.preConsumedQuota) ∧
          s'.extraReserved = s.extraReserved + (target - s.preConsumedQuota))) := by
  constructor
  · intro e l l' relayInfo quota r hw hs hq hfresh h
    rcases relayInfo with _ | info
    · cases h
      exact .inl ⟨rfl, _, rfl⟩
    have ha : Attempted cal [e.wallet.now, e.subscription.now] l info
        (newSessionFor cal e l info quota) := newSessionFor_attempted hw hs hq (hfresh info rfl)
    rcases hout : newSessionFor cal e l info quota with ⟨l₁, info₁, r₁⟩
    cases h
    rcases ha.result with herr | ⟨s, now, hn, hr, ho⟩
    · exact .inl herr
    · exact .inr ⟨s, info, now, hn, hr, rfl, ho.funded, ho.token⟩
  · intro e l l' s s' target r he hv h
    rcases reserve_cases he hv h with ⟨hl, hs, herr⟩ | ⟨hl, hs, hr, hskip⟩ | ⟨hr, _, _, _, hlt, l₁,
      hpaid, hl, hs⟩
    · exact .inl ⟨hl, hs, .inl herr⟩
    · exact .inl ⟨hl, hs, .inr ⟨hr, hskip⟩⟩
    right
    refine ⟨hr, hlt, l₁, hpaid, hl, ?_⟩
    rw [hs]
    simp only [syncRelayInfo_fields, BillingSession.raise]
    refine ⟨trivial, by omega, trivial, trivial⟩

/-! ## A small ledger -/

/-- A quiet outside: the wallet and the token read 1000, and nothing fails. -/
def quietEnv : Env where
  now := 50
  trustQuota := 0
  tokenQuota := 1000
  userRead := .ok 1000
  tokenRead := .ok 1000
  planInfo := none
  formatQuota := toString
  fault := fun _ => none
  preConsumeFault := fun _ => none
  deltaFault := fun _ => none
  deltaRollbackFault := fun _ => none
  refundFault := fun _ => RefundFaults.none

theorem quietEnv_compensates : quietEnv.Compensates := ⟨rfl, rfl, fun _ => rfl, fun _ => rfl⟩

/-- User 1 and token 5 with 1000 each, and a subscription of 100. -/
def smallLedger : Ledger := ⟨fun _ => 1000, fun _ => 1000, smallDB neverPlan⟩

/-- A request of user 1 with the limited token 5. -/
def smallInfo (preference : String) : RelayInfo where
  requestId := "req-1"
  userId := 1
  tokenId := 5
  tokenKey := "key"
  tokenUnlimited := false
  isPlayground := false
  forcePreConsume := true
  originModelName := "model"
  billingPreference := preference
  userQuota := 0
  finalPreConsumedQuota := 0
  billingSource := none
  subscriptionId := 0
  subscriptionPreConsumed := 0
  subscriptionPostDelta := 0
  subscriptionAmountTotal := 0
  subscriptionAmountUsedAfterPreConsume := 0
  subscriptionPlanId := 0
  subscriptionPlanTitle := ""

/-- The subscription lacks 150, so the default preference falls back to the wallet: wallet and token
have paid. -/
theorem billing_falls_back_to_wallet :
    let out := newBillingSession utcCalendar ⟨quietEnv, quietEnv, none, 50⟩ smallLedger (some (smallInfo "")) 150
    (out.1.userQuota 1 = 850 ∧ out.1.tokenRemain 5 = 850 ∧ out.1.db.usedOf 7 = 0) ∧
    ((out.1 = smallLedger ∧ ∃ err, out.2 = .error err) ∨
      ∃ s info, ∃ now ∈ [(50 : Int), 50], out.2 = .ok s ∧ some (smallInfo "") = some info ∧
        Funded utcCalendar now info smallLedger out.1 s.preConsumedQuota s.funding ∧
        out.1.tokenRemain = (smallLedger.chargeToken info s.preConsumedQuota).tokenRemain) ∧
    (∃ l' s' r, (newSession (smallInfo "") 10 .wallet).reserve quietEnv smallLedger 20 = (l', s', r) ∧
      s'.preConsumedQuota = 20) :=
  ⟨by decide, (billing_all_or_nothing utcCalendar).1 ⟨quietEnv, quietEnv, none, 50⟩ smallLedger _
    (some (smallInfo "")) 150 _ quietEnv_compensates quietEnv_compensates (by decide)
    (fun info h => by cases h; rfl) rfl, _, _, _, rfl, by
    rcases (billing_all_or_nothing utcCalendar).2 quietEnv smallLedger _
      (newSession (smallInfo "") 10 .wallet) _ 20 _ quietEnv_compensates (smallDB_valid _) rfl with
      ⟨_, _, ⟨err, h⟩ | ⟨_, h⟩⟩ | ⟨_, _, _, _, _, _, h, _⟩
    · cases h
    · revert h; decide
    · exact h⟩

end NewApi.Billing
