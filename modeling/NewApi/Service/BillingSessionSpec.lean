import NewApi.Service.BillingSession

/-!
# What each session call can do

* `write_cases`, `subscriptionDelta_cases`, `preConsumeTokenQuota_cases` — the writers.
* `Granted` — a funding source that has pre-consumed.
-/

namespace NewApi.Billing

open NewApi.Subscription NewApi.Text Table BillingSession

/-! ## Writers -/

section Writers

variable {l l' m : Ledger} {r : Except String Unit}

theorem write_cases {q : Int} {fault : Option String}
    (h : guardNegative q l (update fault l m) = (l', r)) :
    Failed l l' r ∨ (l' = m ∧ r = .ok ()) := by
  unfold guardNegative update at h
  split at h
  · cases h; exact .inl ⟨rfl, _, rfl⟩
  split at h
  · cases h; exact .inl ⟨rfl, _, rfl⟩
  · cases h; exact .inr ⟨rfl, rfl⟩

theorem write_ok {q : Int} (hq : 0 ≤ q) : guardNegative q l (update none l m) = (m, .ok ()) := by
  unfold guardNegative update
  rw [if_neg (by omega)]

theorem subscriptionDelta_cases {fault : Faults DeltaStmt} {id delta : Int}
    (h : subscriptionDelta fault l id delta = (l', r)) :
    Failed l l' r ∨ (l' = l ∧ delta = 0 ∧ r = .ok ()) ∨
    (0 < id ∧ r = .ok () ∧ ∃ sub, l.db.subs.get id = some sub ∧
      (0 < sub.amountTotal → clampedUsed sub.amountUsed delta ≤ sub.amountTotal) ∧
      l' = { l with db := { l.db with
        subs := l.db.subs.save { sub with amountUsed := clampedUsed sub.amountUsed delta } } }) := by
  unfold subscriptionDelta at h
  rcases hd : postConsumeUserSubscriptionDelta fault l.db id delta with ⟨db', r'⟩
  rw [hd] at h
  cases h
  rcases delta_cases hd with ⟨rfl, he⟩ | ⟨rfl, h0, hr⟩ | ⟨hid, hr, sub, hsub, hfit, rfl⟩
  · exact .inl ⟨rfl, he⟩
  · exact .inr (.inl ⟨rfl, h0, hr⟩)
  · exact .inr (.inr ⟨hid, hr, sub, hsub, hfit, rfl⟩)

end Writers

/-! ## Tokens -/

/-- A limited, non-playground token is charged; any other token is not. -/
def Ledger.chargeToken (l : Ledger) (info : RelayInfo) (amount : Int) : Ledger :=
  if info.limited then { l with tokenRemain := credit l.tokenRemain info.tokenId (-amount) } else l

variable {r : Except String Unit}

section Token

variable {l l' : Ledger} {info : RelayInfo} {e : Env}

open Ledger

@[simp] theorem chargeToken_userQuota (amount : Int) :
    (l.chargeToken info amount).userQuota = l.userQuota := by
  unfold chargeToken; split <;> rfl

@[simp] theorem chargeToken_db (amount : Int) : (l.chargeToken info amount).db = l.db := by
  unfold chargeToken; split <;> rfl

@[simp] theorem chargeToken_zero : l.chargeToken info 0 = l := by
  unfold chargeToken; split <;> simp

theorem chargeToken_chargeToken (x y : Int) :
    (l.chargeToken info x).chargeToken info y = l.chargeToken info (x + y) := by
  unfold chargeToken
  split
  · simp only [credit_credit]
    rw [show -x + -y = -(x + y) by omega]
  · rfl

theorem chargeToken_trans {x y : Int} (h : l'.tokenRemain = (l.chargeToken info x).tokenRemain) :
    (l'.chargeToken info y).tokenRemain = (l.chargeToken info (x + y)).tokenRemain := by
  rw [← chargeToken_chargeToken]
  unfold chargeToken at h ⊢
  split at h <;> simp_all

theorem chargeToken_back (x : Int) : (l.chargeToken info x).chargeToken info (-x) = l := by
  rw [chargeToken_chargeToken]; simp

theorem chargeToken_congr {info' : RelayInfo} (hid : info'.tokenId = info.tokenId)
    (hlim : info'.limited = info.limited) (amount : Int) :
    l.chargeToken info' amount = l.chargeToken info amount := by
  unfold chargeToken; rw [hid, hlim]

variable {q delta : Int}

attribute [local simp] chargeToken

theorem preConsumeTokenQuota_cases (h : preConsumeTokenQuota e l info q = (l', r)) :
    Failed l l' r ∨ (l' = l.chargeToken info q ∧ r = .ok ()) := by
  unfold preConsumeTokenQuota at h
  split at h
  · cases h; exact .inl ⟨rfl, _, rfl⟩
  split at h
  · rename_i hp
    cases h
    exact .inr ⟨by simp [RelayInfo.limited, hp], rfl⟩
  rename_i hp
  split at h
  · rename_i hu
    cases h
    exact .inr ⟨by simp [RelayInfo.limited, hu], rfl⟩
  rename_i hu
  split at h
  · cases h; exact .inl ⟨rfl, _, rfl⟩
  split at h
  · cases h; exact .inl ⟨rfl, _, rfl⟩
  rcases write_cases h with ⟨hl, he⟩ | ⟨hl, hr⟩
  · exact .inl ⟨hl, he⟩
  right
  refine ⟨?_, hr⟩
  rw [hl]
  simp [RelayInfo.limited, hp, hu]

theorem increaseTokenQuota_back (hq : 0 ≤ q) (hl : info.limited = true) :
    (increaseTokenQuota none l info.tokenId q).1 = l.chargeToken info (-q) := by
  unfold increaseTokenQuota
  rw [write_ok hq]
  simp [hl]

theorem settleToken_cases (h : settleToken e l info delta = (l', r)) :
    (l' = l.chargeToken info delta ∧ r = .ok ()) ∨
    (l' = l ∧ info.limited = true ∧ ∃ err, r = .error err) := by
  unfold settleToken at h
  split at h
  · rename_i hl
    split at h
    · rcases write_cases h with ⟨hl', he⟩ | ⟨hl', hr⟩
      · exact .inr ⟨hl', hl, he⟩
      · exact .inl ⟨by rw [hl']; simp [hl], hr⟩
    rcases write_cases h with ⟨hl', he⟩ | ⟨hl', hr⟩
    · exact .inr ⟨hl', hl, he⟩
    · exact .inl ⟨by rw [hl']; simp [hl], hr⟩
  · rename_i hl
    cases h
    exact .inl ⟨by simp [hl], rfl⟩

theorem settleToken_ok (hf : e.fault .tokenWrite = none) :
    settleToken e l info delta = (l.chargeToken info delta, .ok ()) := by
  unfold settleToken
  rw [hf]
  split
  · rename_i hl
    split
    · unfold decreaseTokenQuota
      rw [write_ok (by omega)]
      simp [hl]
    unfold increaseTokenQuota
    rw [write_ok (by omega)]
    simp [hl]
  · rename_i hl
    simp [hl]

end Token

/-! ## Pre-consume -/

/-- The session the factory builds on a source. -/
def newSession (info : RelayInfo) (quota : Int) : BillingSource → BillingSession
  | .wallet => .fresh info (.wallet ⟨info.userId, 0⟩)
  | .subscription =>
    .fresh info (.subscription ⟨info.requestId, info.userId, info.originModelName, quota, 0, 0, 0, 0, 0, ""⟩)

/-- What a funding source holds after pre-consuming `amount` on the way from `l` to `l'`. -/
def Funded (cal : Calendar) (now : Int) (info : RelayInfo) (l l' : Ledger) (amount : Int) :
    FundingSource → Prop
  | .wallet w => w.userId = info.userId ∧ w.consumed = amount ∧
      l'.userQuota = credit l.userQuota info.userId (-amount) ∧ l'.db = l.db
  | .subscription s => s.requestId = info.requestId ∧ isBlank info.requestId = false ∧
      s.preConsumed = amount ∧ 0 < amount ∧ l'.userQuota = l.userQuota ∧ ∃ chosen, chosen.id = s.subscriptionId ∧
        Charged cal now l.db l'.db info.requestId info.userId amount chosen

/-- **A session right after a successful `preConsume`** that took the ledger from `l` to `l'`. -/
structure Opened (cal : Calendar) (now : Int) (info : RelayInfo) (l l' : Ledger) (s : BillingSession) :
    Prop where
  settled : s.settled = false
  refunded : s.refunded = false
  fundingSettled : s.fundingSettled = false
  extraReserved : s.extraReserved = 0
  nonneg : 0 ≤ s.preConsumedQuota
  trusted : s.trusted = true → s.preConsumedQuota = 0
  tokenId : s.relayInfo.tokenId = info.tokenId
  limited : s.relayInfo.limited = info.limited
  tokenConsumed : info.limited = true → s.tokenConsumed = s.preConsumedQuota
  token : l'.tokenRemain = (l.chargeToken info s.preConsumedQuota).tokenRemain
  funded : Funded cal now info l l' s.preConsumedQuota s.funding
  subscriptionId : ∀ f, s.funding = .subscription f → s.relayInfo.subscriptionId = f.subscriptionId
  billingSource : s.relayInfo.billingSource = some s.funding.source
  userId : s.relayInfo.userId = info.userId

section PreConsume

variable {cal : Calendar} {e : Env} {l l' : Ledger} {info : RelayInfo} {amount eff : Int}

theorem walletPreConsume_cases {r : Except String WalletFunding} (ha : 0 ≤ amount)
    (h : WalletFunding.preConsume e l ⟨info.userId, 0⟩ amount = (l', r)) :
    Failed l l' r ∨
    (r = .ok ⟨info.userId, amount⟩ ∧
      l' = { l with userQuota := credit l.userQuota info.userId (-amount) }) := by
  unfold WalletFunding.preConsume at h
  split at h
  · have h0 : amount = 0 := by omega
    subst h0
    cases h
    exact .inr ⟨rfl, by simp⟩
  split at h
  · rename_i l₁ err hw
    cases h
    rcases write_cases hw with ⟨hl, _⟩ | ⟨_, hr⟩
    · exact .inl ⟨hl, _, rfl⟩
    · cases hr
  rename_i l₁ hw
  cases h
  rcases write_cases hw with ⟨_, err, hr⟩ | ⟨hl, _⟩
  · cases hr
  · exact .inr ⟨rfl, hl⟩

variable {f : SubscriptionFunding}

theorem subscriptionPreConsume_cases {r : Except String SubscriptionFunding}
    (hfresh : l.db.records.get f.requestId = none) (h : f.preConsume cal e l = (l', r)) :
    Failed l l' r ∨
    (0 < f.amount ∧ isBlank f.requestId = false ∧ ∃ f' chosen db', r = .ok f' ∧ l' = { l with db := db' } ∧
      f'.requestId = f.requestId ∧ f'.preConsumed = f.amount ∧ f'.subscriptionId = chosen.id ∧
      Charged cal e.now l.db db' f.requestId f.userId f.amount chosen) := by
  unfold SubscriptionFunding.preConsume at h
  rcases hp : preConsumeUserSubscription cal e.preConsumeFault l.db f.requestId f.userId f.amount e.now with ⟨db', r'⟩
  rw [hp] at h
  rcases preConsume_cases hp with ⟨rfl, err, rfl⟩ | ⟨_, old, _, hold, _⟩ | ⟨_, ha, hb, chosen, hch,
    rfl⟩
  · cases h
    exact .inl ⟨rfl, _, rfl⟩
  · rw [hfresh] at hold
    cases hold
  right
  cases h
  refine ⟨ha, hb, _, chosen, db', rfl, rfl, ?_, ?_, ?_, hch⟩
  · split <;> rfl
  · split <;> rfl
  · split <;> rfl

variable {src : BillingSource}

theorem fundingPreConsume_cases {r : Except String FundingSource}
    (ha : 0 ≤ amount) (hfresh : src = .subscription → l.db.records.get info.requestId = none)
    (h : (newSession info amount src).funding.preConsume cal e l amount = (l', r)) :
    Failed l l' r ∨
    (l'.tokenRemain = l.tokenRemain ∧ ∃ f, r = .ok f ∧ f.source = src ∧ Funded cal e.now info l l' amount f) := by
  cases src with
  | wallet =>
    simp only [newSession, fresh, FundingSource.preConsume] at h
    rcases hw : WalletFunding.preConsume e l ⟨info.userId, 0⟩ amount with ⟨l₁, r₁⟩
    rw [hw] at h
    rcases walletPreConsume_cases ha hw with ⟨rfl, err, rfl⟩ | ⟨rfl, rfl⟩
    · cases h
      exact .inl ⟨rfl, _, rfl⟩
    · cases h
      exact .inr ⟨rfl, _, rfl, rfl, rfl, rfl, rfl, rfl⟩
  | subscription =>
    simp only [newSession, fresh, FundingSource.preConsume] at h
    rcases hs : SubscriptionFunding.preConsume cal e l ⟨info.requestId, info.userId,
      info.originModelName, amount, 0, 0, 0, 0, 0, ""⟩ with ⟨l₁, r₁⟩
    rw [hs] at h
    rcases subscriptionPreConsume_cases (hfresh rfl) hs with ⟨rfl, err, rfl⟩ |
      ⟨hpos, hb, f', chosen, db', rfl, rfl, hreq, hpre, hid, hch⟩
    · cases h
      exact .inl ⟨rfl, _, rfl⟩
    · cases h
      exact .inr ⟨rfl, _, rfl, rfl, hreq, hb, hpre, hpos, rfl, chosen, hid.symm, hch⟩

@[simp] theorem syncRelayInfo_fields (s : BillingSession) :
    s.syncRelayInfo.funding = s.funding ∧ s.syncRelayInfo.preConsumedQuota = s.preConsumedQuota ∧
    s.syncRelayInfo.tokenConsumed = s.tokenConsumed ∧
      s.syncRelayInfo.extraReserved = s.extraReserved ∧
    s.syncRelayInfo.trusted = s.trusted ∧ s.syncRelayInfo.fundingSettled = s.fundingSettled ∧
    s.syncRelayInfo.settled = s.settled ∧ s.syncRelayInfo.refunded = s.refunded ∧
    s.syncRelayInfo.relayInfo.tokenId = s.relayInfo.tokenId ∧
    s.syncRelayInfo.relayInfo.limited = s.relayInfo.limited ∧
    s.syncRelayInfo.relayInfo.billingSource = some s.funding.source ∧
    s.syncRelayInfo.relayInfo.userId = s.relayInfo.userId := by
  unfold syncRelayInfo RelayInfo.limited
  cases s.funding <;> simp

variable {s : BillingSession}

theorem syncRelayInfo_subscriptionId (h : s.funding = .subscription f) :
    s.syncRelayInfo.relayInfo.subscriptionId = f.subscriptionId := by
  unfold syncRelayInfo
  rw [h]

theorem shouldTrust_subscription (h : s.funding.source = .subscription) :
    s.shouldTrust e = false := by
  unfold shouldTrust
  rw [h]
  split_ifs <;> rfl

/-- The trust bypass changes the amount for a wallet only, and a wallet's session does not depend
on the amount. -/
theorem newSession_trust (info : RelayInfo) (quota : Int) (src : BillingSource) :
    (newSession info quota src).funding =
      (newSession info (if (newSession info quota src).shouldTrust e then 0 else quota) src).funding := by
  cases src with
  | wallet => rfl
  | subscription => rw [shouldTrust_subscription rfl]; rfl

@[simp] theorem newSession_fields (info : RelayInfo) (quota : Int) (src : BillingSource) :
    (newSession info quota src).relayInfo = info ∧
      (newSession info quota src).preConsumedQuota = 0 ∧
    (newSession info quota src).tokenConsumed = 0 ∧ (newSession info quota src).extraReserved = 0 ∧
    (newSession info quota src).trusted = false ∧
      (newSession info quota src).fundingSettled = false ∧
    (newSession info quota src).settled = false ∧ (newSession info quota src).refunded = false := by
  cases src <;> simp [newSession, fresh]

theorem chargeToken_cases (h0 : 0 ≤ eff)
    (h : (if decide (0 < eff) && !info.tokenUnlimited then preConsumeTokenQuota e l info eff
      else (l, .ok ())) = (l', r)) :
    Failed l l' r ∨ (l' = l.chargeToken info eff ∧ r = .ok ()) := by
  split at h
  · exact preConsumeTokenQuota_cases h
  rename_i hc
  cases h
  right
  refine ⟨?_, rfl⟩
  by_cases heff : 0 < eff
  · have hu : info.tokenUnlimited = true := by simpa [heff] using hc
    simp [Ledger.chargeToken, RelayInfo.limited, hu]
  have : eff = 0 := by omega
  subst this
  simp

theorem rollbackToken_restores (h0 : 0 ≤ eff) :
    (if 0 < (if decide (0 < eff) && !info.tokenUnlimited then eff else 0) ∧ info.isPlayground = false then
      (increaseTokenQuota none (l.chargeToken info eff) info.tokenId
        (if decide (0 < eff) && !info.tokenUnlimited then eff else 0)).1
    else l.chargeToken info eff) = l := by
  by_cases hl : info.limited = true
  · have hp : info.isPlayground = false := by simp [RelayInfo.limited] at hl; exact hl.1
    have hu : info.tokenUnlimited = false := by simp [RelayInfo.limited] at hl; exact hl.2
    simp only [hp, hu, Bool.not_false, Bool.and_true, decide_eq_true_eq, and_true]
    by_cases heff : 0 < eff
    · simp only [heff, if_true]
      rw [increaseTokenQuota_back h0 hl, chargeToken_back]
    have : eff = 0 := by omega
    subst this
    simp
  · have hsame : l.chargeToken info eff = l := by simp [Ledger.chargeToken, hl]
    rw [hsame]
    -- an unlimited token was not charged, and a playground token is not given anything back
    rw [if_neg]
    rintro ⟨hpos, hp⟩
    apply hl
    cases hu : info.tokenUnlimited with
    | true => simp [hu] at hpos
    | false => simp [RelayInfo.limited, hp, hu]

theorem Funded.of_chargeToken {now x : Int} {f : FundingSource}
    (h : Funded cal now info (l.chargeToken info x) l' amount f) :
    Funded cal now info l l' amount f := by
  cases f <;> simpa [Funded] using h

/-- **Everything `preConsume` can do** to a fresh session: fail and leave the ledger as it was, or
open the session. -/
theorem session_preConsume_cases {quota : Int}
    {r : Except NewAPIError BillingSession} (he : e.Compensates) (hq : 0 ≤ quota)
    (hfresh : src = .subscription → l.db.records.get info.requestId = none)
    (h : (newSession info quota src).preConsume cal e l quota = (l', r)) :
    Failed l l' r ∨ ∃ s, r = .ok s ∧ s.funding.source = src ∧ Opened cal e.now info l l' s := by
  obtain ⟨hinfo, _, htc, _, htrust, _⟩ := newSession_fields info quota src
  have hfund := newSession_trust (e := e) info quota src
  unfold preConsume at h
  simp only [hinfo, htc, htrust, Bool.false_or] at h
  generalize hst : (newSession info quota src).shouldTrust e = trust at h hfund
  generalize heff : (if trust then 0 else quota) = eff at h hfund
  have heff0 : 0 ≤ eff := by rw [← heff]; split <;> omega
  have htrust0 : trust = true → eff = 0 := by intro ht; rw [← heff, ht]; rfl
  rw [hfund] at h
  split at h
  · rename_i l₁ err htok
    cases h
    rcases chargeToken_cases heff0 htok with ⟨hl, _⟩ | ⟨_, hr⟩
    · exact .inl ⟨hl, _, rfl⟩
    · cases hr
  rename_i l₁ htok
  rcases chargeToken_cases heff0 htok with ⟨_, err, hr⟩ | ⟨hl₁, _⟩
  · cases hr
  have hfresh₁ : src = .subscription → l₁.db.records.get info.requestId = none := by rw [hl₁]; simpa using hfresh
  split at h
  · -- the funding source failed: the token gets its amount back
    rename_i l₂ err hp
    rcases fundingPreConsume_cases heff0 hfresh₁ hp with ⟨hl₂, _⟩ | ⟨_, f, hr, _, _⟩
    · left
      cases h
      refine ⟨?_, _, rfl⟩
      rw [hl₂, hl₁, he.token]
      exact rollbackToken_restores heff0
    · cases hr
  · rename_i l₂ f hp
    cases h
    rcases fundingPreConsume_cases heff0 hfresh₁ hp with ⟨_, err, hr⟩ | ⟨htoken, f', hr, hsource,
      hfd⟩
    · cases hr
    cases hr
    right
    refine ⟨_, rfl, by simpa using hsource, ?_⟩
    rw [hl₁] at htoken hfd
    constructor
    case subscriptionId =>
      intro g hg
      exact syncRelayInfo_subscriptionId (by simpa using hg)
    case trusted => simpa using htrust0
    case tokenConsumed =>
      intro hlim
      simp only [RelayInfo.limited, Bool.and_eq_true, Bool.not_eq_true'] at hlim
      by_cases hpos : 0 < eff
      · simp [hlim.2, hpos]
      · have : eff = 0 := by omega
        simp [this]
    case funded => simpa using hfd.of_chargeToken
    case token => simpa using htoken
    all_goals simp [heff0]

end PreConsume

/-! ## Moving the funding source -/

/-- The funding source pays `amount` on the way from `l` to `l'`; a subscription's used amount is
clamped at zero. -/
def Paid (amount : Int) (l l' : Ledger) : FundingSource → Prop
  | .wallet w => l' = { l with userQuota := credit l.userQuota w.userId (-amount) }
  | .subscription f => 0 < f.subscriptionId ∧ ∃ sub, l.db.subs.get f.subscriptionId = some sub ∧
      (0 < sub.amountTotal → clampedUsed sub.amountUsed amount ≤ sub.amountTotal) ∧
      l' = { l with db := { l.db with
        subs := l.db.subs.save { sub with amountUsed := clampedUsed sub.amountUsed amount } } }

/-- The source with its own counter raised; only a wallet has one. -/
def FundingSource.bump (amount : Int) : FundingSource → FundingSource
  | .wallet w => .wallet { w with consumed := w.consumed + amount }
  | .subscription f => .subscription f

section Funding

variable {e : Env} {l l' : Ledger} {f f' : FundingSource}

theorem Paid.tokenRemain {amount : Int} (h : Paid amount l l' f) :
    l'.tokenRemain = l.tokenRemain := by
  cases f with
  | wallet w => rw [h]
  | subscription g => obtain ⟨_, _, _, _, hl⟩ := h; rw [hl]

variable {delta : Int}

theorem reserveFunding_cases {r : Except NewAPIError FundingSource} (hd : 0 < delta)
    (h : reserveFunding e l delta f = (l', r)) :
    Failed l l' r ∨ (r = .ok (f.bump delta) ∧ Paid delta l l' f) := by
  cases f with
  | wallet w =>
    simp only [reserveFunding] at h
    rcases hw : decreaseUserQuota (e.fault .userWrite) l w.userId delta with ⟨l₁, r₁⟩
    rw [hw] at h
    rcases write_cases hw with ⟨rfl, err, rfl⟩ | ⟨hl, rfl⟩
    · cases h; exact .inl ⟨rfl, _, rfl⟩
    · cases h; exact .inr ⟨rfl, hl⟩
  | subscription g =>
    simp only [reserveFunding] at h
    rcases hs : subscriptionDelta e.deltaFault l g.subscriptionId delta with ⟨l₁, r₁⟩
    rw [hs] at h
    rcases subscriptionDelta_cases hs with ⟨rfl, err, rfl⟩ | ⟨_, h0, _⟩ | ⟨hid, rfl, hpaid⟩
    · cases h; exact .inl ⟨rfl, _, rfl⟩
    · omega
    · cases h; exact .inr ⟨rfl, hid, hpaid⟩

theorem fundingSettle_cases (hd : delta ≠ 0) (h : f.settle e l delta = (l', r)) :
    Failed l l' r ∨ (r = .ok () ∧ Paid delta l l' f) := by
  cases f with
  | wallet w =>
    simp only [FundingSource.settle, WalletFunding.settle, if_neg hd] at h
    split at h
    · rcases write_cases h with ⟨hl, he⟩ | ⟨hl, hr⟩
      · exact .inl ⟨hl, he⟩
      · exact .inr ⟨hr, hl⟩
    rcases write_cases h with ⟨hl, he⟩ | ⟨hl, hr⟩
    · exact .inl ⟨hl, he⟩
    · exact .inr ⟨hr, by rw [hl]; rfl⟩
  | subscription g =>
    simp only [FundingSource.settle, SubscriptionFunding.settle, if_neg hd] at h
    rcases subscriptionDelta_cases h with ⟨hl, he⟩ | ⟨_, h0, _⟩ | ⟨hid, hr, hpaid⟩
    · exact .inl ⟨hl, he⟩
    · exact absurd h0 hd
    · exact .inr ⟨hr, hid, hpaid⟩

/-- **Everything a settlement can do**: nothing; close the session; or charge the difference to the
source, if not done yet, and then to the token, and close the session whatever becomes of the
latter. -/
theorem settle_cases {s s' : BillingSession} {actual : Int}
    (h : s.settle e l actual = (l', s', r)) :
    (l' = l ∧ s' = s ∧ (s.settled = false → ∃ err, r = .error err)) ∨
    (l' = l ∧ s' = { s with settled := true } ∧ s.settled = false ∧ actual = s.preConsumedQuota) ∨
    ∃ l₁ post, (s.fundingSettled = true ∧ l₁ = l ∨ Paid (actual - s.preConsumedQuota) l l₁ s.funding) ∧
      settleToken e l₁ s.relayInfo (actual - s.preConsumedQuota) = (l', r) ∧
      s' = { s with
        relayInfo := { s.relayInfo with subscriptionPostDelta := post }, fundingSettled := true, settled := true } := by
  unfold settle at h
  split at h
  · rename_i hsettled
    cases h
    exact .inl ⟨rfl, rfl, fun hopen => absurd hsettled (by simp [hopen])⟩
  rename_i hsettled
  dsimp only at h
  split at h
  · cases h
    exact .inr (.inl ⟨rfl, rfl, by simpa using hsettled, by omega⟩)
  rename_i hdelta
  have hfinish : ∀ (l₁ : Ledger) (b : BillingSession), b.finishSettle e l₁ (actual - s.preConsumedQuota) = (l', s', r) →
      b = { s with fundingSettled := true } → settleToken e l₁ s.relayInfo (actual - s.preConsumedQuota) = (l', r) ∧
        ∃ post, s' = { s with
          relayInfo := { s.relayInfo with subscriptionPostDelta := post }, fundingSettled := true, settled := true } := by
    rintro l₁ _ hfinish rfl
    simp only [finishSettle, Prod.mk.injEq] at hfinish
    obtain ⟨hl', rfl, hr⟩ := hfinish
    refine ⟨Prod.ext hl' hr, ?_⟩
    cases s.funding.source <;> exact ⟨_, rfl⟩
  split at h
  · rename_i hfunding
    obtain ⟨htoken, post, hs'⟩ := hfinish l s h (by rw [← hfunding])
    exact .inr (.inr ⟨l, post, .inl ⟨hfunding, rfl⟩, htoken, hs'⟩)
  split at h
  · rename_i hs
    cases h
    rcases fundingSettle_cases hdelta hs with ⟨rfl, _⟩ | ⟨hr, _⟩
    · exact .inl ⟨rfl, rfl, fun _ => ⟨_, rfl⟩⟩
    · cases hr
  rename_i l₁ hs
  obtain ⟨htoken, post, hs'⟩ := hfinish l₁ _ h rfl
  rcases fundingSettle_cases hdelta hs with ⟨_, _, hr⟩ | ⟨_, hpaid⟩
  · cases hr
  · exact .inr (.inr ⟨l₁, post, .inr hpaid, htoken, hs'⟩)

theorem rollbackFundingReserve_restores (he : e.Compensates) (hv : l.db.Valid)
    (hd : 0 < delta) (hp : Paid delta l l' f) :
    rollbackFundingReserve e l' delta (f.bump delta) = (l, f) := by
  rcases f with w | g
  · simp only [rollbackFundingReserve, FundingSource.bump, he.user, increaseUserQuota]
    rw [write_ok (by omega), hp]
    simp
  obtain ⟨hid, sub, hsub, _, hl⟩ := hp
  have hsv := hv.sub hsub
  have hnn := hsv.nonneg
  have hk : sub.id = g.subscriptionId := key_of_get hsub
  have hup : clampedUsed sub.amountUsed delta = sub.amountUsed + delta := clampedUsed_eq (by omega)
  have hdown : clampedUsed (sub.amountUsed + delta) (-delta) = sub.amountUsed := by
    rw [clampedUsed_eq (by omega)]; omega
  rw [hup] at hl
  have hget : l'.db.subs.get g.subscriptionId = some { sub with amountUsed := sub.amountUsed + delta } := by
    rw [hl]; exact get_save_of_key hsub hk
  have happ := delta_applies he.delta hid (show -delta ≠ 0 by omega) hget (by simp only [hdown]; exact hsv.le_total)
  have hback : (l.db.subs.save { sub with amountUsed := sub.amountUsed + delta }).save sub = l.db.subs := by
    have hid : ({ sub with amountUsed := sub.amountUsed + delta } : UserSubscription).id = sub.id :=
      rfl
    rw [save_save _ hid, save_get (by rw [hk]; exact hsub)]
  simp only [rollbackFundingReserve, FundingSource.bump, subscriptionDelta, happ, hdown]
  rw [hl]
  show (({ l with db := { l.db with subs := (l.db.subs.save _).save sub } } : Ledger),
    FundingSource.subscription g) = (l, .subscription g)
  rw [hback]

end Funding

/-! ## Reserve -/

/-- All counters of a session raised by one amount. -/
def BillingSession.raise (s : BillingSession) (delta : Int) : BillingSession :=
  { s with
    funding := s.funding.bump delta
    preConsumedQuota := s.preConsumedQuota + delta
    tokenConsumed := s.tokenConsumed + delta
    extraReserved := s.extraReserved + delta }

section Reserve

variable {e : Env} {l l' : Ledger} {s s' : BillingSession} {r : Except NewAPIError Unit}

theorem reserveToken_cases {info : RelayInfo} {delta : Int} (hd : 0 < delta)
    (h : reserveToken e l info delta = (l', r)) :
    Failed l l' r ∨ (l' = l.chargeToken info delta ∧ r = .ok ()) := by
  unfold reserveToken at h
  split at h
  · rename_i hc
    cases h
    right
    refine ⟨?_, rfl⟩
    have hl : info.limited = false := by
      have hnot : ¬ delta ≤ 0 := by omega
      simpa [RelayInfo.limited, hnot, or_iff_not_imp_left] using hc
    simp [Ledger.chargeToken, hl]
  · split at h
    · rename_i l₁ err hp
      cases h
      rcases preConsumeTokenQuota_cases hp with ⟨hl, _⟩ | ⟨_, hr⟩
      · exact .inl ⟨hl, _, rfl⟩
      · cases hr
    rename_i l₁ hp
    cases h
    rcases preConsumeTokenQuota_cases hp with ⟨_, err, hr⟩ | ⟨hl, _⟩
    · cases hr
    · exact .inr ⟨hl, rfl⟩

/-- **Everything a reserve can do**: fail with nothing changed, do nothing, or move source, token
and every counter by the missing amount. -/
theorem reserve_cases {target : Int} (he : e.Compensates) (hv : l.db.Valid)
    (h : s.reserve e l target = (l', s', r)) :
    (l' = l ∧ s' = s ∧ ∃ err, r = .error err) ∨
    (l' = l ∧ s' = s ∧ r = .ok () ∧
      (s.settled = true ∨ s.refunded = true ∨ s.trusted = true ∨ target ≤ s.preConsumedQuota)) ∨
    (r = .ok () ∧ s.settled = false ∧ s.refunded = false ∧ s.trusted = false ∧
      s.preConsumedQuota < target ∧ ∃ l₁, Paid (target - s.preConsumedQuota) l l₁ s.funding ∧
        l' = l₁.chargeToken s.relayInfo (target - s.preConsumedQuota) ∧
        s' = (s.raise (target - s.preConsumedQuota)).syncRelayInfo) := by
  unfold reserve at h
  split at h
  · rename_i hc
    cases h
    refine .inr (.inl ⟨rfl, rfl, rfl, ?_⟩)
    simpa [or_assoc] using hc
  rename_i hc
  simp only [Bool.or_eq_true, decide_eq_true_eq, not_or, Bool.not_eq_true, not_le] at hc
  obtain ⟨⟨⟨hset, href⟩, htr⟩, hlt⟩ := hc
  have hd : 0 < target - s.preConsumedQuota := by omega
  simp only at h
  split at h
  · rename_i l₁ err hf
    cases h
    rcases reserveFunding_cases hd hf with ⟨hl, _⟩ | ⟨hr, _⟩
    · exact .inl ⟨hl, rfl, _, rfl⟩
    · cases hr
  rename_i l₁ f hf
  rcases reserveFunding_cases hd hf with ⟨_, err, hr⟩ | ⟨hr, hpaid⟩
  · cases hr
  cases hr
  split at h
  · -- the token refused: what the source has paid goes back
    rename_i l₂ err ht
    rcases reserveToken_cases hd ht with ⟨hl₂, _⟩ | ⟨_, hr⟩
    · rw [hl₂, rollbackFundingReserve_restores he hv hd hpaid] at h
      cases h
      exact .inl ⟨rfl, rfl, _, rfl⟩
    · cases hr
  · rename_i l₂ ht
    rcases reserveToken_cases hd ht with ⟨_, err, hr⟩ | ⟨hl₂, _⟩
    · cases hr
    cases h
    exact .inr (.inr ⟨rfl, hset, href, htr, hlt, l₁, hpaid, hl₂, rfl⟩)

end Reserve

end NewApi.Billing
