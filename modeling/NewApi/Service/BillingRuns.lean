import NewApi.Service.BillingFactory
import NewApi.Service.SubscriptionRefund

/-!
# The life of a session

Any sequence of `Reserve`, `Settle` and `Refund` calls on a session whose `preConsume` succeeded.

* `Call`, `Run`, `Run.step` — one call; the run also notes the actual quota of the first settlement
  and whether the token writes of settlements succeeded.
* `Run.held` — what the session holds of its funding source: nothing after a refund, the actual
  quota after a settlement, the pre-consumed quota before.
* `Held` — the invariant of an open session; `held_reserve`, `held_settle`, `held_refund`.
-/

namespace NewApi.Billing

open NewApi.Subscription NewApi.Text Table BillingSession

inductive Call where
  | reserve (e : Env) (target : Int)
  | settle (e : Env) (actual : Int)
  | refund (e : Env)

structure Run where
  ledger : Ledger
  session : BillingSession
  /-- The actual quota of the first settlement that returned with the session settled. -/
  settledWith : Option Int
  /-- No settlement has met a failing token write. -/
  tokenWrites : Bool

def Run.start (l : Ledger) (s : BillingSession) : Run := ⟨l, s, none, true⟩

def Run.step (r : Run) : Call → Run
  | .reserve e target =>
    let (l, s, _) := r.session.reserve e r.ledger target
    { r with ledger := l, session := s }
  | .settle e actual =>
    let (l, s, _) := r.session.settle e r.ledger actual
    { ledger := l, session := s
      settledWith := r.settledWith.or (if s.settled then some actual else none)
      tokenWrites := r.tokenWrites && (e.fault .tokenWrite).isNone }
  | .refund e =>
    let (l, s) := r.session.refund e r.ledger
    { r with ledger := l, session := s }

/-- Compensating writes succeed, actual quotas are not negative, and nothing is settled after a
refund that took effect. -/
def Run.allowed (r : Run) : Call → Prop
  | .reserve e _ => e.Compensates
  | .settle _ actual => 0 ≤ actual ∧ r.session.refunded = false
  | .refund e => e.Compensates

/-- What the session holds of its funding source. -/
def Run.held (r : Run) : Int :=
  match r.settledWith with
  | some actual => actual
  | none => if r.session.refunded then 0 else r.session.preConsumedQuota

/-- By how much the balance of a funding source has changed. -/
def fundingChange (l₀ l : Ledger) : FundingSource → Int
  | .wallet w => l.userQuota w.userId - l₀.userQuota w.userId
  | .subscription f => l₀.db.usedOf f.subscriptionId - l.db.usedOf f.subscriptionId

/-! ## The invariant of an open session -/

/-- The funding source has paid `amount` since `l₀`; no other user or subscription has. -/
def Moved (amount : Int) (l₀ l : Ledger) : FundingSource → Prop
  | .wallet w => l.userQuota = credit l₀.userQuota w.userId (-amount) ∧ l.db = l₀.db
  | .subscription f => l.userQuota = l₀.userQuota ∧
      ∀ id, l.db.usedOf id = credit l₀.db.usedOf f.subscriptionId amount id

/-- The counters of the funding source agree with the session. -/
def Backed (l : Ledger) (s : BillingSession) : FundingSource → Prop
  | .wallet w => w.consumed = s.preConsumedQuota
  | .subscription f => f.preConsumed + s.extraReserved = s.preConsumedQuota ∧
      s.relayInfo.subscriptionId = f.subscriptionId ∧
      ∃ record sub, Open l.db f.requestId record sub ∧
        record.userSubscriptionId = f.subscriptionId ∧ record.preConsumed = f.preConsumed

/-- An open session that has moved the ledger from `l₀` to `l`. -/
structure Held (info : RelayInfo) (l₀ l : Ledger) (s : BillingSession) : Prop where
  start : l₀.db.Valid
  settled : s.settled = false
  refunded : s.refunded = false
  fundingSettled : s.fundingSettled = false
  nonneg : 0 ≤ s.preConsumedQuota
  extra : 0 ≤ s.extraReserved
  tokenId : s.relayInfo.tokenId = info.tokenId
  limited : s.relayInfo.limited = info.limited
  tokenConsumed : info.limited = true → s.tokenConsumed = s.preConsumedQuota
  token : l.tokenRemain = (l₀.chargeToken info s.preConsumedQuota).tokenRemain
  moved : Moved s.preConsumedQuota l₀ l s.funding
  backed : Backed l s s.funding

section Moved

variable {l₀ l l' : Ledger} {f : FundingSource}

theorem Moved.bump {c d : Int} : Moved c l₀ l (f.bump d) ↔ Moved c l₀ l f := by
  cases f <;> rfl

theorem Moved.chargeToken {c x : Int} {info : RelayInfo} :
    Moved c l₀ (l.chargeToken info x) f ↔ Moved c l₀ l f := by
  cases f <;> simp [Moved]

theorem Moved.fundingChange {c : Int} (h : Moved c l₀ l f) : fundingChange l₀ l f = -c := by
  cases f with
  | wallet w =>
    simp only [Billing.fundingChange, h.1, credit_apply, if_true]
    omega
  | subscription g =>
    simp only [Billing.fundingChange, h.2, credit_apply, if_true]
    omega

theorem Paid.moved {c d : Int} (hv : l₀.db.Valid) (hm : Moved c l₀ l f) (hp : Paid d l l' f)
    (h0 : 0 ≤ c + d) : Moved (c + d) l₀ l' f := by
  rcases f with w | g
  · refine ⟨?_, by rw [hp]; exact hm.2⟩
    rw [hp]
    simp only [hm.1, credit_credit]
    rw [show -c + -d = -(c + d) by omega]
  obtain ⟨_, sub, hsub, _, hl⟩ := hp
  have hused : l.db.usedOf g.subscriptionId = sub.amountUsed := usedOf_of_get hsub
  have hnn := usedOf_nonneg hv g.subscriptionId
  have hmg := hm.2 g.subscriptionId
  rw [credit_apply, if_pos rfl] at hmg
  have hcl : clampedUsed sub.amountUsed d = sub.amountUsed + d := clampedUsed_eq (by omega)
  refine ⟨by rw [hl]; exact hm.1, fun id => ?_⟩
  have hset : l'.db.usedOf id = if g.subscriptionId = id then sub.amountUsed + d else l.db.usedOf id :=
    usedOf_setUsed hsub (by rw [hl, hcl]) id
  have hmi := hm.2 id
  rw [credit_apply] at hmi ⊢
  rw [hset]
  by_cases hid : id = g.subscriptionId
  · subst hid
    omega
  rw [if_neg hid] at hmi ⊢
  rw [if_neg (fun e => hid e.symm)]
  exact hmi

end Moved

/-! ## Steps of an open session -/

section Held

variable {cal : Calendar} {e : Env} {info : RelayInfo} {l₀ l l' : Ledger} {s s' : BillingSession}

theorem Held.valid (h : Held info l₀ l s) : l.db.Valid := by
  have hm := h.moved
  have hb := h.backed
  cases hf : s.funding with
  | wallet w => rw [hf] at hm; rw [hm.2]; exact h.start
  | subscription f =>
    rw [hf] at hb
    obtain ⟨_, _, record, sub, ho, _⟩ := hb
    exact ho.valid

variable {f : SubscriptionFunding} {sub : UserSubscription}

theorem Paid.record {d : Int} {record : SubscriptionPreConsumeRecord}
    (hp : Paid d l l' (.subscription f)) (ho : Open l.db f.requestId record sub)
    (hid : record.userSubscriptionId = f.subscriptionId) :
    ∃ sub', Open l'.db f.requestId record sub' := by
  obtain ⟨_, sub₁, hsub, hfit, hl⟩ := hp
  have hv := ho.valid.sub hsub
  have hk : sub₁.id = f.subscriptionId := key_of_get hsub
  rw [hl]
  refine ⟨{ sub₁ with amountUsed := clampedUsed sub₁.amountUsed d },
    ho.valid.save ⟨hv.pos, clampedUsed_nonneg _ _, hfit⟩, ho.nonblank, ho.stored, ho.consumed, ?_⟩
  rw [hid]
  exact get_save_of_key hsub hk

theorem Opened.held {now : Int} (h : Opened cal now info l₀ l s) (hv : l₀.db.Valid)
    (hp : ∀ id, l.db.period id = l₀.db.period id) : Held info l₀ l s := by
  have hfd := h.funded
  have hextra := h.extraReserved
  refine ⟨hv, h.settled, h.refunded, h.fundingSettled, h.nonneg, by omega, h.tokenId, h.limited,
    h.tokenConsumed, h.token, ?_, ?_⟩
  · cases hf : s.funding with
    | wallet w =>
      rw [hf] at hfd
      obtain ⟨hid, _, hq, hdb⟩ := hfd
      exact ⟨by rw [hq, hid], hdb⟩
    | subscription f =>
      rw [hf] at hfd
      obtain ⟨_, _, _, _, hq, chosen, hid, hch⟩ := hfd
      refine ⟨hq, fun id => ?_⟩
      rw [hch.usedOf (hp id), credit_apply, hid]
      simp only [eq_comm]
  · rcases hf : s.funding with w | f
    · rw [hf] at hfd
      exact hfd.2.1
    have hsid := h.subscriptionId f hf
    rw [hf] at hfd
    obtain ⟨hreq, hblank, hpre, hpos, _, chosen, hid, hch⟩ := hfd
    have hopen : Open l.db f.requestId ⟨info.requestId, info.userId, chosen.id, s.preConsumedQuota,
      .consumed⟩ _ :=
      ⟨hch.valid hpos hv, by rw [hreq]; exact hblank, by rw [hreq]; exact get_insert_self hch.records,
        rfl, hch.row⟩
    exact ⟨by omega, hsid, _, _, hopen, hid, hpre.symm⟩

attribute [local simp] raise

theorem subscriptionRefund_moved {c : Int} {record : SubscriptionPreConsumeRecord}
    (he : e.Compensates) (hv : l₀.db.Valid) (hm : Moved c l₀ l (.subscription f))
    (ho : Open l.db f.requestId record sub) (hid : record.userSubscriptionId = f.subscriptionId)
    (hpre : record.preConsumed = f.preConsumed) (hc : f.preConsumed ≤ c) :
    Moved (c - f.preConsumed) l₀ (f.refund e l).1 (.subscription f) ∧
    (f.refund e l).1.tokenRemain = l.tokenRemain ∧
    (f.refund e l).1.db.Valid ∧
      ∃ sub', (f.refund e l).1.db.subs.get f.subscriptionId = some sub' := by
  have hpos := ho.pos
  have hrefund : (f.refund e l).1 = { l with db := closed l.db record sub } := by
    unfold SubscriptionFunding.refund SubscriptionFunding.refundDB refundWithRetry
    rw [if_neg (by omega)]
    unfold retryFrom
    simp only [he.refund]
    rcases attempt_open ho RefundFaults.none with ⟨_, _, hr⟩ | ⟨_, hc, _⟩ | ⟨hl, _⟩
    · rw [hr]
    · cases hc
    · cases hl
  have hpaid : Paid (-f.preConsumed) l { l with db := lowered l.db record sub } (.subscription f) := by
    have hsv := ho.valid.sub ho.charged
    have hl := ho.lowered.valid.sub ho.lowered.charged
    have hk : sub.id = f.subscriptionId := (key_of_get ho.charged).trans hid
    refine ⟨by rw [← hk]; exact hsv.pos, sub, by rw [← hid]; exact ho.charged, ?_,
      by rw [← hpre]; rfl⟩
    rw [← hpre]
    exact hl.le_total
  have hmoved := hpaid.moved hv hm (by omega)
  rw [hrefund]
  refine ⟨?_, rfl, ?_, ?_⟩
  · exact hmoved
  · exact ho.lowered.valid.markRefunded hpos
  · exact ⟨_, by rw [← hid]; exact ho.lowered.charged⟩

theorem extraRefund_moved {x : Int} (he : e.Compensates) (hv : l₀.db.Valid)
    (hx : 0 < x) (hm : Moved x l₀ l (.subscription f)) (hlv : l.db.Valid)
    (hsub : ∃ sub, l.db.subs.get f.subscriptionId = some sub) :
    Moved 0 l₀ (subscriptionDelta e.deltaRollbackFault l f.subscriptionId (-x)).1 (.subscription f) ∧
    (subscriptionDelta e.deltaRollbackFault l f.subscriptionId (-x)).1.tokenRemain = l.tokenRemain := by
  obtain ⟨sub, hsub⟩ := hsub
  have hsv := hlv.sub hsub
  have hk : sub.id = f.subscriptionId := key_of_get hsub
  have hid : 0 < f.subscriptionId := by rw [← hk]; exact hsv.pos
  have hfit : 0 < sub.amountTotal → clampedUsed sub.amountUsed (-x) ≤ sub.amountTotal := by
    intro ht
    have := hsv.le_total ht
    unfold clampedUsed
    split <;> omega
  have hpaid : Paid (-x) l (subscriptionDelta e.deltaRollbackFault l f.subscriptionId (-x)).1 (.subscription f) := by
    refine ⟨hid, sub, hsub, hfit, ?_⟩
    unfold subscriptionDelta
    rw [delta_applies he.delta hid (by omega) hsub hfit]
  refine ⟨?_, hpaid.tokenRemain⟩
  have hmoved := hpaid.moved hv hm (by omega)
  rwa [show x + -x = 0 by omega] at hmoved

section

variable (h : Held info l₀ l s)

include h

theorem held_reserve {target : Int} {r : Except NewAPIError Unit}
    (he : e.Compensates) (hr : s.reserve e l target = (l', s', r)) : Held info l₀ l' s' := by
  rcases reserve_cases he h.valid hr with ⟨rfl, rfl, _⟩ | ⟨rfl, rfl, _⟩ | ⟨_, _, _, _, hlt, l₁,
    hpaid, rfl, rfl⟩
  · exact h
  · exact h
  have hnn := h.nonneg
  have hx := h.extra
  have hsum : s.preConsumedQuota + (target - s.preConsumedQuota) = target := by omega
  have hpre : (s.raise (target - s.preConsumedQuota)).syncRelayInfo.preConsumedQuota = target := by simp
  have hmoved : Moved target l₀ l₁ s.funding := by
    have := hpaid.moved h.start h.moved (by omega)
    rwa [hsum] at this
  have htok : (l₁.chargeToken s.relayInfo (target - s.preConsumedQuota)).tokenRemain =
      (l₀.chargeToken info target).tokenRemain := by
    have htrans := chargeToken_trans (y := target - s.preConsumedQuota) (hpaid.tokenRemain.trans h.token)
    rw [hsum] at htrans
    rw [chargeToken_congr h.tokenId h.limited]
    exact htrans
  constructor
  case start => exact h.start
  case nonneg => omega
  case extra => simp; omega
  case tokenConsumed =>
    intro hl
    have := h.tokenConsumed hl
    simp
    omega
  case token => rw [hpre]; exact htok
  case moved =>
    rw [hpre, Moved.chargeToken]
    simp only [syncRelayInfo_fields, raise]
    exact Moved.bump.mpr hmoved
  case backed =>
    have hb := h.backed
    have hfunding : (s.raise (target - s.preConsumedQuota)).syncRelayInfo.funding =
        s.funding.bump (target - s.preConsumedQuota) := by simp
    rw [hfunding]
    cases hf : s.funding with
    | wallet w =>
      rw [hf] at hb
      simp only [FundingSource.bump, Backed, hpre]
      simp only [Backed] at hb
      omega
    | subscription f =>
      rw [hf] at hb hpaid
      obtain ⟨hamount, _, record, sub, ho, hid, hrec⟩ := hb
      obtain ⟨sub', ho'⟩ := hpaid.record ho hid
      refine ⟨?_, syncRelayInfo_subscriptionId (by simp [hf, FundingSource.bump]),
        record, sub', by simpa using ho', hid, hrec⟩
      simp only [syncRelayInfo_fields, raise]
      omega
  all_goals simp [h.settled, h.refunded, h.fundingSettled, h.tokenId, h.limited]

theorem held_settle {actual : Int} {r : Except String Unit} (ha : 0 ≤ actual)
    (hr : s.settle e l actual = (l', s', r)) :
    (l' = l ∧ s' = s ∧ ∃ err, r = .error err) ∨
    (s'.settled = true ∧ Moved actual l₀ l' s'.funding ∧ ∃ c, l'.tokenRemain = (l₀.chargeToken info c).tokenRemain ∧
        (e.fault .tokenWrite = none → c = actual) ∧ (r = .ok () → c = actual)) := by
  rcases settle_cases hr with ⟨rfl, rfl, herr⟩ | ⟨rfl, rfl, -, rfl⟩ | ⟨l₁, post, hpaid, ht, rfl⟩
  · exact .inl ⟨rfl, rfl, herr h.settled⟩
  · exact .inr ⟨rfl, h.moved, s.preConsumedQuota, h.token, fun _ => rfl, fun _ => rfl⟩
  replace hpaid := hpaid.resolve_left fun hdone => by rw [h.fundingSettled] at hdone; cases hdone.1
  have hsum : s.preConsumedQuota + (actual - s.preConsumedQuota) = actual := by omega
  have hmoved : Moved actual l₀ l₁ s.funding := by
    have hm := hpaid.moved h.start h.moved (by omega)
    rwa [hsum] at hm
  have htok₁ : l₁.tokenRemain = (l₀.chargeToken info s.preConsumedQuota).tokenRemain :=
    hpaid.tokenRemain.trans h.token
  right
  rcases settleToken_cases ht with ⟨rfl, _⟩ | ⟨rfl, _, err, rfl⟩
  · -- the token follows
    refine ⟨rfl, by rwa [Moved.chargeToken], actual, ?_, fun _ => rfl, fun _ => rfl⟩
    have htrans := chargeToken_trans (y := actual - s.preConsumedQuota) htok₁
    rw [hsum] at htrans
    rw [chargeToken_congr h.tokenId h.limited]
    exact htrans
  · -- the token write failed: the session is settled all the same
    refine ⟨rfl, hmoved, s.preConsumedQuota, htok₁, fun hnone => ?_, fun hok => by cases hok⟩
    simp [settleToken_ok hnone] at ht

theorem fundingRefund_moved (he : e.Compensates) :
    let l₁ := if 0 < s.extraReserved ∧ s.funding.source = .subscription ∧
      0 < s.relayInfo.subscriptionId then
      (subscriptionDelta e.deltaRollbackFault (s.funding.refund e l).1 s.relayInfo.subscriptionId
        (-s.extraReserved)).1 else (s.funding.refund e l).1
    Moved 0 l₀ l₁ s.funding ∧ l₁.tokenRemain = l.tokenRemain := by
  dsimp only
  have hm := h.moved
  have hb := h.backed
  have hx := h.extra
  have hnn := h.nonneg
  cases hf : s.funding with
  | wallet w =>
    rw [hf] at hm hb
    simp only [Backed] at hb
    rw [if_neg (by rintro ⟨_, hsrc, _⟩; cases hsrc)]
    simp only [FundingSource.refund, WalletFunding.refund]
    split
    · have h0 : s.preConsumedQuota = 0 := by omega
      rw [h0] at hm
      exact ⟨hm, rfl⟩
    rw [he.user, increaseUserQuota, write_ok (by omega)]
    refine ⟨⟨?_, hm.2⟩, rfl⟩
    simp only [hm.1, credit_credit, hb]
    rw [show -s.preConsumedQuota + s.preConsumedQuota = -0 by omega]
  | subscription f =>
    rw [hf] at hm hb
    obtain ⟨hamount, hsid, record, sub, ho, hid, hpre⟩ := hb
    obtain ⟨hm₁, htok₁, hv₁, hsub₁⟩ := subscriptionRefund_moved he h.start hm ho hid hpre (by omega)
    rw [show s.preConsumedQuota - f.preConsumed = s.extraReserved by omega] at hm₁
    have hfid : 0 < f.subscriptionId := by
      have hk : sub.id = f.subscriptionId := (key_of_get ho.charged).trans hid
      rw [← hk]
      exact (ho.valid.sub ho.charged).pos
    simp only [FundingSource.refund, FundingSource.source, hsid, hfid, and_true]
    split
    · rename_i hpx
      obtain ⟨hm₂, htok₂⟩ := extraRefund_moved he h.start hpx hm₁ hv₁ hsub₁
      exact ⟨hm₂, htok₂.trans htok₁⟩
    rw [show s.extraReserved = 0 by omega] at hm₁
    exact ⟨hm₁, htok₁⟩

theorem held_refund (he : e.Compensates) (hr : s.refund e l = (l', s')) : (l' = l ∧ s' = s) ∨
    (s'.refunded = true ∧ s'.settled = false ∧ Moved 0 l₀ l' s'.funding ∧
      l'.tokenRemain = l₀.tokenRemain) := by
  obtain ⟨hmoved, htok⟩ := fundingRefund_moved h he
  have hnn := h.nonneg
  unfold refund at hr
  split at hr
  · cases hr
    exact .inl ⟨rfl, rfl⟩
  simp only at hr
  generalize (if 0 < s.extraReserved ∧ s.funding.source = .subscription ∧
      0 < s.relayInfo.subscriptionId then
    (subscriptionDelta e.deltaRollbackFault (s.funding.refund e l).1 s.relayInfo.subscriptionId
      (-s.extraReserved)).1 else (s.funding.refund e l).1) = l₁ at hr hmoved htok
  right
  have htok₁ : l₁.tokenRemain = (l₀.chargeToken info s.preConsumedQuota).tokenRemain :=
    htok.trans h.token
  split at hr
  · rename_i hc
    cases hr
    have hl : info.limited = true := by rw [← h.limited]; exact hc.2
    have htc := h.tokenConsumed hl
    have hback : (increaseTokenQuota (e.fault .tokenRollback) l₁ s.relayInfo.tokenId s.tokenConsumed).1 =
        l₁.chargeToken info (-s.preConsumedQuota) := by
      rw [he.token, h.tokenId, htc]
      exact increaseTokenQuota_back hnn hl
    rw [hback]
    refine ⟨rfl, h.settled, Moved.chargeToken.mpr hmoved, ?_⟩
    have htrans := chargeToken_trans (y := -s.preConsumedQuota) htok₁
    rw [show s.preConsumedQuota + -s.preConsumedQuota = 0 by omega, chargeToken_zero] at htrans
    exact htrans
  · -- an unlimited or playground token was never charged, and a limited one not by a positive amount
    rename_i hc
    cases hr
    refine ⟨rfl, h.settled, hmoved, ?_⟩
    rw [htok₁]
    by_cases hl : info.limited = true
    · have htc := h.tokenConsumed hl
      have h0 : s.preConsumedQuota = 0 := by
        rw [h.limited, htc] at hc
        by_contra hne
        exact hc ⟨by omega, hl⟩
      rw [h0, chargeToken_zero]
    · simp [Ledger.chargeToken, hl]

end

end Held

/-! ## Whole runs -/

/-- The three phases of a session, with what has moved since `l₀`. -/
inductive Phase (info : RelayInfo) (l₀ : Ledger) (r : Run) : Prop where
  | held (none : r.settledWith = none) (h : Held info l₀ r.ledger r.session)
  | settled (actual : Int) (some : r.settledWith = some actual) (settled : r.session.settled = true)
      (moved : Moved actual l₀ r.ledger r.session.funding)
      (token : ∃ c, r.ledger.tokenRemain = (l₀.chargeToken info c).tokenRemain ∧ (r.tokenWrites = true → c = actual))
  | refunded (none : r.settledWith = none) (refunded : r.session.refunded = true)
      (open_ : r.session.settled = false) (moved : Moved 0 l₀ r.ledger r.session.funding)
      (token : r.ledger.tokenRemain = l₀.tokenRemain)

section Runs

variable {info : RelayInfo} {l₀ l : Ledger} {r : Run} {s : BillingSession} {e : Env}

theorem closed_reserve {target : Int}
    (h : s.settled = true ∨ s.refunded = true) : s.reserve e l target = (l, s, .ok ()) := by
  unfold reserve
  rcases h with h | h <;> simp [h]

theorem closed_refund (h : s.settled = true ∨ s.refunded = true) : s.refund e l = (l, s) := by
  unfold refund
  rcases h with h | h <;> simp [h]

theorem settled_settle {actual : Int} (h : s.settled = true) :
    s.settle e l actual = (l, s, .ok ()) := by
  unfold settle
  rw [if_pos h]

open Run

attribute [local simp] Run.step

theorem Phase.step (h : Phase info l₀ r) (call : Call) (hc : r.allowed call) :
    Phase info l₀ (r.step call) := by
  cases h with
  | held hnone hheld =>
    cases call with
    | reserve e target =>
      rcases hr : r.session.reserve e r.ledger target with ⟨l', s', res⟩
      have hstep : r.step (.reserve e target) = { r with ledger := l', session := s' } := by simp only [Run.step, hr]
      rw [hstep]
      exact .held hnone (held_reserve hheld hc hr)
    | settle e actual =>
      rcases hr : r.session.settle e r.ledger actual with ⟨l', s', res⟩
      rcases held_settle hheld hc.1 hr with ⟨rfl, rfl, _⟩ | ⟨hs, hm, c, htok, hw, _⟩
      · refine .held ?_ ?_
        · simp [hr, hnone, hheld.settled]
        · simpa [hr] using hheld
      refine .settled actual ?_ ?_ ?_ ⟨c, ?_, ?_⟩
      · simp [hr, hnone, hs]
      · simpa [hr] using hs
      · simpa [hr] using hm
      · simpa [hr] using htok
      intro hwrites
      simp only [Run.step, hr, Bool.and_eq_true, Option.isNone_iff_eq_none] at hwrites
      exact hw hwrites.2
    | refund e =>
      rcases hr : r.session.refund e r.ledger with ⟨l', s'⟩
      have hstep : r.step (.refund e) = { r with ledger := l', session := s' } := by simp only [Run.step, hr]
      rw [hstep]
      rcases held_refund hheld hc hr with ⟨rfl, rfl⟩ | ⟨hrf, hs, hm, htok⟩
      · exact .held hnone hheld
      · exact .refunded hnone hrf hs hm htok
  | settled actual hsome hs hm htok =>
    cases call with
    | reserve e target =>
      have hstep : r.step (.reserve e target) = r := by simp only [Run.step, closed_reserve (.inl hs)]
      rw [hstep]
      exact .settled actual hsome hs hm htok
    | refund e =>
      have hstep : r.step (.refund e) = r := by simp only [Run.step, closed_refund (.inl hs)]
      rw [hstep]
      exact .settled actual hsome hs hm htok
    | settle e a =>
      obtain ⟨c, htok, hw⟩ := htok
      refine .settled actual ?_ ?_ ?_ ⟨c, ?_, ?_⟩
      · simp [hsome]
      · simpa [settled_settle hs] using hs
      · simpa [settled_settle hs] using hm
      · simpa [settled_settle hs] using htok
      intro hwrites
      simp only [Run.step, Bool.and_eq_true] at hwrites
      exact hw hwrites.1
  | refunded hnone hrf hs hm htok =>
    cases call with
    | reserve e target =>
      have hstep : r.step (.reserve e target) = r := by simp only [Run.step, closed_reserve (.inr hrf)]
      rw [hstep]
      exact .refunded hnone hrf hs hm htok
    | refund e =>
      have hstep : r.step (.refund e) = r := by simp only [Run.step, closed_refund (.inr hrf)]
      rw [hstep]
      exact .refunded hnone hrf hs hm htok
    | settle e a =>
      have hnot := hc.2
      rw [hrf] at hnot
      cases hnot

/-- **A session conserves quota.** After a successful `preConsume` within a period and any allowed
calls the funding source has changed by what the session holds; a limited token by the same, while
its writes succeed, any other by nothing; and a settled or refunded session moves nothing any
more. -/
theorem session_conserves (cal : Calendar) (e : Env) (info : RelayInfo) (src : BillingSource)
    (quota : Int) (l₀ l₁ : Ledger) (s : BillingSession) (calls : List Call) (he : e.Compensates)
    (hv : l₀.db.Valid) (hq : 0 ≤ quota) (hfresh : l₀.db.records.get info.requestId = none)
    (hpre : (newSession info quota src).preConsume cal e l₀ quota = (l₁, .ok s))
    (hperiod : ∀ id, l₁.db.period id = l₀.db.period id)
    (hcalls : Guarded Run.step Run.allowed (Run.start l₁ s) calls) :
    let r := calls.foldl step (start l₁ s)
    fundingChange l₀ r.ledger r.session.funding = -r.held ∧
    (info.limited = true → r.tokenWrites = true →
      r.ledger.tokenRemain info.tokenId - l₀.tokenRemain info.tokenId = -r.held) ∧
    (∀ id, info.limited = false ∨ id ≠ info.tokenId → r.ledger.tokenRemain id = l₀.tokenRemain id) ∧
    (r.session.settled = true ∨ r.session.refunded = true →
      ∀ (e : Env) (target : Int), (r.session.reserve e r.ledger target).1 = r.ledger ∧
        (r.session.refund e r.ledger).1 = r.ledger) := by
  have hstart : Phase info l₀ (start l₁ s) := by
    rcases session_preConsume_cases he hq (fun _ => hfresh) hpre with ⟨_, err, hr⟩ | ⟨s', hr, _, ho⟩
    · cases hr
    · cases hr
      exact .held rfl (ho.held hv hperiod)
  have hphase : Phase info l₀ (calls.foldl step (start l₁ s)) :=
    hcalls.invariant (fun _ call hc h => Phase.step h call hc) hstart
  intro r
  -- in every phase the source and the tokens have moved by the same amount
  have hmoved : Moved r.held l₀ r.ledger r.session.funding ∧
      ∃ c, r.ledger.tokenRemain = (l₀.chargeToken info c).tokenRemain ∧
        (r.tokenWrites = true → c = r.held) := by
    cases hphase with
    | held hnone hheld =>
      have hh : r.held = r.session.preConsumedQuota := by
        have hrf : r.session.refunded = false := hheld.refunded
        simp [held, show r.settledWith = none from hnone, hrf]
      rw [hh]
      exact ⟨hheld.moved, _, hheld.token, fun _ => rfl⟩
    | settled actual hsome _ hm htok =>
      have hh : r.held = actual := by
        simp only [held, show r.settledWith = some actual from hsome]
      rw [hh]
      exact ⟨hm, htok⟩
    | refunded hnone hrf _ hm htok =>
      have hh : r.held = 0 := by
        simp [held, show r.settledWith = none from hnone, show r.session.refunded = true from hrf]
      rw [hh]
      exact ⟨hm, 0, by rw [chargeToken_zero]; exact htok, fun _ => rfl⟩
  obtain ⟨hm, c, htok, hw⟩ := hmoved
  refine ⟨hm.fundingChange, ?_, ?_, ?_⟩
  · intro hl hwrites
    have hcr : c = r.held := hw hwrites
    rw [htok]
    simp only [Ledger.chargeToken, hl, if_true, credit_apply]
    omega
  · intro id hid
    rw [htok]
    unfold Ledger.chargeToken
    split
    · rename_i hl
      rcases hid with hid | hid
      · rw [hid] at hl; cases hl
      · simp [credit_apply, hid]
    · rfl
  · intro hdone e target
    rw [closed_reserve hdone, closed_refund hdone]
    exact ⟨rfl, rfl⟩

/-- A wallet request pre-consumes 10, reserves up to 20 and settles at 15. -/
theorem session_conserves_small :
    let out := (newSession (smallInfo "wallet_only") 10 .wallet).preConsume utcCalendar quietEnv smallLedger 10
    ∃ s, out.2 = .ok s ∧ fundingChange smallLedger
        (List.foldl step (start out.1 s) [.reserve quietEnv 20, .settle quietEnv 15]).ledger
        (List.foldl step (start out.1 s) [.reserve quietEnv 20, .settle quietEnv 15]).session.funding
        = -15 :=
  ⟨_, rfl, (session_conserves utcCalendar quietEnv (smallInfo "wallet_only") .wallet 10 smallLedger _ _
    [.reserve quietEnv 20, .settle quietEnv 15] quietEnv_compensates (smallDB_valid _) (by decide) rfl rfl
    (fun _ => rfl) ⟨quietEnv_compensates, ⟨by decide, rfl⟩, trivial⟩).1⟩

end Runs

end NewApi.Billing
