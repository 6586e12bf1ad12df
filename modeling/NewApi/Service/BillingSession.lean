import NewApi.Service.FundingSource

/-!
# Billing sessions (`service/billing_session.go`)

* `BillingSession.preConsume`, `settle`, `refund`, `reserve` — the life of a session.
* `newBillingSession` — the factory with the wallet-first and subscription-first fallbacks.

Every function returns the ledger it leaves behind next to its result. The mutex of a session
serialises its calls, so each is one step.
-/

namespace NewApi.Billing

open NewApi.Subscription NewApi.Text

inductive ErrorCode where
  | invalidRequest
  | queryDataError
  | updateDataError
  | insufficientUserQuota
  | preConsumeTokenQuotaFailed
  deriving DecidableEq, Repr

structure NewAPIError where
  errorCode : ErrorCode
  statusCode : Nat
  message : String
  deriving DecidableEq, Repr

/-- `types.NewError`: status 500. -/
def newError (err : String) (code : ErrorCode) : NewAPIError := ⟨code, 500, err⟩

/-- `types.NewErrorWithStatusCode` with `http.StatusForbidden`. -/
def newForbidden (err : String) (code : ErrorCode) : NewAPIError := ⟨code, 403, err⟩

structure RelayInfo where
  requestId : String
  userId : Int
  tokenId : Int
  tokenKey : String
  tokenUnlimited : Bool
  isPlayground : Bool
  forcePreConsume : Bool
  originModelName : String
  /-- `UserSetting.BillingPreference`. -/
  billingPreference : String
  userQuota : Int
  finalPreConsumedQuota : Int
  billingSource : Option BillingSource
  subscriptionId : Int
  subscriptionPreConsumed : Int
  subscriptionPostDelta : Int
  subscriptionAmountTotal : Int
  subscriptionAmountUsedAfterPreConsume : Int
  subscriptionPlanId : Int
  subscriptionPlanTitle : String
  deriving DecidableEq, Repr

/-- The token keeps a quota of its own and is billed. -/
def RelayInfo.limited (info : RelayInfo) : Bool := !info.isPlayground && !info.tokenUnlimited

structure BillingSession where
  relayInfo : RelayInfo
  funding : FundingSource
  preConsumedQuota : Int
  tokenConsumed : Int
  extraReserved : Int
  trusted : Bool
  fundingSettled : Bool
  settled : Bool
  refunded : Bool
  deriving DecidableEq, Repr

/-- A session as the factory builds it. -/
def BillingSession.fresh (info : RelayInfo) (funding : FundingSource) : BillingSession :=
  ⟨info, funding, 0, 0, 0, false, false, false, false⟩

/-! ## Token quota -/

/-- `PreConsumeTokenQuota`. The remaining quota is read by key, possibly from the cache. -/
def preConsumeTokenQuota (e : Env) (l : Ledger) (info : RelayInfo) (quota : Int) :
    Ledger × Except String Unit :=
  if quota < 0 then (l, .error "quota 不能为负数！")
  else if info.isPlayground then (l, .ok ())
  else if info.tokenUnlimited then (l, .ok ())
  else
    match e.tokenRead with
    | .error err => (l, .error err)
    | .ok remain =>
      if remain < quota then
        (l, .error ("token quota is not enough, token remain quota: " ++ e.formatQuota remain ++
          ", need quota: " ++ e.formatQuota quota))
      else decreaseTokenQuota (e.fault .tokenWrite) l info.tokenId quota

/-! ## Pre-consume -/

def BillingSession.shouldTrust (e : Env) (s : BillingSession) : Bool :=
  if s.relayInfo.forcePreConsume then false
  else if e.trustQuota ≤ 0 then false
  else if !(s.relayInfo.tokenUnlimited || decide (e.trustQuota < e.tokenQuota)) then false
  else
    match s.funding.source with
    | .wallet => decide (e.trustQuota < s.relayInfo.userQuota)
    | .subscription => false

def BillingSession.syncRelayInfo (s : BillingSession) : BillingSession :=
  let info := { s.relayInfo with
    finalPreConsumedQuota := s.preConsumedQuota
    billingSource := some s.funding.source }
  match s.funding with
  | .subscription sub =>
    { s with
      relayInfo := { info with
        subscriptionId := sub.subscriptionId
        subscriptionPreConsumed := sub.preConsumed + s.extraReserved
        subscriptionPostDelta := 0
        subscriptionAmountTotal := sub.amountTotal
        subscriptionAmountUsedAfterPreConsume := sub.amountUsedAfter + s.extraReserved
        subscriptionPlanId := sub.planId
        subscriptionPlanTitle := sub.planTitle } }
  | .wallet _ =>
    { s with relayInfo := { info with subscriptionId := 0, subscriptionPreConsumed := 0 } }

/-- The error of a funding source that could not be charged. -/
def fundingError (err : String) : NewAPIError :=
  if contains err "no active subscription" || contains err "subscription quota insufficient" then
    newForbidden ("订阅额度不足或未配置订阅: " ++ err) .insufficientUserQuota
  else newError err .updateDataError

/-- The token is charged first; a funding source that fails afterwards gives it back. -/
def BillingSession.preConsume (cal : Calendar) (e : Env) (l : Ledger) (s : BillingSession)
    (quota : Int) : Ledger × Except NewAPIError BillingSession :=
  let trust := s.shouldTrust e
  let effectiveQuota := if trust then 0 else quota
  let chargeToken := decide (0 < effectiveQuota) && !s.relayInfo.tokenUnlimited
  let tokenConsumed := if chargeToken then effectiveQuota else s.tokenConsumed
  match if chargeToken then preConsumeTokenQuota e l s.relayInfo effectiveQuota else (l, .ok ()) with
  | (l, .error err) => (l, .error (newForbidden err .preConsumeTokenQuotaFailed))
  | (l, .ok ()) =>
    match s.funding.preConsume cal e l effectiveQuota with
    | (l, .error err) =>
      let l := if 0 < tokenConsumed ∧ s.relayInfo.isPlayground = false then
          (increaseTokenQuota (e.fault .tokenRollback) l s.relayInfo.tokenId tokenConsumed).1
        else l
      (l, .error (fundingError err))
    | (l, .ok funding) =>
      (l, .ok ({ s with
        trusted := s.trusted || trust
        tokenConsumed := tokenConsumed
        funding := funding
        preConsumedQuota := effectiveQuota }).syncRelayInfo)

/-! ## Settle -/

/-- Step 2 of `Settle`: the token follows the funding source. -/
def settleToken (e : Env) (l : Ledger) (info : RelayInfo) (delta : Int) :
    Ledger × Except String Unit :=
  if info.limited then
    if 0 < delta then decreaseTokenQuota (e.fault .tokenWrite) l info.tokenId delta
    else increaseTokenQuota (e.fault .tokenWrite) l info.tokenId (-delta)
  else (l, .ok ())

/-- Steps 2 and 3 of `Settle`: a token write that fails is reported, and the session is settled
all the same. -/
def BillingSession.finishSettle (e : Env) (l : Ledger) (s : BillingSession) (delta : Int) :
    Ledger × BillingSession × Except String Unit :=
  let (l, tokenErr) := settleToken e l s.relayInfo delta
  let info := match s.funding.source with
    | .subscription =>
      { s.relayInfo with subscriptionPostDelta := s.relayInfo.subscriptionPostDelta + delta }
    | .wallet => s.relayInfo
  (l, { s with relayInfo := info, settled := true }, tokenErr)

def BillingSession.settle (e : Env) (l : Ledger) (s : BillingSession) (actualQuota : Int) :
    Ledger × BillingSession × Except String Unit :=
  if s.settled then (l, s, .ok ())
  else
    let delta := actualQuota - s.preConsumedQuota
    if delta = 0 then (l, { s with settled := true }, .ok ())
    else if s.fundingSettled then s.finishSettle e l delta
    else
      match s.funding.settle e l delta with
      | (l, .error err) => (l, s, .error err)
      | (l, .ok ()) => { s with fundingSettled := true }.finishSettle e l delta

/-! ## Refund -/

def BillingSession.needsRefund (s : BillingSession) : Bool :=
  if s.settled || s.refunded || s.fundingSettled then false
  else if 0 < s.preConsumedQuota then true
  else if 0 < s.tokenConsumed then true
  else
    match s.funding with
    | .subscription sub => decide (0 < sub.preConsumed)
    | .wallet _ => false

/-- `Refund`: the funding source, then what was reserved on top of a subscription's record, then
the token. Errors are only logged. -/
def BillingSession.refund (e : Env) (l : Ledger) (s : BillingSession) : Ledger × BillingSession :=
  if s.settled || s.refunded || !s.needsRefund then (l, s)
  else
    let l := (s.funding.refund e l).1
    let l := if 0 < s.extraReserved ∧ s.funding.source = .subscription ∧ 0 < s.relayInfo.subscriptionId then
        (subscriptionDelta e.deltaRollbackFault l s.relayInfo.subscriptionId (-s.extraReserved)).1
      else l
    let l := if 0 < s.tokenConsumed ∧ s.relayInfo.limited then
        (increaseTokenQuota (e.fault .tokenRollback) l s.relayInfo.tokenId s.tokenConsumed).1
      else l
    (l, { s with refunded := true })

/-! ## Reserve -/

def reserveFunding (e : Env) (l : Ledger) (delta : Int) : FundingSource →
      Ledger × Except NewAPIError FundingSource
  | .wallet w =>
    match decreaseUserQuota (e.fault .userWrite) l w.userId delta with
    | (l, .error err) => (l, .error (newError err .updateDataError))
    | (l, .ok ()) => (l, .ok (.wallet { w with consumed := w.consumed + delta }))
  | .subscription s =>
    match subscriptionDelta e.deltaFault l s.subscriptionId delta with
    | (l, .error err) =>
      (l, .error (newForbidden ("订阅额度不足或未配置订阅: " ++ err) .insufficientUserQuota))
    | (l, .ok ()) => (l, .ok (.subscription s))

def rollbackFundingReserve (e : Env) (l : Ledger) (delta : Int) : FundingSource →
      Ledger × FundingSource
  | .wallet w =>
    match increaseUserQuota (e.fault .userRollback) l w.userId delta with
    | (l, .error _) => (l, .wallet w)
    | (l, .ok ()) => (l, .wallet { w with consumed := w.consumed - delta })
  | .subscription s =>
    ((subscriptionDelta e.deltaRollbackFault l s.subscriptionId (-delta)).1, .subscription s)

def reserveToken (e : Env) (l : Ledger) (info : RelayInfo) (delta : Int) :
    Ledger × Except NewAPIError Unit :=
  if delta ≤ 0 || info.isPlayground || info.tokenUnlimited then (l, .ok ())
  else
    match preConsumeTokenQuota e l info delta with
    | (l, .error err) => (l, .error (newForbidden err .preConsumeTokenQuotaFailed))
    | (l, .ok ()) => (l, .ok ())

def BillingSession.reserve (e : Env) (l : Ledger) (s : BillingSession) (targetQuota : Int) :
    Ledger × BillingSession × Except NewAPIError Unit :=
  if s.settled || s.refunded || s.trusted || targetQuota ≤ s.preConsumedQuota then (l, s, .ok ())
  else
    let delta := targetQuota - s.preConsumedQuota
    match reserveFunding e l delta s.funding with
    | (l, .error err) => (l, s, .error err)
    | (l, .ok funding) =>
      match reserveToken e l s.relayInfo delta with
      | (l, .error err) =>
        let (l, funding) := rollbackFundingReserve e l delta funding
        (l, { s with funding := funding }, .error err)
      | (l, .ok ()) =>
        (l, ({ s with
          funding := funding
          preConsumedQuota := s.preConsumedQuota + delta
          tokenConsumed := s.tokenConsumed + delta
          extraReserved := s.extraReserved + delta }).syncRelayInfo, .ok ())

/-! ## The factory -/

inductive BillingPreference where
  | subscriptionFirst
  | walletFirst
  | subscriptionOnly
  | walletOnly
  deriving DecidableEq, Repr

def normalizeBillingPreference (pref : String) : BillingPreference :=
  match trimSpace pref with
  | "subscription_first" => .subscriptionFirst
  | "wallet_first" => .walletFirst
  | "subscription_only" => .subscriptionOnly
  | "wallet_only" => .walletOnly
  | _ => .subscriptionFirst

def hasActiveUserSubscription (err : Option String) (db : DB) (userId now : Int) :
    Except String Bool :=
  if userId ≤ 0 then .error "invalid userId"
  else
    match err with
    | some e => .error e
    | none => .ok (decide (0 < (activeSubscriptions db userId now).length))

/-- The wallet path: `relayInfo.UserQuota` is set before the session is built, and stays set when
the session fails. -/
def tryWallet (cal : Calendar) (e : Env) (l : Ledger) (info : RelayInfo) (preConsumedQuota : Int) :
    Ledger × RelayInfo × Except NewAPIError BillingSession :=
  match e.userRead with
  | .error err => (l, info, .error (newError err .queryDataError))
  | .ok userQuota =>
    if userQuota ≤ 0 then
      (l, info, .error (newForbidden ("用户额度不足, 剩余额度: " ++ e.formatQuota userQuota) .insufficientUserQuota))
    else if userQuota - preConsumedQuota < 0 then
      (l, info, .error (newForbidden ("预扣费额度失败, 用户剩余额度: " ++ e.formatQuota userQuota ++
        ", 需要预扣费额度: " ++ e.formatQuota preConsumedQuota) .insufficientUserQuota))
    else
      let info := { info with userQuota := userQuota }
      let (l, r) := (BillingSession.fresh info (.wallet ⟨info.userId, 0⟩)).preConsume cal e l preConsumedQuota
      (l, info, r)

/-- `subConsume`: at least 1, so that the pre-consume creates its record. -/
def subConsume (preConsumedQuota : Int) : Int :=
  if preConsumedQuota ≤ 0 then 1 else preConsumedQuota

def trySubscription (cal : Calendar) (e : Env) (l : Ledger) (info : RelayInfo)
    (preConsumedQuota : Int) : Ledger × RelayInfo × Except NewAPIError BillingSession :=
  let funding : SubscriptionFunding :=
    ⟨info.requestId, info.userId, info.originModelName, subConsume preConsumedQuota, 0, 0, 0, 0, 0, ""⟩
  let (l, r) := (BillingSession.fresh info (.subscription funding)).preConsume cal e l (subConsume preConsumedQuota)
  (l, info, r)

/-- The outside of a factory call: each of the two attempts meets its own environment. -/
structure FactoryEnv where
  wallet : Env
  subscription : Env
  /-- The error of the active-subscription check, and the clock it uses. -/
  checkErr : Option String
  checkNow : Int

/-- Go on with `next` when the attempt failed for lack of quota. -/
def orElseInsufficient (r : Ledger × RelayInfo × Except NewAPIError BillingSession)
    (next : Ledger → RelayInfo → Ledger × RelayInfo × Except NewAPIError BillingSession) :
    Ledger × RelayInfo × Except NewAPIError BillingSession :=
  match r with
  | (l, info, .error err) =>
    if err.errorCode = .insufficientUserQuota then next l info else (l, info, .error err)
  | (l, info, .ok s) => (l, info, .ok s)

/-- `NewBillingSession` for a non-nil `relayInfo`. -/
def newSessionFor (cal : Calendar) (e : FactoryEnv) (l : Ledger) (info : RelayInfo)
    (preConsumedQuota : Int) : Ledger × RelayInfo × Except NewAPIError BillingSession :=
  match normalizeBillingPreference info.billingPreference with
  | .subscriptionOnly => trySubscription cal e.subscription l info preConsumedQuota
  | .walletOnly => tryWallet cal e.wallet l info preConsumedQuota
  | .walletFirst =>
    orElseInsufficient (tryWallet cal e.wallet l info preConsumedQuota)
      fun l info => trySubscription cal e.subscription l info preConsumedQuota
  | .subscriptionFirst =>
    match hasActiveUserSubscription e.checkErr l.db info.userId e.checkNow with
    | .error err => (l, info, .error (newError err .queryDataError))
    | .ok false => tryWallet cal e.wallet l info preConsumedQuota
    | .ok true =>
      orElseInsufficient (trySubscription cal e.subscription l info preConsumedQuota)
        fun l info => tryWallet cal e.wallet l info preConsumedQuota

def newBillingSession (cal : Calendar) (e : FactoryEnv) (l : Ledger) (relayInfo : Option RelayInfo)
    (preConsumedQuota : Int) : Ledger × Except NewAPIError BillingSession :=
  match relayInfo with
  | none => (l, .error (newError "relayInfo is nil" .invalidRequest))
  | some info =>
    let (l, _, r) := newSessionFor cal e l info preConsumedQuota
    (l, r)

end NewApi.Billing
