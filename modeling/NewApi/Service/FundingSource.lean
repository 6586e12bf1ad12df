import NewApi.Model.SubscriptionSpec

/-!
# Ledgers and funding sources (`service/funding_source.go`, quota writers of `model/`)

* `increaseUserQuota`, `decreaseUserQuota`, `increaseTokenQuota`, `decreaseTokenQuota` — the
  single-statement writers. A failing write has no effect. Batched updates count as applied.
* `WalletFunding`, `SubscriptionFunding`, `FundingSource` — the two sources with their counters.
-/

namespace NewApi.Billing

open NewApi.Subscription

/-- The balances that billing moves. -/
structure Ledger where
  userQuota : Int → Int
  tokenRemain : Int → Int
  db : DB

/-! ## Quota writers -/

def credit (balance : Int → Int) (id amount : Int) : Int → Int := balance + Pi.single id amount

theorem credit_apply (balance : Int → Int) (id amount i : Int) :
    credit balance id amount i = balance i + if i = id then amount else 0 := by
  simp [credit, Pi.single_apply]

@[simp] theorem credit_zero (balance : Int → Int) (id : Int) : credit balance id 0 = balance := by
  simp [credit]

@[simp] theorem credit_credit (balance : Int → Int) (id x y : Int) :
    credit (credit balance id x) id y = credit balance id (x + y) := by
  simp [credit, Pi.single_add, add_assoc]

theorem credit_eq_self_iff {balance : Int → Int} {id amount : Int} :
    credit balance id amount = balance ↔ amount = 0 := by
  simp [credit]

/-- The writers reject negative amounts before any statement. -/
def guardNegative (quota : Int) (l : Ledger) (write : Ledger × Except String Unit) :
    Ledger × Except String Unit :=
  if quota < 0 then (l, .error "quota 不能为负数！") else write

/-- One `UPDATE` that succeeds or fails as a whole. -/
def update (fault : Option String) (l l' : Ledger) : Ledger × Except String Unit :=
  match fault with
  | some e => (l, .error e)
  | none => (l', .ok ())

def increaseUserQuota (fault : Option String) (l : Ledger) (id quota : Int) :
    Ledger × Except String Unit :=
  guardNegative quota l (update fault l { l with userQuota := credit l.userQuota id quota })

def decreaseUserQuota (fault : Option String) (l : Ledger) (id quota : Int) :
    Ledger × Except String Unit :=
  guardNegative quota l (update fault l { l with userQuota := credit l.userQuota id (-quota) })

def increaseTokenQuota (fault : Option String) (l : Ledger) (id quota : Int) :
    Ledger × Except String Unit :=
  guardNegative quota l (update fault l { l with tokenRemain := credit l.tokenRemain id quota })

def decreaseTokenQuota (fault : Option String) (l : Ledger) (id quota : Int) :
    Ledger × Except String Unit :=
  guardNegative quota l (update fault l { l with tokenRemain := credit l.tokenRemain id (-quota) })

/-- `PostConsumeUserSubscriptionDelta` on the ledger. -/
def subscriptionDelta (fault : Faults DeltaStmt) (l : Ledger) (id delta : Int) :
    Ledger × Except String Unit :=
  let (db', r) := postConsumeUserSubscriptionDelta fault l.db id delta
  ({ l with db := db' }, r)

/-! ## The outside of one call -/

/-- The single-statement writes of a call; the rollback ones compensate an earlier write. -/
inductive BillingStmt where
  | userWrite
  | tokenWrite
  | userRollback
  | tokenRollback
  deriving DecidableEq, Repr

structure Env where
  now : Int
  trustQuota : Int
  /-- `c.GetInt("token_quota")`. -/
  tokenQuota : Int
  /-- `GetUserQuota`, possibly from the cache. -/
  userRead : Except String Int
  /-- `RemainQuota` of `GetTokenByKey`, possibly from the cache. -/
  tokenRead : Except String Int
  /-- `GetSubscriptionPlanInfoByUserSubscriptionId`: plan id and title. -/
  planInfo : Option (Int × String)
  formatQuota : Int → String
  fault : Faults BillingStmt
  preConsumeFault : Faults PreConsumeStmt
  deltaFault : Faults DeltaStmt
  deltaRollbackFault : Faults DeltaStmt
  refundFault : Nat → RefundFaults

/-- Every write that undoes an earlier one succeeds. -/
structure Env.Compensates (e : Env) : Prop where
  user : e.fault .userRollback = none
  token : e.fault .tokenRollback = none
  delta : ∀ s, e.deltaRollbackFault s = none
  refund : ∀ i, e.refundFault i = RefundFaults.none

/-! ## Funding sources -/

structure WalletFunding where
  userId : Int
  consumed : Int
  deriving DecidableEq, Repr

structure SubscriptionFunding where
  requestId : String
  userId : Int
  modelName : String
  amount : Int
  subscriptionId : Int
  preConsumed : Int
  amountTotal : Int
  amountUsedAfter : Int
  planId : Int
  planTitle : String
  deriving DecidableEq, Repr

inductive FundingSource where
  | wallet (f : WalletFunding)
  | subscription (f : SubscriptionFunding)
  deriving DecidableEq, Repr

inductive BillingSource where
  | wallet
  | subscription
  deriving DecidableEq, Repr

def FundingSource.source : FundingSource → BillingSource
  | .wallet _ => .wallet
  | .subscription _ => .subscription

def WalletFunding.preConsume (e : Env) (l : Ledger) (w : WalletFunding) (amount : Int) :
    Ledger × Except String WalletFunding :=
  if amount ≤ 0 then (l, .ok w)
  else
    match decreaseUserQuota (e.fault .userWrite) l w.userId amount with
    | (l', .error err) => (l', .error err)
    | (l', .ok ()) => (l', .ok { w with consumed := amount })

def WalletFunding.settle (e : Env) (l : Ledger) (w : WalletFunding) (delta : Int) :
    Ledger × Except String Unit :=
  if delta = 0 then (l, .ok ())
  else if 0 < delta then decreaseUserQuota (e.fault .userWrite) l w.userId delta
  else increaseUserQuota (e.fault .userWrite) l w.userId (-delta)

def WalletFunding.refund (e : Env) (l : Ledger) (w : WalletFunding) : Ledger × Except String Unit :=
  if w.consumed ≤ 0 then (l, .ok ())
  else increaseUserQuota (e.fault .userRollback) l w.userId w.consumed

/-- The amount argument of the interface is ignored: the source charges its own `amount`. -/
def SubscriptionFunding.preConsume (cal : Calendar) (e : Env) (l : Ledger)
    (s : SubscriptionFunding) : Ledger × Except String SubscriptionFunding :=
  match preConsumeUserSubscription cal e.preConsumeFault l.db s.requestId s.userId s.amount e.now with
  | (db', .error err) => ({ l with db := db' }, .error err)
  | (db', .ok res) =>
    let s' := { s with
      subscriptionId := res.userSubscriptionId, preConsumed := res.preConsumed,
      amountTotal := res.amountTotal, amountUsedAfter := res.amountUsedAfter }
    ({ l with db := db' },
      .ok (match e.planInfo with
        | some (planId, planTitle) => { s' with planId := planId, planTitle := planTitle }
        | none => s'))

def SubscriptionFunding.settle (e : Env) (l : Ledger) (s : SubscriptionFunding) (delta : Int) :
    Ledger × Except String Unit :=
  if delta = 0 then (l, .ok ()) else subscriptionDelta e.deltaFault l s.subscriptionId delta

/-- The attempts of `refundWithRetry`, the `i`-th being the next, with `n` more after it. -/
def retryFrom {σ ε : Type} (fn : Nat → σ → σ × Except ε Unit) : Nat → Nat → σ → σ × Except ε Unit
  | 0, i, s => fn i s
  | n + 1, i, s =>
    match fn i s with
    | (s', .ok ()) => (s', .ok ())
    | (s', .error _) => retryFrom fn n (i + 1) s'

/-- `refundWithRetry`: `maxAttempts = 3`, the last error is returned. -/
def refundWithRetry {σ ε : Type} (fn : Nat → σ → σ × Except ε Unit) (s : σ) : σ × Except ε Unit :=
  retryFrom fn 2 0 s

/-- `SubscriptionFunding.Refund` on the subscription tables; attempt `i` meets `fault i`. -/
def SubscriptionFunding.refundDB (fault : Nat → RefundFaults) (db : DB) (s : SubscriptionFunding) :
    DB × Except String Unit :=
  if s.preConsumed ≤ 0 then (db, .ok ())
  else refundWithRetry (fun i db => refundSubscriptionPreConsume (fault i) db s.requestId) db

def SubscriptionFunding.refund (e : Env) (l : Ledger) (s : SubscriptionFunding) :
    Ledger × Except String Unit :=
  let (db', r) := s.refundDB e.refundFault l.db
  ({ l with db := db' }, r)

def FundingSource.preConsume (cal : Calendar) (e : Env) (l : Ledger) (amount : Int) :
    FundingSource → Ledger × Except String FundingSource
  | .wallet w =>
    match w.preConsume e l amount with
    | (l', .error err) => (l', .error err)
    | (l', .ok w') => (l', .ok (.wallet w'))
  | .subscription s =>
    match s.preConsume cal e l with
    | (l', .error err) => (l', .error err)
    | (l', .ok s') => (l', .ok (.subscription s'))

def FundingSource.settle (e : Env) (l : Ledger) (delta : Int) : FundingSource →
      Ledger × Except String Unit
  | .wallet w => w.settle e l delta
  | .subscription s => s.settle e l delta

def FundingSource.refund (e : Env) (l : Ledger) : FundingSource → Ledger × Except String Unit
  | .wallet w => w.refund e l
  | .subscription s => s.refund e l

end NewApi.Billing
