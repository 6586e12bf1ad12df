import NewApi.Lib.Decimal
import NewApi.Model.Subscription

/-!
# Top-up orders (`model/topup.go`, `model/epay_topup.go`, `model/epay_topup_validate.go`)

An order is a row that a payment provider's webhook, an administrator or a cancellation moves out of
`pending`. Six functions complete an order and credit its user; they are `Completion.run` applied to
what each of them checks, computes and writes.

* `TopUp`, `TopUpDB` — orders by trade number and the user columns that a completion writes.
* `epayTopUpQuota`, `validateEpayModernTopUpQuota` — the quota of an Epay order.

Amounts are exact: `float64` and `decimal` values are rationals, `int` and `int64` unbounded. A user
who is gone is credited without an error: the `UPDATE` then matches no row.
-/

namespace NewApi.Payment

open NewApi.Subscription (Faults)

inductive PaymentProvider where
  | epay
  | stripe
  | creem
  | waffo
  | waffoPancake
  | balance
  | other (name : String)
  deriving DecidableEq, Repr

inductive TopUpStatus where
  | pending
  | success
  | failed
  | expired
  | other (text : String)
  deriving DecidableEq, Repr

structure TopUp where
  userId : Int
  amount : Int
  money : ℚ
  tradeNo : String
  paymentMethod : String
  paymentProvider : PaymentProvider
  createTime : Int
  completeTime : Int
  status : TopUpStatus
  deriving DecidableEq, Repr

/-- The columns of a user that a completion reads or writes. -/
structure Payer where
  id : Int
  /-- What a database makes of a fraction that is added to the integer column is left open. -/
  quota : ℚ
  email : String
  stripeCustomer : String
  deriving DecidableEq, Repr

structure TopUpDB where
  topUps : Table String TopUp TopUp.tradeNo
  users : Table Int Payer Payer.id

/-- `common.QuotaPerUnit` and `operation_setting.USDExchangeRate`. -/
structure Settings where
  quotaPerUnit : ℚ
  usdExchangeRate : ℚ
  deriving DecidableEq, Repr

/-- Errors with a fixed text, and those of the Epay check with the values they print. -/
inductive TopUpError where
  | message (text : String)
  | invalidEpay (amount quota : Int)
  | aboveCeiling (quota ceiling amount : Int) (rate : ℚ)
  | invalidExpected (amount : Int)
  | ratioOutOfBounds (ratio : ℚ) (amount quota expected : Int) (rate : ℚ)
  | rateOutOfRange (rate : ℚ)
  deriving DecidableEq, Repr

def errPaymentMethodMismatch : TopUpError := .message "payment method mismatch"

def errTopUpNotFound : TopUpError := .message "topup not found"

def errTopUpStatusInvalid : TopUpError := .message "topup status invalid"

/-! ## Epay orders -/

def Settings.epayDisplayExchangeRate (s : Settings) : ℚ :=
  if s.usdExchangeRate ≤ 0 then 1 else s.usdExchangeRate

def epayQuotaFromCny (s : Settings) (cnyAmount : Int) : Int :=
  if cnyAmount ≤ 0 then 0
  else Decimal.round (Decimal.div cnyAmount s.epayDisplayExchangeRate * s.quotaPerUnit)

/-- Older Epay orders stored USD in `Amount`. -/
def isLegacyEpayUsdTopUpAmount (s : Settings) (t : TopUp) : Bool :=
  if t.paymentProvider ≠ .epay then false
  else if t.amount ≤ 0 ∨ t.money ≤ 0 then false
  else if 10 ≤ t.amount ∧ t.money * (1 / 2) ≤ t.amount then false
  else decide ((t.amount : ℚ) * s.epayDisplayExchangeRate < t.money * (3 / 4))

def epayTopUpQuota (s : Settings) (t : TopUp) : Int :=
  if t.paymentProvider = .epay ∧ isLegacyEpayUsdTopUpAmount s t = false then epayQuotaFromCny s t.amount
  else Decimal.round (t.amount * s.quotaPerUnit)

def epayModernTopUpQuotaMaxRatio : ℚ := 115 / 100

def epayModernTopUpQuotaMinRatio : ℚ := 85 / 100

def epayModernTopUpQuotaCeiling (s : Settings) (cnyAmount : Int) : Int :=
  if cnyAmount ≤ 0 then 0 else Decimal.round (cnyAmount * s.quotaPerUnit * epayModernTopUpQuotaMaxRatio)

def validateEpayModernTopUpQuota (s : Settings) (t : TopUp) (quotaToAdd : Int) :
    Except TopUpError Unit :=
  if t.paymentProvider ≠ .epay then .ok ()
  else if isLegacyEpayUsdTopUpAmount s t then .ok ()
  else if t.amount ≤ 0 ∨ quotaToAdd ≤ 0 then .error (.invalidEpay t.amount quotaToAdd)
  else
    let rate := s.epayDisplayExchangeRate
    let ceiling := epayModernTopUpQuotaCeiling s t.amount
    if ceiling < quotaToAdd then .error (.aboveCeiling quotaToAdd ceiling t.amount rate)
    else
      let expected := epayTopUpQuota s t
      if expected ≤ 0 then .error (.invalidExpected t.amount)
      else
        let ratio : ℚ := quotaToAdd / expected
        if ratio < epayModernTopUpQuotaMinRatio ∨ epayModernTopUpQuotaMaxRatio < ratio then
          .error (.ratioOutOfBounds ratio t.amount quotaToAdd expected rate)
        else if rate ≤ 0 ∨ rate < 1 / 2 ∨ 15 < rate then .error (.rateOutOfRange rate)
        else .ok ()

/-! ## The completion of an order -/

inductive TopUpStmt where
  | find
  | save
  | readUser
  | credit
  | commit
  deriving DecidableEq, Repr

/-- What distinguishes one completing function from another. -/
structure Completion where
  missing : TopUpError
  notFound : TopUpError
  /-- The provider whose orders the function accepts; `none` accepts all. -/
  provider : Option PaymentProvider
  /-- An order that has succeeded is answered without an error. -/
  idempotent : Bool
  notPending : TopUpError
  paymentMethod : TopUp → String
  quota : TopUp → Except TopUpError ℚ
  readsUser : Bool
  /-- What else is written to the user. -/
  setUser : Payer → Payer
  setUser_keeps : ∀ u, (setUser u).id = u.id ∧ (setUser u).quota = u.quota
  /-- The error the caller sees. -/
  outer : TopUpError → TopUpError

/-- `UPDATE users SET quota = quota + ? WHERE id = ?`, with the other columns of the completion. -/
def Completion.credit (c : Completion) (userId : Int) (quota : ℚ) : Table.Update Payer.id where
  hits u := decide (u.id = userId)
  set u := { c.setUser u with quota := u.quota + quota }
  keeps u _ := (c.setUser_keeps u).1

/-- Read the user where the function does so, then credit. -/
def Completion.creditUser (c : Completion) (fault : Faults TopUpStmt) (db : TopUpDB) (userId : Int)
    (quota : ℚ) : Except TopUpError (TopUpDB × Option ℚ) :=
  let credited := match fault .credit with
    | some e => .error (.message e)
    | none => .ok ({ db with users := db.users.exec (c.credit userId quota) }, some quota)
  if c.readsUser then
    match fault .readUser, db.users.get userId with
    | some e, _ => .error (.message e)
    | none, none => .error (.message "record not found")
    | none, some _ => credited
  else credited

def Completion.body (c : Completion) (fault : Faults TopUpStmt) (now : Int) (tradeNo : String)
    (db : TopUpDB) : Except TopUpError (TopUpDB × Option ℚ) :=
  match fault .find, db.topUps.get tradeNo with
  | some _, _ => .error c.notFound
  | none, none => .error c.notFound
  | none, some topUp =>
    if c.provider ≠ none ∧ c.provider ≠ some topUp.paymentProvider then .error errPaymentMethodMismatch
    else if c.idempotent = true ∧ topUp.status = .success then .ok (db, none)
    else if topUp.status ≠ .pending then .error c.notPending
    else
      let topUp := { topUp with paymentMethod := c.paymentMethod topUp }
      match c.quota topUp with
      | .error e => .error e
      | .ok quota =>
        match fault .save with
        | some e => .error (.message e)
        | none =>
          let done := { topUp with completeTime := now, status := .success }
          c.creditUser fault { db with topUps := db.topUps.save done } topUp.userId quota

/-- The answer is the quota that was credited, or nothing when the order had succeeded before. -/
def Completion.run (c : Completion) (fault : Faults TopUpStmt) (now : Int) (db : TopUpDB)
    (tradeNo : String) : TopUpDB × Except TopUpError (Option ℚ) :=
  if tradeNo = "" then (db, .error c.missing)
  else
    match transaction ((fault .commit).map .message) db (c.body fault now tradeNo) with
    | (db, .error e) => (db, .error (c.outer e))
    | (db, .ok quota) => (db, .ok quota)

def positive (quota : Int) : Except TopUpError Int :=
  if quota ≤ 0 then .error (.message "无效的充值额度") else .ok quota

/-- `int(dAmount.Mul(dQuotaPerUnit).IntPart())`. -/
def amountQuota (s : Settings) (t : TopUp) : Int := Decimal.intPart (t.amount * s.quotaPerUnit)

/-- The answer of the functions that hide what went wrong. -/
def errRetryLater : TopUpError := .message "充值失败，请稍后重试"

def recharge (s : Settings) (customerId : String) : Completion where
  missing := .message "未提供支付单号"
  notFound := .message "充值订单不存在"
  provider := some .stripe
  idempotent := false
  notPending := .message "充值订单状态错误"
  paymentMethod t := t.paymentMethod
  quota t := .ok (t.money * s.quotaPerUnit)
  readsUser := false
  setUser u := { u with stripeCustomer := customerId }
  setUser_keeps _ := ⟨rfl, rfl⟩
  outer _ := errRetryLater

def rechargeCreem (customerEmail : String) : Completion where
  missing := .message "未提供支付单号"
  notFound := .message "充值订单不存在"
  provider := some .creem
  idempotent := false
  notPending := .message "充值订单状态错误"
  paymentMethod t := t.paymentMethod
  quota t := .ok t.amount
  readsUser := decide (customerEmail ≠ "")
  setUser u := if customerEmail ≠ "" ∧ u.email = "" then { u with email := customerEmail } else u
  setUser_keeps u := by split <;> exact ⟨rfl, rfl⟩
  outer _ := errRetryLater

def completeEpayTopUp (s : Settings) (paymentMethod : String) : Completion where
  missing := .message "未提供支付单号"
  notFound := errTopUpNotFound
  provider := some .epay
  idempotent := true
  notPending := errTopUpStatusInvalid
  paymentMethod t := if paymentMethod ≠ "" then paymentMethod else t.paymentMethod
  quota t := do
    let quotaToAdd ← positive (epayTopUpQuota s t)
    validateEpayModernTopUpQuota s t quotaToAdd
    return quotaToAdd
  readsUser := false
  setUser u := u
  setUser_keeps _ := ⟨rfl, rfl⟩
  outer e := e

def rechargeWaffo (s : Settings) : Completion where
  missing := .message "未提供支付单号"
  notFound := .message "充值订单不存在"
  provider := some .waffo
  idempotent := true
  notPending := .message "充值订单状态错误"
  paymentMethod t := t.paymentMethod
  quota t := do
    let quotaToAdd ← positive (amountQuota s t)
    return quotaToAdd
  readsUser := false
  setUser u := u
  setUser_keeps _ := ⟨rfl, rfl⟩
  outer _ := errRetryLater

def rechargeWaffoPancake (s : Settings) : Completion :=
  { rechargeWaffo s with provider := some .waffoPancake }

/-- The quota that `ManualCompleteTopUp` works out by provider. -/
def manualQuota (s : Settings) (t : TopUp) : Int :=
  if t.paymentProvider = .stripe then Decimal.intPart (t.money * s.quotaPerUnit)
  else if t.paymentProvider = .epay then epayTopUpQuota s t
  else amountQuota s t

def manualCompleteTopUp (s : Settings) : Completion where
  missing := .message "未提供订单号"
  notFound := .message "充值订单不存在"
  provider := none
  idempotent := true
  notPending := .message "订单状态不是待支付，无法补单"
  paymentMethod t := t.paymentMethod
  quota t := do
    let quotaToAdd ← positive (manualQuota s t)
    if t.paymentProvider = .epay then validateEpayModernTopUpQuota s t quotaToAdd
    return quotaToAdd
  readsUser := false
  setUser u := u
  setUser_keeps _ := ⟨rfl, rfl⟩
  outer e := e

/-! ## Changing the status alone -/

def pendingBody (fault : Faults TopUpStmt) (expected : Option PaymentProvider)
    (target : TopUpStatus) (tradeNo : String) (db : TopUpDB) :
    Except TopUpError (TopUpDB × Option ℚ) :=
  match fault .find, db.topUps.get tradeNo with
  | some _, _ => .error errTopUpNotFound
  | none, none => .error errTopUpNotFound
  | none, some topUp =>
    if expected ≠ none ∧ expected ≠ some topUp.paymentProvider then .error errPaymentMethodMismatch
    else if topUp.status ≠ .pending then .error errTopUpStatusInvalid
    else
      match fault .save with
      | some e => .error (.message e)
      | none => .ok ({ db with topUps := db.topUps.save { topUp with status := target } }, none)

/-- `UpdatePendingTopUpStatus`; an empty expected provider accepts every order. -/
def updatePendingTopUpStatus (fault : Faults TopUpStmt) (db : TopUpDB) (tradeNo : String)
    (expected : Option PaymentProvider) (target : TopUpStatus) :
    TopUpDB × Except TopUpError (Option ℚ) :=
  if tradeNo = "" then (db, .error (.message "未提供支付单号"))
  else transaction ((fault .commit).map .message) db (pendingBody fault expected target tradeNo)

/-! ## What a call does -/

section Cases

variable {c : Completion} {fault : Faults TopUpStmt} {now : Int} {db db' : TopUpDB} {tradeNo : String}

def Completion.apply (c : Completion) (now : Int) (db : TopUpDB) (topUp : TopUp) (quota : ℚ) :
    TopUpDB where
  topUps := db.topUps.save
    { topUp with paymentMethod := c.paymentMethod topUp, completeTime := now, status := .success }
  users := db.users.exec (c.credit topUp.userId quota)

theorem Completion.creditUser_ok {userId : Int} {quota : ℚ} {answer : Option ℚ}
    (h : c.creditUser fault db userId quota = .ok (db', answer)) :
    answer = some quota ∧ db' = { db with users := db.users.exec (c.credit userId quota) } := by
  have hcredit : ∀ {x : Except TopUpError (TopUpDB × Option ℚ)},
      x = (match fault .credit with
        | some e => .error (.message e)
        | none => .ok ({ db with users := db.users.exec (c.credit userId quota) }, some quota)) →
      x = .ok (db', answer) →
      answer = some quota ∧ db' = { db with users := db.users.exec (c.credit userId quota) } := by
    intro x hx hok
    split at hx
    · rw [hx] at hok; cases hok
    · rw [hx] at hok; cases hok; exact ⟨rfl, rfl⟩
  unfold creditUser at h
  simp only at h
  split at h
  · split at h
    · cases h
    · cases h
    · exact hcredit rfl h
  · exact hcredit rfl h

variable {r : Except TopUpError (Option ℚ)}

/-- **Everything a completion can do**: it fails and changes nothing, finds that the order has
succeeded, or completes a pending order. -/
theorem Completion.run_cases (h : c.run fault now db tradeNo = (db', r)) :
    Failed db db' r ∨
    (db' = db ∧ r = .ok none ∧ ∃ topUp, db.topUps.get tradeNo = some topUp ∧ topUp.status = .success) ∨
    (∃ topUp quota, db.topUps.get tradeNo = some topUp ∧ topUp.status = .pending ∧
      (c.provider = none ∨ c.provider = some topUp.paymentProvider) ∧
      c.quota { topUp with paymentMethod := c.paymentMethod topUp } = .ok quota ∧
      r = .ok (some quota) ∧ db' = c.apply now db topUp quota) := by
  unfold run at h
  split at h
  · cases h; exact .inl ⟨rfl, _, rfl⟩
  rcases ht : transaction ((fault .commit).map .message) db (c.body fault now tradeNo) with ⟨db₁,
    r₁⟩
  rw [ht] at h
  obtain ⟨rfl, e, rfl⟩ | ⟨answer, rfl, hb⟩ := transaction_cases ht <;> cases h
  · exact .inl ⟨rfl, _, rfl⟩
  right
  unfold body at hb
  split at hb
  · cases hb
  · cases hb
  rename_i topUp _ hget
  split at hb
  · cases hb
  rename_i hprov
  split at hb
  · rename_i hdone
    cases hb
    exact .inl ⟨rfl, rfl, topUp, hget, hdone.2⟩
  split at hb
  · cases hb
  rename_i hpend
  simp only at hb
  split at hb
  · cases hb
  rename_i quota hquota
  split at hb
  · cases hb
  obtain ⟨hans, hdb⟩ := creditUser_ok hb
  have hp : c.provider = none ∨ c.provider = some topUp.paymentProvider := by
    by_contra hne
    exact hprov ⟨fun e => hne (.inl e), fun e => hne (.inr e)⟩
  exact .inr ⟨topUp, quota, hget, not_not.mp hpend, hp, hquota, by rw [hans], hdb⟩

theorem updatePendingTopUpStatus_cases {expected : Option PaymentProvider} {target : TopUpStatus}
    (h : updatePendingTopUpStatus fault db tradeNo expected target = (db', r)) :
    Failed db db' r ∨
    (∃ topUp, db.topUps.get tradeNo = some topUp ∧ topUp.status = .pending ∧ r = .ok none ∧
      db' = { db with topUps := db.topUps.save { topUp with status := target } }) := by
  unfold updatePendingTopUpStatus at h
  split at h
  · cases h; exact .inl ⟨rfl, _, rfl⟩
  obtain herr | ⟨answer, rfl, hb⟩ := transaction_cases h
  · exact .inl herr
  right
  unfold pendingBody at hb
  split at hb
  · cases hb
  · cases hb
  rename_i topUp _ hget
  split at hb
  · cases hb
  split at hb
  · cases hb
  rename_i hpend
  split at hb
  · cases hb
  cases hb
  exact ⟨topUp, hget, not_not.mp hpend, rfl, rfl⟩

end Cases

end NewApi.Payment
