import NewApi.Model.SubscriptionPurchase
import NewApi.Model.SubscriptionSpec
import NewApi.Model.TopUp

/-!
# Subscription orders

`CompleteSubscriptionOrder` turns a pending order into a subscription, moves the user into the
plan's group and writes a top-up record next to it, in one transaction; `ExpireSubscriptionOrder`
gives a pending order up.

* `SubscriptionOrder`, `OrderDB` — orders by trade number, next to subscriptions and top-up records.
* `completeSubscriptionOrder`, `upsertSubscriptionTopUpTx`, `expireSubscriptionOrder`.
* `OrderRun` — runs of calls on one order, with the subscriptions they have created.
-/

namespace NewApi.Subscription

open NewApi.Text NewApi.Payment Table

structure SubscriptionOrder where
  userId : Int
  planId : Int
  money : ℚ
  tradeNo : String
  paymentMethod : String
  paymentProvider : PaymentProvider
  status : TopUpStatus
  createTime : Int
  completeTime : Int
  providerPayload : String
  deriving DecidableEq, Repr

structure OrderDB where
  groups : GroupDB
  orders : Table String SubscriptionOrder SubscriptionOrder.tradeNo
  topUps : Table String TopUp TopUp.tradeNo

inductive OrderStmt where
  | findOrder
  | findTopUp
  | createTopUp
  | saveTopUp
  | saveOrder
  | commit
  deriving DecidableEq, Repr

/-- What one call meets. The plan may come from the cache; the clock is read once for the record and
once for the order. -/
structure OrderEnv where
  purchase : PurchaseEnv
  plan : Except String PurchasePlan
  recordNow : Int
  orderNow : Int
  fault : Faults OrderStmt

def errPaymentMethodMismatch : String := "payment method mismatch"

def errSubscriptionOrderNotFound : String := "subscription order not found"

def errSubscriptionOrderStatusInvalid : String := "subscription order status invalid"

/-- The record that `upsertSubscriptionTopUpTx` creates. -/
def newTopUp (order : SubscriptionOrder) (now : Int) : TopUp where
  userId := order.userId
  amount := 0
  money := order.money
  tradeNo := order.tradeNo
  paymentMethod := order.paymentMethod
  paymentProvider := .other ""
  createTime := order.createTime
  completeTime := now
  status := .success

/-- The record it makes of one that is there. -/
def mergedTopUp (topUp : TopUp) (order : SubscriptionOrder) (now : Int) : TopUp :=
  { topUp with
    money := order.money
    paymentMethod := order.paymentMethod
    createTime := if topUp.createTime = 0 then order.createTime else topUp.createTime
    completeTime := now
    status := .success }

def upsertSubscriptionTopUpTx (fault : Faults OrderStmt) (now : Int) (db : OrderDB)
    (order : SubscriptionOrder) : Except String OrderDB :=
  match fault .findTopUp, db.topUps.get order.tradeNo with
  | some e, _ => .error e
  | none, none =>
    match fault .createTopUp, db.topUps.insert (newTopUp order now) with
    | some e, _ => .error e
    | none, none => .error "duplicated key not allowed"
    | none, some topUps => .ok { db with topUps := topUps }
  | none, some topUp =>
    if topUp.paymentMethod ≠ "" ∧ topUp.paymentMethod ≠ order.paymentMethod then .error errPaymentMethodMismatch
    else
      match fault .saveTopUp with
      | some e => .error e
      | none => .ok { db with topUps := db.topUps.save (mergedTopUp topUp order now) }

/-- The order as a completion saves it. -/
def SubscriptionOrder.completed (order : SubscriptionOrder) (now : Int)
    (providerPayload actualPaymentMethod : String) : SubscriptionOrder :=
  { order with
    status := .success
    completeTime := now
    providerPayload := if providerPayload ≠ "" then providerPayload else order.providerPayload
    paymentMethod := if actualPaymentMethod ≠ "" then actualPaymentMethod else order.paymentMethod }

/-- The part of a completion after its checks: subscription, record, order. -/
def completeOrder (e : OrderEnv) (db : OrderDB) (order : SubscriptionOrder)
    (providerPayload actualPaymentMethod : String) : Except String (OrderDB × Option Membership) :=
  match e.plan with
  | .error err => .error err
  | .ok plan =>
    match createUserSubscriptionFromPlanTx e.purchase db.groups order.userId plan "order" with
    | .error err => .error err
    | .ok (groups, sub) =>
      match upsertSubscriptionTopUpTx e.fault e.recordNow { db with groups := groups } order with
      | .error err => .error err
      | .ok db =>
        match e.fault .saveOrder with
        | some err => .error err
        | none =>
          .ok ({ db with
            orders := db.orders.save (order.completed e.orderNow providerPayload actualPaymentMethod) }, some sub)

def completeBody (e : OrderEnv) (tradeNo providerPayload : String)
    (expected : Option PaymentProvider) (actualPaymentMethod : String) (db : OrderDB) :
    Except String (OrderDB × Option Membership) :=
  match e.fault .findOrder, db.orders.get tradeNo with
  | some _, _ => .error errSubscriptionOrderNotFound
  | none, none => .error errSubscriptionOrderNotFound
  | none, some order =>
    if expected ≠ none ∧ expected ≠ some order.paymentProvider then .error errPaymentMethodMismatch
    else if order.status = .success then .ok (db, none)
    else if order.status ≠ .pending then .error errSubscriptionOrderStatusInvalid
    else completeOrder e db order providerPayload actualPaymentMethod

/-- The answer is the subscription that was created, if one was. -/
def completeSubscriptionOrder (e : OrderEnv) (db : OrderDB) (tradeNo providerPayload : String)
    (expected : Option PaymentProvider) (actualPaymentMethod : String) :
    OrderDB × Except String (Option Membership) :=
  if tradeNo = "" then (db, .error "tradeNo is empty")
  else transaction (e.fault .commit) db (completeBody e tradeNo providerPayload expected actualPaymentMethod)

def expireBody (e : OrderEnv) (tradeNo : String) (expected : Option PaymentProvider)
    (db : OrderDB) : Except String (OrderDB × Option Membership) :=
  match e.fault .findOrder, db.orders.get tradeNo with
  | some _, _ => .error errSubscriptionOrderNotFound
  | none, none => .error errSubscriptionOrderNotFound
  | none, some order =>
    if expected ≠ none ∧ expected ≠ some order.paymentProvider then .error errPaymentMethodMismatch
    else if order.status ≠ .pending then .ok (db, none)
    else
      match e.fault .saveOrder with
      | some err => .error err
      | none =>
        .ok ({ db with orders := db.orders.save { order with status := .expired, completeTime := e.orderNow } }, none)

def expireSubscriptionOrder (e : OrderEnv) (db : OrderDB) (tradeNo : String)
    (expected : Option PaymentProvider) : OrderDB × Except String (Option Membership) :=
  if tradeNo = "" then (db, .error "tradeNo is empty")
  else transaction (e.fault .commit) db (expireBody e tradeNo expected)

/-! ## What a call does -/

inductive OrderCall where
  | complete (providerPayload : String) (expected : Option PaymentProvider) (actualPaymentMethod : String)
  | expire (expected : Option PaymentProvider)
  deriving DecidableEq, Repr

def OrderCall.run (call : OrderCall) (e : OrderEnv) (db : OrderDB) (tradeNo : String) :
    OrderDB × Except String (Option Membership) :=
  match call with
  | .complete providerPayload expected actualPaymentMethod =>
    completeSubscriptionOrder e db tradeNo providerPayload expected actualPaymentMethod
  | .expire expected => expireSubscriptionOrder e db tradeNo expected

section Calls

variable {e : OrderEnv} {db db' : OrderDB} {tradeNo : String} {order : SubscriptionOrder}

theorem upsertSubscriptionTopUpTx_ok {fault : Faults OrderStmt} {now : Int}
    (h : upsertSubscriptionTopUpTx fault now db order = .ok db') :
    db'.groups = db.groups ∧ db'.orders = db.orders ∧
    (db.topUps.get order.tradeNo = none → db'.topUps.get order.tradeNo = some (newTopUp order now)) := by
  unfold upsertSubscriptionTopUpTx at h
  split at h
  · cases h
  · split at h
    · cases h
    · cases h
    rename_i topUps _ hins
    cases h
    exact ⟨rfl, rfl, fun _ => get_insert_self hins⟩
  · rename_i topUp _ hget
    split at h
    · cases h
    split at h
    · cases h
    · cases h
      exact ⟨rfl, rfl, fun hnone => by rw [hget] at hnone; cases hnone⟩

/-- A pending order has become a subscription. -/
structure Completed (e : OrderEnv) (db db' : OrderDB) (order : SubscriptionOrder)
    (providerPayload actualPaymentMethod : String) (sub : Membership) : Prop where
  purchased : ∃ plan, e.plan = .ok plan ∧ Purchased e.purchase db.groups db'.groups order.userId plan sub
  orders : db'.orders = db.orders.save (order.completed e.orderNow providerPayload actualPaymentMethod)
  record : db.topUps.get order.tradeNo = none → db'.topUps.get order.tradeNo = some (newTopUp order e.recordNow)

theorem completeOrder_ok {providerPayload actualPaymentMethod : String} {answer : Option Membership}
    (h : completeOrder e db order providerPayload actualPaymentMethod = .ok (db', answer)) :
    ∃ sub, answer = some sub ∧
      Completed e db db' order providerPayload actualPaymentMethod sub := by
  unfold completeOrder at h
  split at h
  · cases h
  rename_i plan hplan
  split at h
  · cases h
  rename_i groups sub hcreate
  split at h
  · cases h
  rename_i db₁ hupsert
  split at h
  · cases h
  cases h
  obtain ⟨hgroups, horders, hrecord⟩ := upsertSubscriptionTopUpTx_ok hupsert
  refine ⟨sub, rfl, ⟨plan, hplan, ?_⟩, ?_, hrecord⟩
  · have hp := createUserSubscriptionFromPlanTx_ok hcreate
    simpa only [hgroups] using hp
  · simp only [horders]

variable {call : OrderCall}

/-- **Everything a call can do**: nothing, complete a pending order, or expire it. -/
theorem orderCall_cases {r : Except String (Option Membership)}
    (h : call.run e db tradeNo = (db', r)) :
    (db' = db ∧ ((∃ err, r = .error err) ∨ r = .ok none)) ∨
    (∃ order providerPayload expected actualPaymentMethod sub, db.orders.get tradeNo = some order ∧
      order.status = .pending ∧ call = .complete providerPayload expected actualPaymentMethod ∧
      r = .ok (some sub) ∧ Completed e db db' order providerPayload actualPaymentMethod sub) ∨
    (∃ order, db.orders.get tradeNo = some order ∧ order.status = .pending ∧ r = .ok none ∧
      db' = { db with orders := db.orders.save { order with status := .expired, completeTime := e.orderNow } }) := by
  cases call with
  | complete providerPayload expected actualPaymentMethod =>
    simp only [OrderCall.run, completeSubscriptionOrder] at h
    split at h
    · cases h; exact .inl ⟨rfl, .inl ⟨_, rfl⟩⟩
    obtain herr | ⟨answer, rfl, hb⟩ := transaction_cases h
    · exact .inl ⟨herr.1, .inl herr.2⟩
    unfold completeBody at hb
    split at hb
    · cases hb
    · cases hb
    rename_i order _ hget
    split at hb
    · cases hb
    split at hb
    · cases hb; exact .inl ⟨rfl, .inr rfl⟩
    split at hb
    · cases hb
    rename_i hpend
    obtain ⟨sub, rfl, hcompleted⟩ := completeOrder_ok hb
    exact .inr (.inl ⟨order, providerPayload, expected, actualPaymentMethod, sub, hget,
      not_not.mp hpend, rfl, rfl, hcompleted⟩)
  | expire expected =>
    simp only [OrderCall.run, expireSubscriptionOrder] at h
    split at h
    · cases h; exact .inl ⟨rfl, .inl ⟨_, rfl⟩⟩
    obtain herr | ⟨answer, rfl, hb⟩ := transaction_cases h
    · exact .inl ⟨herr.1, .inl herr.2⟩
    unfold expireBody at hb
    split at hb
    · cases hb
    · cases hb
    rename_i order _ hget
    split at hb
    · cases hb
    split at hb
    · cases hb; exact .inl ⟨rfl, .inr rfl⟩
    rename_i hpend
    split at hb
    · cases hb
    cases hb
    exact .inr (.inr ⟨order, hget, not_not.mp hpend, rfl, rfl⟩)

theorem orderCall_error {err : String} (h : call.run e db tradeNo = (db', .error err)) :
    db' = db := by
  rcases orderCall_cases h with ⟨hdb, _⟩ | ⟨_, _, _, _, _, _, _, _, hr, _⟩ | ⟨_, _, _, hr, _⟩
  · exact hdb
  · cases hr
  · cases hr

end Calls

/-! ## Runs -/

structure OrderRun where
  db : OrderDB
  /-- The subscriptions created so far. -/
  created : List Membership

def OrderRun.step (tradeNo : String) (s : OrderRun) (c : OrderEnv × OrderCall) : OrderRun :=
  match c.2.run c.1 s.db tradeNo with
  | (db, .ok (some sub)) => ⟨db, s.created ++ [sub]⟩
  | (db, _) => ⟨db, s.created⟩

def OrderRun.run (tradeNo : String) (s : OrderRun) (calls : List (OrderEnv × OrderCall)) :
    OrderRun :=
  calls.foldl (OrderRun.step tradeNo) s

/-- The record agrees with the order in every column that both have. -/
structure RecordMatches (order : SubscriptionOrder) (record : TopUp) : Prop where
  userId : record.userId = order.userId
  money : record.money = order.money
  tradeNo : record.tradeNo = order.tradeNo
  paymentMethod : record.paymentMethod = order.paymentMethod
  paymentProvider : record.paymentProvider = order.paymentProvider
  createTime : record.createTime = order.createTime
  completeTime : record.completeTime = order.completeTime
  status : record.status = order.status

/-- How far a pending order has come: nothing has happened, it was expired, or it was completed by a
call that met `P`. -/
inductive Progress (P : OrderEnv → String → Prop) (db : OrderDB) (order : SubscriptionOrder) : OrderRun → Prop
  | pending : Progress P db order ⟨db, []⟩
  | expired (now : Int) : Progress P db order
      ⟨{ db with orders := db.orders.save { order with status := .expired, completeTime := now } }, []⟩
  | completed (e : OrderEnv) (providerPayload actualPaymentMethod : String) (sub : Membership) (db' : OrderDB)
      (h : Completed e db db' order providerPayload actualPaymentMethod sub) (hP : P e actualPaymentMethod) :
      Progress P db order ⟨db', [sub]⟩

section Runs

variable {P : OrderEnv → String → Prop} {db : OrderDB} {order row : SubscriptionOrder}
  {tradeNo : String} {sub : Membership} {s : OrderRun}

theorem step_frozen (hrow : s.db.orders.get tradeNo = some row)
    (hne : row.status ≠ .pending) (c : OrderEnv × OrderCall) : s.step tradeNo c = s := by
  unfold OrderRun.step
  rcases hc : c.2.run c.1 s.db tradeNo with ⟨db', r⟩
  rcases orderCall_cases hc with ⟨rfl, hr⟩ | ⟨_, _, _, _, _, hget, hpend, _⟩ | ⟨_, hget, hpend, _⟩
  · rcases hr with ⟨err, rfl⟩ | rfl <;> rfl
  · cases hrow.symm.trans hget
    exact absurd hpend hne
  · cases hrow.symm.trans hget
    exact absurd hpend hne

theorem run_frozen (hrow : s.db.orders.get tradeNo = some row)
    (hne : row.status ≠ .pending) (calls : List (OrderEnv × OrderCall)) : s.run tradeNo calls = s :=
  foldl_invariant (P := fun s' => s' = s) (fun _ c hs => hs ▸ step_frozen (hs ▸ hrow) hne c) calls rfl

section

variable (horder : db.orders.get tradeNo = some order)

include horder

theorem completed_row {e : OrderEnv} {db' : OrderDB} {providerPayload actualPaymentMethod : String}
    (h : Completed e db db' order providerPayload actualPaymentMethod sub) :
    db'.orders.get tradeNo = some (order.completed e.orderNow providerPayload actualPaymentMethod) := by
  have htrade : order.tradeNo = tradeNo := key_of_get horder
  rw [h.orders]
  exact get_save_of_key horder htrade

theorem expired_row (now : Int) :
    (db.orders.save { order with status := .expired, completeTime := now }).get tradeNo =
      some { order with status := .expired, completeTime := now } := by
  have htrade : order.tradeNo = tradeNo := key_of_get horder
  exact get_save_of_key horder htrade

theorem Progress.step {c : OrderEnv × OrderCall}
    (h : Progress P db order s)
    (hP : ∀ payload expected actual, c.2 = .complete payload expected actual → P c.1 actual) :
    Progress P db order (s.step tradeNo c) := by
  cases h with
  | pending =>
    unfold OrderRun.step
    rcases hc : c.2.run c.1 db tradeNo with ⟨db', r⟩
    rcases orderCall_cases hc with ⟨rfl, hr⟩ | ⟨row, payload, expected, actual, sub, hget, _, hcall,
      rfl, hdone⟩ |
      ⟨row, hget, _, rfl, rfl⟩
    · rcases hr with ⟨err, rfl⟩ | rfl <;> exact .pending
    · cases horder.symm.trans hget
      exact .completed c.1 payload actual sub db' hdone (hP payload expected actual hcall)
    · cases horder.symm.trans hget
      exact .expired _
  | expired now =>
    rw [step_frozen (expired_row horder now) (by simp)]
    exact .expired now
  | completed e payload actual sub db' hdone hok =>
    rw [step_frozen (completed_row horder hdone) (by simp [SubscriptionOrder.completed])]
    exact .completed e payload actual sub db' hdone hok

/-- One of the calls has completed the order, if it is. -/
theorem Progress.run (calls : List (OrderEnv × OrderCall)) :
    Progress (fun e actual => ∃ payload expected, (e, .complete payload expected actual) ∈ calls)
      db order (OrderRun.run tradeNo ⟨db, []⟩ calls) :=
  List.foldlRecOn calls _ .pending fun _ h _ hmem => h.step horder fun payload expected _ hcall =>
    ⟨payload, expected, hcall ▸ hmem⟩

end

theorem newTopUp_paymentMethod (now now' : Int) (payload actual : String) :
    (newTopUp order now).paymentMethod = (order.completed now' payload actual).paymentMethod ↔
      actual = "" ∨ actual = order.paymentMethod := by
  rw [newTopUp, SubscriptionOrder.completed]
  by_cases h : actual = ""
  · simp [h]
  · simp [h, eq_comm]

end Runs

/-- **An order becomes one subscription or none.** After any calls on a pending order its status is
pending, success or expired, and final once it is not pending; one subscription has been stored on
success, and otherwise nothing has changed; a fresh trade number has a record exactly on success,
with the method and the time of the order exactly if the call that completed it keeps them, and all
its columns if it has no provider either. A call that fails changes nothing. -/
theorem subscription_order_completes_once (db : OrderDB) (tradeNo : String)
    (order : SubscriptionOrder) (calls later : List (OrderEnv × OrderCall))
    (horder : db.orders.get tradeNo = some order) (hpending : order.status = .pending) :
    let s := OrderRun.run tradeNo ⟨db, []⟩ calls
    ∃ row, s.db.orders.get tradeNo = some row ∧ row.status ∈ [TopUpStatus.pending, .success, .expired] ∧
      (row.status ≠ .pending → s.run tradeNo later = s) ∧
      (row.status = .success → ∃ sub, s.created = [sub] ∧ s.db.groups.subs.rows = db.groups.subs.rows ++ [sub]) ∧
      (row.status ≠ .success → s.created = [] ∧ s.db.groups = db.groups ∧ s.db.topUps = db.topUps) ∧
      (db.topUps.get tradeNo = none → row.status = .success → ∃ record e payload expected actual,
        s.db.topUps.get tradeNo = some record ∧ (e, .complete payload expected actual) ∈ calls ∧
        record.userId = row.userId ∧ record.money = row.money ∧
        record.createTime = row.createTime ∧ record.status = row.status ∧
        (record.paymentMethod = row.paymentMethod ↔ actual = "" ∨ actual = order.paymentMethod) ∧
        (record.completeTime = row.completeTime ↔ e.recordNow = e.orderNow) ∧
        (RecordMatches row record ↔ order.paymentProvider = .other "" ∧
          record.paymentMethod = row.paymentMethod ∧ record.completeTime = row.completeTime)) ∧
      ∀ e (call : OrderCall) db' err, call.run e s.db tradeNo = (db', .error err) → db' = s.db := by
  intro s
  have htrade : order.tradeNo = tradeNo := key_of_get horder
  have hprogress := Progress.run horder calls
  change Progress _ db order s at hprogress
  clear_value s
  cases hprogress with
  | pending =>
    refine ⟨order, horder, by simp [hpending], fun h => absurd hpending h, fun h => ?_,
      fun _ => ⟨rfl, rfl, rfl⟩, fun _ h => ?_, fun _ _ _ _ h => orderCall_error h⟩
    · cases hpending.symm.trans h
    · cases hpending.symm.trans h
  | expired now =>
    have hrow := expired_row horder now
    exact ⟨_, hrow, by simp, fun h => run_frozen hrow h later, fun h => (by cases h),
      fun _ => ⟨rfl, rfl, rfl⟩, fun _ h => (by cases h), fun _ _ _ _ h => orderCall_error h⟩
  | completed e payload actual sub db' hdone hcall =>
    have hrow := completed_row horder hdone
    refine ⟨_, hrow, by simp [SubscriptionOrder.completed], fun h => run_frozen hrow h later,
      fun _ => ?_, fun h => absurd rfl h, fun hnone _ => ?_, fun _ _ _ _ h => orderCall_error h⟩
    · obtain ⟨plan, _, hp⟩ := hdone.purchased
      exact ⟨sub, rfl, (insert_some hp.inserted).2⟩
    have hrecord := hdone.record (htrade ▸ hnone)
    rw [htrade] at hrecord
    obtain ⟨payload', expected, hmem⟩ := hcall
    refine ⟨_, e, payload', expected, actual, hrecord, hmem, rfl, rfl, rfl, rfl,
      newTopUp_paymentMethod .., .rfl, fun h => ?_, ?_⟩
    · exact ⟨h.paymentProvider.symm, h.paymentMethod, h.completeTime⟩
    · rintro ⟨hprovider, hmethod, htime⟩
      exact ⟨rfl, rfl, rfl, hmethod, hprovider.symm, rfl, htime, rfl⟩

/-! ## A small order -/

/-- A plan of thirty days that leads into the group `vip`. -/
def vipPlan : PurchasePlan where
  id := 3
  title := "vip"
  quotaResetPeriod := .never
  quotaResetCustomSeconds := 0
  durationFits := duration_zero
  durationUnit := .day
  durationValue := 30
  customSeconds := 0
  maxPurchasePerUser := 0
  upgradeGroup := "vip"
  totalAmount := 100

/-- Years of 365 days and months of 30. -/
def plainCalendar : PurchaseCalendar where
  cal := utcCalendar
  addDate t years months := t + years * 31536000 + months * 2592000
  lt_addDate t years months hy hm hpos := by omega

/-- Nothing fails, and the plan is found. -/
def quietOrderEnv : OrderEnv where
  purchase := ⟨plainCalendar, 100, 1, fun _ => none⟩
  plan := .ok vipPlan
  recordNow := 100
  orderNow := 100
  fault _ := none

def smallOrder (provider : PaymentProvider) : SubscriptionOrder where
  userId := 1
  planId := 3
  money := 10
  tradeNo := "S1"
  paymentMethod := "alipay"
  paymentProvider := provider
  status := .pending
  createTime := 90
  completeTime := 0
  providerPayload := ""

def smallOrders (provider : PaymentProvider) : OrderDB where
  groups := ⟨⟨[], by simp⟩, fun id => if id = 1 then some "default" else none⟩
  orders := ⟨[smallOrder provider], by simp⟩
  topUps := ⟨[], by simp⟩

/-- Two webhooks and a late expiry. -/
def smallOrderCalls (actualPaymentMethod : String) : List (OrderEnv × OrderCall) :=
  [(quietOrderEnv, .complete "" none actualPaymentMethod), (quietOrderEnv, .complete "" none actualPaymentMethod),
    (quietOrderEnv, .expire none)]

/-- The order, the record and the subscriptions after the three calls. -/
def smallOrderEnd (provider : PaymentProvider) (actualPaymentMethod : String) : OrderRun :=
  OrderRun.run "S1" ⟨smallOrders provider, []⟩ (smallOrderCalls actualPaymentMethod)

/-- Completed under its own method, an Epay order has a record with its method and time; an order
without a provider has one that matches it. -/
theorem plain_order_recorded :
    (∃ row record, (smallOrderEnd .epay "").db.orders.get "S1" = some row ∧
      (smallOrderEnd .epay "").db.topUps.get "S1" = some record ∧
      record.paymentMethod = row.paymentMethod ∧ record.completeTime = row.completeTime) ∧
    ∃ row record, (smallOrderEnd (.other "") "").db.orders.get "S1" = some row ∧
      (smallOrderEnd (.other "") "").db.topUps.get "S1" = some record ∧
      (smallOrderEnd (.other "") "").created.length = 1 ∧ RecordMatches row record := by
  have hends : ∀ provider, ∃ row record,
      (smallOrderEnd provider "").db.orders.get "S1" = some row ∧
      (smallOrderEnd provider "").db.topUps.get "S1" = some record ∧
      record.paymentMethod = row.paymentMethod ∧ record.completeTime = row.completeTime ∧
      (provider = .other "" → RecordMatches row record) := by
    intro provider
    obtain ⟨row, hrow, _, _, _, _, hrecord, _⟩ := subscription_order_completes_once
      (smallOrders provider) "S1" (smallOrder provider) (smallOrderCalls "") [] rfl rfl
    have hstatus : row.status = .success := by
      cases hrow
      rfl
    obtain ⟨record, e, _, _, actual, hget, hmem, _, _, _, _, hmethod, htime, hmatch⟩ :=
      hrecord rfl hstatus
    have hcall : e = quietOrderEnv ∧ actual = "" := by
      simp [smallOrderCalls] at hmem
      exact ⟨hmem.1, hmem.2.2.2⟩
    obtain ⟨rfl, rfl⟩ := hcall
    have hmethods := hmethod.mpr (.inl rfl)
    have htimes := htime.mpr rfl
    exact ⟨row, record, hrow, hget, hmethods, htimes, fun h => hmatch.mpr ⟨h, hmethods, htimes⟩⟩
  obtain ⟨row, record, hrow, hrecord, hmethod, htime, -⟩ := hends .epay
  obtain ⟨row', record', hrow', hrecord', -, -, hmatch⟩ := hends (.other "")
  exact ⟨⟨row, record, hrow, hrecord, hmethod, htime⟩, row', record', hrow', hrecord', rfl, hmatch rfl⟩

/-- An Epay order for Alipay that was paid by WeChat: its record says Alipay and has no provider. -/
theorem record_differs_from_order : let s := smallOrderEnd .epay "wxpay"
    (s.db.orders.get "S1").map (fun o => (o.status, o.paymentMethod, o.paymentProvider)) =
      some (.success, "wxpay", .epay) ∧
    (s.db.topUps.get "S1").map (fun t => (t.paymentMethod, t.paymentProvider)) = some ("alipay", .other "") ∧
    ∀ row record, s.db.orders.get "S1" = some row → s.db.topUps.get "S1" = some record →
      ¬ RecordMatches row record := by
  intro s
  have horder : (s.db.orders.get "S1").map (fun o => (o.status, o.paymentMethod, o.paymentProvider)) =
      some (.success, "wxpay", .epay) := by decide +kernel
  have htopUp : (s.db.topUps.get "S1").map (fun t => (t.paymentMethod, t.paymentProvider)) =
      some ("alipay", .other "") := by decide +kernel
  refine ⟨horder, htopUp, fun row record hrow hrecord h => ?_⟩
  rw [hrow] at horder
  rw [hrecord] at htopUp
  simp only [Option.map_some, Option.some.injEq, Prod.mk.injEq] at horder htopUp
  have := h.paymentMethod
  rw [horder.2.1, htopUp.1] at this
  revert this
  decide

end NewApi.Subscription
