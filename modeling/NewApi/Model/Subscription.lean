import NewApi.Lib.Int64
import NewApi.Lib.Table
import NewApi.Lib.Run
import NewApi.Lib.Text

/-!
# Subscription quota (`model/subscription.go`)

The tables `user_subscriptions` and `subscription_pre_consume_records` and the transactions
that move `AmountUsed`:

* `preConsumeUserSubscription` — idempotent charge by request id; candidates are scanned in
  `end_time, id` order with due resets on the way.
* `postConsumeUserSubscriptionDelta` — signed adjustment, clamped at zero, rejected above the
  total.
* `resetDueTx`, `resetDueSubscriptions` — the background reset, one transaction a subscription.

Every statement of a transaction can fail: `Faults` assigns an error text to the statements
that do. Quota amounts are unbounded integers. The Go `time` package enters through
`Calendar`: the starts of the next local day, week and month, which lie strictly later.
-/

namespace NewApi.Subscription

open NewApi.Text

/-- Which statements fail, and with which error text. -/
abbrev Faults (stmt : Type) := stmt → Option String

/-- `QuotaResetPeriod` after `NormalizeResetPeriod` (any other text counts as `never`). -/
inductive ResetPeriod where
  | never
  | daily
  | weekly
  | monthly
  | custom
  deriving DecidableEq, Repr

/-- The fields of `SubscriptionPlan` that a reset and a session read. -/
structure SubscriptionPlan where
  id : Int
  title : String
  quotaResetPeriod : ResetPeriod
  quotaResetCustomSeconds : Int
  /-- A longer custom period overflows a `time.Duration`, and the reset loop need not end. -/
  durationFits : quotaResetCustomSeconds * 1000000000 < 2 ^ 63
  deriving DecidableEq, Repr

inductive SubscriptionStatus where
  | active
  | expired
  | cancelled
  deriving DecidableEq, Repr

structure UserSubscription where
  id : Int
  userId : Int
  planId : Int
  amountTotal : Int
  amountUsed : Int
  startTime : Int
  endTime : Int
  status : SubscriptionStatus
  lastResetTime : Int
  nextResetTime : Int
  deriving DecidableEq, Repr

inductive RecordStatus where
  | consumed
  | refunded
  deriving DecidableEq, Repr

structure SubscriptionPreConsumeRecord where
  requestId : String
  userId : Int
  userSubscriptionId : Int
  preConsumed : Int
  status : RecordStatus
  deriving DecidableEq, Repr

/-- The rows the subscription code reads and writes. -/
structure DB where
  subs : Table Int UserSubscription UserSubscription.id
  records : Table String SubscriptionPreConsumeRecord SubscriptionPreConsumeRecord.requestId
  plans : Int → Option SubscriptionPlan

/-- `AmountUsed` of a subscription; `0` when there is no such row. -/
def DB.usedOf (db : DB) (id : Int) : Int := ((db.subs.get id).map (·.amountUsed)).getD 0

/-! ## Period reset -/

/-- The calendar arithmetic of the Go `time` package in the server's time zone. -/
structure Calendar where
  startOfNextDay : Int → Int
  startOfNextWeek : Int → Int
  startOfNextMonth : Int → Int
  lt_startOfNextDay : ∀ t, t < startOfNextDay t
  lt_startOfNextWeek : ∀ t, t < startOfNextWeek t
  lt_startOfNextMonth : ∀ t, t < startOfNextMonth t

/-- `base.Add(time.Duration(seconds) * time.Second).Unix()`, with the duration in nanoseconds. -/
def addSeconds (base seconds : Int) : Int := base + int64 (seconds * 1000000000) / 1000000000

/-- `calcNextResetTime`; `0` means that no further reset is due before the end. -/
def calcNextResetTime (cal : Calendar) (base : Int) (plan : SubscriptionPlan) (endUnix : Int) :
    Int :=
  let clip := fun next => if 0 < endUnix ∧ endUnix < next then 0 else next
  match plan.quotaResetPeriod with
  | .never => 0
  | .daily => clip (cal.startOfNextDay base)
  | .weekly => clip (cal.startOfNextWeek base)
  | .monthly => clip (cal.startOfNextMonth base)
  | .custom =>
    if plan.quotaResetCustomSeconds ≤ 0 then 0 else clip (addSeconds base plan.quotaResetCustomSeconds)

/-- The catch-up loop `for next > 0 && next <= now`: `(base, next, advanced)`. -/
def advanceReset (cal : Calendar) (plan : SubscriptionPlan) (endTime now : Int) :
    Nat → Int → Int → Bool → Int × Int × Bool
  | 0, base, next, advanced => (base, next, advanced)
  | fuel + 1, base, next, advanced =>
    if 0 < next ∧ next ≤ now then
      advanceReset cal plan endTime now fuel next (calcNextResetTime cal next plan endTime) true
    else (base, next, advanced)

/-- The instant a reset is counted from. -/
def resetBase (sub : UserSubscription) : Int :=
  if sub.lastResetTime ≤ 0 then sub.startTime else sub.lastResetTime

/-- The loop of `maybeResetUserSubscriptionWithPlanTx`. Every round moves `base` forward by a second
at least, so `now - base` rounds and one more suffice. -/
def catchUp (cal : Calendar) (sub : UserSubscription) (plan : SubscriptionPlan) (now : Int) :
    Int × Int × Bool :=
  advanceReset cal plan sub.endTime now ((now - resetBase sub).toNat + 1) (resetBase sub)
    (calcNextResetTime cal (resetBase sub) plan sub.endTime) false

/-- The guards in front of the loop. -/
def resetConsidered (sub : UserSubscription) (plan : SubscriptionPlan) (now : Int) : Bool :=
  !decide (0 < sub.nextResetTime ∧ now < sub.nextResetTime) && decide (plan.quotaResetPeriod ≠ .never)

/-- Does the period roll over at `now`? -/
def resetFires (cal : Calendar) (sub : UserSubscription) (plan : SubscriptionPlan) (now : Int) :
    Bool :=
  resetConsidered sub plan now && (catchUp cal sub plan now).2.2

/-- The row that `maybeResetUserSubscriptionWithPlanTx` saves, if it saves one. -/
def resetRow (cal : Calendar) (sub : UserSubscription) (plan : SubscriptionPlan) (now : Int) :
    Option UserSubscription :=
  if !resetConsidered sub plan now then none
  else
    match catchUp cal sub plan now with
    | (base, next, advanced) =>
      if !advanced then
        if sub.nextResetTime = 0 ∧ 0 < next then
          some { sub with nextResetTime := next, lastResetTime := base }
        else none
      else some { sub with amountUsed := 0, lastResetTime := base, nextResetTime := next }

/-- `maybeResetUserSubscriptionWithPlanTx`: the database and the row held in memory. -/
def maybeResetUserSubscriptionWithPlanTx (cal : Calendar) (saveErr : Option String) (db : DB)
    (sub : UserSubscription) (plan : SubscriptionPlan) (now : Int) :
    Except String (DB × UserSubscription) :=
  match resetRow cal sub plan now with
  | none => .ok (db, sub)
  | some row =>
    match saveErr with
    | some e => .error e
    | none => .ok ({ db with subs := db.subs.save row }, row)

/-! ## Pre-consume -/

structure SubscriptionPreConsumeResult where
  userSubscriptionId : Int
  preConsumed : Int
  amountTotal : Int
  amountUsedBefore : Int
  amountUsedAfter : Int
  deriving DecidableEq, Repr

/-- The statements of `PreConsumeUserSubscription`; those of the loop carry the candidate. -/
inductive PreConsumeStmt where
  | findRecord
  | findExistingSub
  | findSubs
  | findPlan (sub : Int)
  | saveReset (sub : Int)
  | createRecord (sub : Int)
  | findDup (sub : Int)
  | saveSub (sub : Int)
  | commit
  deriving DecidableEq, Repr

def getSubscriptionPlanByIdTx (err : Option String) (db : DB) (id : Int) :
    Except String SubscriptionPlan :=
  if id ≤ 0 then .error "invalid plan id"
  else
    match err, db.plans id with
    | some e, _ => .error e
    | none, none => .error "record not found"
    | none, some plan => .ok plan

/-- `Where("user_id = ? AND status = ? AND end_time > ?").Order("end_time asc, id asc")`. -/
def activeSubscriptions (db : DB) (userId now : Int) : List UserSubscription :=
  (db.subs.rows.filter (fun s => decide (s.userId = userId ∧ s.status = .active ∧ now < s.endTime))).insertionSort
    (fun a b => a.endTime < b.endTime ∨ (a.endTime = b.endTime ∧ a.id ≤ b.id))

/-- The loop body after the quota check: create the record, then charge the candidate. When
the insert fails, the record that is there decides. -/
def chargeCandidate (fault : Faults PreConsumeStmt) (requestId : String) (userId amount : Int)
    (db : DB) (sub : UserSubscription) : Except String (DB × SubscriptionPreConsumeResult) :=
  match fault (.createRecord sub.id), db.records.insert ⟨requestId, userId, sub.id, amount, .consumed⟩ with
  | none, some records =>
    match fault (.saveSub sub.id) with
    | some e => .error e
    | none =>
      .ok ({ db with
              records := records
              subs := db.subs.save { sub with amountUsed := sub.amountUsed + amount } },
        { userSubscriptionId := sub.id, preConsumed := amount, amountTotal := sub.amountTotal,
          amountUsedBefore := sub.amountUsed, amountUsedAfter := sub.amountUsed + amount })
  | createErr, _ =>
    match fault (.findDup sub.id), db.records.get requestId with
    | none, some dup =>
      if dup.status = .refunded then .error "subscription pre-consume already refunded"
      else
        .ok (db,
          { userSubscriptionId := sub.id, preConsumed := dup.preConsumed,
            amountTotal := sub.amountTotal, amountUsedBefore := sub.amountUsed,
            amountUsedAfter := sub.amountUsed })
    | _, _ => .error (createErr.getD "UNIQUE constraint failed: request_id")

def scanCandidates (cal : Calendar) (fault : Faults PreConsumeStmt) (requestId : String)
    (userId amount now : Int) :
    List UserSubscription → DB → Except String (DB × SubscriptionPreConsumeResult)
  | [], _ => .error ("subscription quota insufficient, need=" ++ toString amount)
  | candidate :: rest, db =>
    match getSubscriptionPlanByIdTx (fault (.findPlan candidate.id)) db candidate.planId with
    | .error e => .error e
    | .ok plan =>
      match maybeResetUserSubscriptionWithPlanTx cal (fault (.saveReset candidate.id)) db candidate plan now with
      | .error e => .error e
      | .ok (db', sub) =>
        if 0 < sub.amountTotal ∧ sub.amountTotal - sub.amountUsed < amount then
          scanCandidates cal fault requestId userId amount now rest db'
        else chargeCandidate fault requestId userId amount db' sub

def preConsumeBody (cal : Calendar) (fault : Faults PreConsumeStmt) (requestId : String)
    (userId amount now : Int) (db : DB) : Except String (DB × SubscriptionPreConsumeResult) :=
  match fault .findRecord with
  | some e => .error e
  | none =>
    match db.records.get requestId with
    | some existing =>
      if existing.status = .refunded then .error "subscription pre-consume already refunded"
      else
        match fault .findExistingSub, db.subs.get existing.userSubscriptionId with
        | some e, _ => .error e
        | none, none => .error "record not found"
        | none, some sub =>
          .ok (db,
            { userSubscriptionId := sub.id, preConsumed := existing.preConsumed,
              amountTotal := sub.amountTotal, amountUsedBefore := sub.amountUsed,
              amountUsedAfter := sub.amountUsed })
    | none =>
      match fault .findSubs, activeSubscriptions db userId now with
      | some _, _ => .error "no active subscription"
      | none, [] => .error "no active subscription"
      | none, subs => scanCandidates cal fault requestId userId amount now subs db

def preConsumeUserSubscription (cal : Calendar) (fault : Faults PreConsumeStmt) (db : DB)
    (requestId : String) (userId amount now : Int) :
    DB × Except String SubscriptionPreConsumeResult :=
  if userId ≤ 0 then (db, .error "invalid userId")
  else if isBlank requestId then (db, .error "requestId is empty")
  else if amount ≤ 0 then (db, .error "amount must be > 0")
  else transaction (fault .commit) db (preConsumeBody cal fault requestId userId amount now)

/-! ## Signed adjustment -/

inductive DeltaStmt where
  | findSub
  | saveSub
  | commit
  deriving DecidableEq, Repr

/-- `newUsed` of `PostConsumeUserSubscriptionDelta`, after the clamp. -/
def clampedUsed (used delta : Int) : Int := if used + delta < 0 then 0 else used + delta

def deltaBody (fault : Faults DeltaStmt) (userSubscriptionId delta : Int) (db : DB) :
    Except String (DB × Unit) :=
  match fault .findSub, db.subs.get userSubscriptionId with
  | some e, _ => .error e
  | none, none => .error "record not found"
  | none, some sub =>
    if 0 < sub.amountTotal ∧ sub.amountTotal < clampedUsed sub.amountUsed delta then
      .error ("subscription used exceeds total, used=" ++ toString (clampedUsed sub.amountUsed delta) ++
        " total=" ++ toString sub.amountTotal)
    else
      match fault .saveSub with
      | some e => .error e
      | none =>
        .ok ({ db with subs := db.subs.save { sub with amountUsed := clampedUsed sub.amountUsed delta } }, ())

def postConsumeUserSubscriptionDelta (fault : Faults DeltaStmt) (db : DB)
    (userSubscriptionId delta : Int) : DB × Except String Unit :=
  if userSubscriptionId ≤ 0 then (db, .error "invalid userSubscriptionId")
  else if delta = 0 then (db, .ok ())
  else transaction (fault .commit) db (deltaBody fault userSubscriptionId delta)

/-! ## Refund by request id -/

inductive RefundStmt where
  | findRecord
  | saveRecord
  | commit
  deriving DecidableEq, Repr

/-- The faults of one `RefundSubscriptionPreConsume` call: those of the outer transaction and
those of the transaction that the delta helper opens. -/
structure RefundFaults where
  outer : Faults RefundStmt
  delta : Faults DeltaStmt

def RefundFaults.none : RefundFaults := ⟨fun _ => .none, fun _ => .none⟩

/-- `record.Status = "refunded"; return tx.Save(&record).Error` and the outer commit, whose failure
undoes only what the outer transaction wrote. -/
def markRefunded (fault : Faults RefundStmt) (db : DB) (record : SubscriptionPreConsumeRecord) :
    DB × Except String Unit :=
  transaction (fault .commit) db fun db =>
    match fault .saveRecord with
    | some e => .error e
    | none => .ok ({ db with records := db.records.save { record with status := .refunded } }, ())

/-- `RefundSubscriptionPreConsume`. The delta helper commits on its own: its effect stays when the
outer transaction rolls back. -/
def refundSubscriptionPreConsume (fault : RefundFaults) (db : DB) (requestId : String) :
    DB × Except String Unit :=
  if isBlank requestId then (db, .error "requestId is empty")
  else
    match fault.outer .findRecord, db.records.get requestId with
    | some e, _ => (db, .error e)
    | none, none => (db, .error "record not found")
    | none, some record =>
      if record.status = .refunded then
        transaction (fault.outer .commit) db fun db => .ok (db, ())
      else if record.preConsumed ≤ 0 then markRefunded fault.outer db record
      else
        match postConsumeUserSubscriptionDelta fault.delta db record.userSubscriptionId (-record.preConsumed) with
        | (db', .error e) => (db', .error e)
        | (db', .ok ()) => markRefunded fault.outer db' record

/-! ## Background reset -/

inductive ResetStmt where
  | findSub
  | saveSub
  | commit
  deriving DecidableEq, Repr

/-- `id = ? AND next_reset_time > 0 AND next_reset_time <= ?`. -/
def resetDue (sub : UserSubscription) (now : Int) : Bool :=
  decide (0 < sub.nextResetTime ∧ sub.nextResetTime ≤ now)

/-- The transaction of `ResetDueSubscriptions` for one subscription, with the plan read before; the
flag says whether `resetCount` is raised. A row that is gone or no longer due is skipped. -/
def resetDueBody (cal : Calendar) (fault : Faults ResetStmt) (id : Int) (plan : SubscriptionPlan)
    (now : Int) (db : DB) : Except String (DB × Bool) :=
  match fault .findSub, db.subs.get id with
  | none, some locked =>
    if resetDue locked now then
      match maybeResetUserSubscriptionWithPlanTx cal (fault .saveSub) db locked plan now with
      | .error e => .error e
      | .ok (db', _) => .ok (db', true)
    else .ok (db, false)
  | _, _ => .ok (db, false)

def resetDueTx (cal : Calendar) (fault : Faults ResetStmt) (db : DB) (id : Int)
    (plan : SubscriptionPlan) (now : Int) : DB × Except String Bool :=
  transaction (fault .commit) db (resetDueBody cal fault id plan now)

/-- The loop of `ResetDueSubscriptions`: `(db, resetCount, err)`. A failed commit does not take the
counter back. -/
def resetLoop (cal : Calendar)
    (planErr : Int → Option String) (fault : Int → Faults ResetStmt) (now : Int) :
    List UserSubscription → DB → Nat → DB × Nat × Except String Unit
  | [], db, n => (db, n, .ok ())
  | sub :: rest, db, n =>
    match getSubscriptionPlanByIdTx (planErr sub.planId) db sub.planId with
    | .error _ => resetLoop cal planErr fault now rest db n
    | .ok plan =>
      let n' := match resetDueBody cal (fault sub.id) sub.id plan now db with
        | .ok (_, true) => n + 1
        | _ => n
      match resetDueTx cal (fault sub.id) db sub.id plan now with
      | (db', .error e) => (db', n', .error e)
      | (db', .ok _) => resetLoop cal planErr fault now rest db' n'

def resetDueSubscriptions (cal : Calendar) (findErr : Option String) (planErr : Int → Option String)
    (fault : Int → Faults ResetStmt) (db : DB) (limit now : Int) : DB × Nat × Except String Unit :=
  match findErr with
  | some e => (db, 0, .error e)
  | none =>
    let due := db.subs.rows.filter (fun s => resetDue s now && decide (s.status = .active))
    let sorted := due.insertionSort (fun a b => a.nextResetTime ≤ b.nextResetTime)
    resetLoop cal planErr fault now (sorted.take (if limit ≤ 0 then 200 else limit.toNat)) db 0

end NewApi.Subscription
