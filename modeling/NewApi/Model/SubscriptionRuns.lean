import NewApi.Model.SubscriptionSpec

/-!
# Runs of the subscription transactions

Any finite interleaving of the four kinds of transaction, in any order and with any statement
failing, over any set of subscriptions:

* `Op`, `step`, `run` — one serialised transaction, and a run.
* `audit_once` — the log holds a request id at most once, and the record of that id names the
  subscription and the amount.
* `resetDueSubscriptions_run` — the background job is a run of single resets.
-/

namespace NewApi.Subscription

open Table

/-- One transaction. The `plan` of a background reset was read before the transaction. The
`origin` of a delta is the request it settles; the code does not see it. -/
inductive Op where
  | preConsume (fault : Faults PreConsumeStmt) (requestId : String) (userId amount now : Int)
  | refund (fault : RefundFaults) (requestId : String)
  | delta (fault : Faults DeltaStmt) (origin : String) (id delta : Int)
  | reset (fault : Faults ResetStmt) (id : Int) (plan : SubscriptionPlan) (now : Int)

/-- A refund whose two commits are one: a call that fails leaves nothing behind. -/
def refundAtomic (fault : RefundFaults) (db : DB) (requestId : String) : DB :=
  match refundSubscriptionPreConsume fault db requestId with
  | (db', .ok _) => db'
  | (_, .error _) => db

def step (cal : Calendar) (db : DB) : Op → DB
  | .preConsume fault requestId userId amount now =>
    (preConsumeUserSubscription cal fault db requestId userId amount now).1
  | .refund fault requestId => refundAtomic fault db requestId
  | .delta fault _ id delta => (postConsumeUserSubscriptionDelta fault db id delta).1
  | .reset fault id plan now => (resetDueTx cal fault db id plan now).1

def run (cal : Calendar) (db : DB) (ops : List Op) : DB := ops.foldl (step cal) db

/-- The amount of a record that is consumed and not refunded, if it is of subscription `id`. -/
def SubscriptionPreConsumeRecord.openAmount (id : Int) (r : SubscriptionPreConsumeRecord) : Int :=
  if r.userSubscriptionId = id ∧ r.status = .consumed then r.preConsumed else 0

/-- The amounts of the consumed-and-not-refunded records of a subscription. -/
def DB.openOf (db : DB) (id : Int) : Int := db.records.total (·.openAmount id)

structure Charge where
  requestId : String
  userSubscriptionId : Int
  amount : Int
  deriving DecidableEq, Repr

/-- The charge a step makes: a pre-consume that returns a result for an id without a record. -/
def chargeBy (cal : Calendar) (db : DB) : Op → Option Charge
  | .preConsume fault requestId userId amount now =>
    match db.records.get requestId,
      (preConsumeUserSubscription cal fault db requestId userId amount now).2 with
    | none, .ok res => some ⟨requestId, res.userSubscriptionId, res.preConsumed⟩
    | _, _ => none
  | _ => none

/-- The delta a step applies to subscription `id`. -/
def appliedBy (db : DB) (id : Int) : Op → Int
  | .delta fault _ i delta =>
    if i = id then
      match (postConsumeUserSubscriptionDelta fault db i delta).2 with
      | .ok _ => delta
      | .error _ => 0
    else 0
  | _ => 0

/-- The database with what an auditor writes down next to it. -/
structure Audit where
  db : DB
  charges : List Charge
  applied : Int → Int

def Audit.start (db : DB) : Audit := ⟨db, [], fun _ => 0⟩

def Audit.step (cal : Calendar) (a : Audit) (op : Op) : Audit where
  db := Subscription.step cal a.db op
  charges := a.charges ++ (chargeBy cal a.db op).toList
  applied := fun id => a.applied id + appliedBy a.db id op

def audit (cal : Calendar) (db : DB) (ops : List Op) : Audit :=
  ops.foldl (Audit.step cal) (Audit.start db)

/-! ## One step -/

section Step

variable {cal : Calendar} {db : DB}

theorem chargeBy_cases (cal : Calendar) (db : DB) (fault : Faults PreConsumeStmt)
    (requestId : String) (userId amount now : Int) :
    (chargeBy cal db (.preConsume fault requestId userId amount now) = none ∧
      step cal db (.preConsume fault requestId userId amount now) = db) ∨
    (0 < amount ∧ ∃ chosen, chargeBy cal db (.preConsume fault requestId userId amount now) =
        some ⟨requestId, chosen.id, amount⟩ ∧
      Charged cal now db (step cal db (.preConsume fault requestId userId amount now)) requestId
        userId amount chosen) := by
  simp only [chargeBy, step]
  rcases hp : preConsumeUserSubscription cal fault db requestId userId amount now with ⟨db', r⟩
  rcases preConsume_cases hp with ⟨rfl, e, rfl⟩ | ⟨rfl, old, sub, hold, _, _, rfl⟩ | ⟨_, ha, _,
    chosen, hch, rfl⟩
  · left
    cases db'.records.get requestId <;> exact ⟨rfl, rfl⟩
  · left
    simp [hold]
  right
  simp only [hch.fresh]
  exact ⟨ha, chosen, rfl, hch⟩

/-- **Everything an atomic refund can do.** -/
theorem refundAtomic_cases (fault : RefundFaults) (requestId : String) (hv : db.Valid) :
    refundAtomic fault db requestId = db ∨
    ∃ record sub, db.records.get requestId = some record ∧ record.status = .consumed ∧
      db.subs.get record.userSubscriptionId = some sub ∧
      (∀ id, (refundAtomic fault db requestId).usedOf id = if record.userSubscriptionId = id then
        clampedUsed sub.amountUsed (-record.preConsumed) else db.usedOf id) ∧
      refundAtomic fault db requestId =
        { db with
          subs := db.subs.save { sub with amountUsed := clampedUsed sub.amountUsed (-record.preConsumed) }
          records := db.records.save { record with status := .refunded } } := by
  unfold refundAtomic
  cases hr : refundSubscriptionPreConsume fault db requestId with
  | mk db' r =>
    rcases r with e | u
    · exact .inl rfl
    rcases refund_cases hr with ⟨_, e, he⟩ | ⟨record, hrec,
      ⟨rfl, _⟩ | ⟨_, hpre, _⟩ | ⟨hcons, hpre, db₁, hd, hend⟩⟩
    · cases he
    · exact .inl rfl
    · have := hv.records record (mem_of_get hrec)
      omega
    right
    rcases hend with ⟨_, e, he⟩ | ⟨_, rfl⟩
    · cases he
    rcases delta_cases hd with ⟨_, e, he⟩ | ⟨_, h0, _⟩ | ⟨_, _, sub, hsub, _, rfl⟩
    · cases he
    · omega
    · exact ⟨record, sub, hrec, hcons, hsub, usedOf_setUsed hsub rfl, rfl⟩

theorem step_valid (hv : db.Valid) (op : Op) : (step cal db op).Valid := by
  cases op with
  | preConsume fault requestId userId amount now => exact preConsume_valid rfl hv
  | delta fault origin id delta => exact delta_valid rfl hv
  | reset fault id plan now => exact resetDueTx_valid rfl hv
  | refund fault requestId =>
    simp only [step]
    unfold refundAtomic
    cases hr : refundSubscriptionPreConsume fault db requestId with
    | mk db' r =>
      cases r with
      | error e => exact hv
      | ok u => exact refund_valid hr hv

theorem step_keeps_record (hv : db.Valid) (op : Op) {requestId : String}
    {record : SubscriptionPreConsumeRecord} (hrec : db.records.get requestId = some record) :
    ∃ record', (step cal db op).records.get requestId = some record' ∧
      record'.userSubscriptionId = record.userSubscriptionId ∧
      record'.preConsumed = record.preConsumed := by
  cases op with
  | preConsume fault r userId amount now =>
    rcases chargeBy_cases cal db fault r userId amount now with ⟨_, hdb⟩ | ⟨_, chosen, _, hch⟩
    · rw [hdb]; exact ⟨record, hrec, rfl, rfl⟩
    have hne : requestId ≠ r := by
      intro he
      rw [he, hch.fresh] at hrec
      cases hrec
    exact ⟨record, by rw [get_insert_ne hch.records hne]; exact hrec, rfl, rfl⟩
  | refund fault r =>
    simp only [step]
    rcases refundAtomic_cases fault r hv with hdb | ⟨record₁, sub, hrec₁, _, _, _, hdb⟩
    · rw [hdb]; exact ⟨record, hrec, rfl, rfl⟩
    rw [hdb]
    by_cases hid : requestId = record₁.requestId
    · have hr : r = requestId := (key_of_get hrec₁).symm.trans hid.symm
      subst hr
      rw [hrec] at hrec₁
      cases hrec₁
      have hkey : record.requestId = r := key_of_get hrec
      exact ⟨_, get_save_of_key hrec hkey, rfl, rfl⟩
    · refine ⟨record, ?_, rfl, rfl⟩
      refine (get_save_ne db.records ?_).trans hrec
      exact hid
  | delta fault origin id delta =>
    simp only [step]
    rcases delta_cases (Prod.eta (postConsumeUserSubscriptionDelta fault db id delta)).symm with
      ⟨hdb, _⟩ | ⟨hdb, _⟩ | ⟨_, _, sub, _, _, hdb⟩ <;>
      exact ⟨record, by rw [hdb]; exact hrec, rfl, rfl⟩
  | reset fault id plan now =>
    simp only [step]
    rcases resetDueTx_cases (Prod.eta (resetDueTx cal fault db id plan now)).symm with
      hdb | ⟨sub, _, _, hdb⟩ <;>
      exact ⟨record, by rw [hdb]; exact hrec, rfl, rfl⟩

end Step

/-! ## The accounting equation -/

/-- What a refund of `requestId` would return to subscription `id`. -/
def DB.refundable (db : DB) (requestId : String) (id : Int) : Int :=
  match db.records.get requestId with
  | some record => record.openAmount id
  | none => 0

/-- No negative delta and no refund is larger than the amount `id` has used at that moment. -/
def covered (db : DB) (id : Int) : Op → Bool
  | .delta _ _ i delta => decide (i = id → 0 ≤ db.usedOf id + delta)
  | .refund _ requestId => decide (db.refundable requestId id ≤ db.usedOf id)
  | _ => true

section Balance

variable {cal : Calendar} {db : DB} {record : SubscriptionPreConsumeRecord}

theorem openAmount_consumed (id : Int) (h : record.status = .consumed) :
    record.openAmount id = if record.userSubscriptionId = id then record.preConsumed else 0 := by
  simp [SubscriptionPreConsumeRecord.openAmount, h]

theorem openOf_insert {records : Table String SubscriptionPreConsumeRecord SubscriptionPreConsumeRecord.requestId} (h : db.records.insert record = some records) (id : Int) :
    records.total (·.openAmount id) = db.openOf id + record.openAmount id :=
  total_insert h _

theorem openOf_refunded {requestId : String} (h : db.records.get requestId = some record)
    (id : Int) :
    (db.records.save { record with status := .refunded }).total (·.openAmount id) =
      db.openOf id - record.openAmount id := by
  have hk : record.requestId = requestId := key_of_get h
  have hsum : (db.records.save { record with status := .refunded }).total (·.openAmount id) =
      db.records.total (·.openAmount id) - record.openAmount id +
        ({ record with status := .refunded } : SubscriptionPreConsumeRecord).openAmount id :=
    total_save h (by exact hk) _
  have hzero : ({ record with status := .refunded } : SubscriptionPreConsumeRecord).openAmount id = 0 := by
    unfold SubscriptionPreConsumeRecord.openAmount
    rw [if_neg]
    rintro ⟨_, hs⟩
    cases hs
  rw [hzero, add_zero] at hsum
  exact hsum

/-- **The accounting equation of one step**: within a period, with nothing clamped, the used amount
moves with the open records and the deltas. -/
theorem step_balance (hv : db.Valid) (op : Op) {id : Int}
    (hp : (step cal db op).period id = db.period id) (hc : covered db id op = true) :
    (step cal db op).usedOf id - (step cal db op).openOf id =
      db.usedOf id - db.openOf id + appliedBy db id op := by
  cases op with
  | preConsume fault r userId amount now =>
    rcases chargeBy_cases cal db fault r userId amount now with ⟨_, hdb⟩ | ⟨_, chosen, _, hch⟩
    · rw [hdb]; simp [appliedBy]
    have hopen := openOf_insert hch.records id
    have hused := hch.usedOf hp
    rw [openAmount_consumed id rfl] at hopen
    simp only [appliedBy]
    unfold DB.openOf at hopen ⊢
    rw [hopen, hused]
    ring
  | refund fault r =>
    simp only [step, appliedBy]
    rcases refundAtomic_cases fault r hv with hdb | ⟨record, sub, hrec, hcons, hsub, hused, hdb⟩
    · rw [hdb]; simp
    · -- the record was open, so `covered` bounds its amount and nothing is clamped
      have hopen := openOf_refunded hrec id
      simp only [covered, DB.refundable, hrec, openAmount_consumed id hcons,
        decide_eq_true_eq] at hc
      rw [openAmount_consumed id hcons] at hopen
      have hopen' : (refundAtomic fault db r).openOf id =
          db.openOf id - if record.userSubscriptionId = id then record.preConsumed else 0 := by
        rw [hdb]; exact hopen
      rw [hused, hopen']
      split at hc
      · rename_i hid
        subst hid
        have hsubused := usedOf_of_get hsub
        rw [if_pos rfl, if_pos rfl, clampedUsed_eq (by omega)]
        omega
      · omega
  | delta fault origin i d =>
    simp only [step, appliedBy, covered, decide_eq_true_eq] at hc ⊢
    rcases hd : postConsumeUserSubscriptionDelta fault db i d with ⟨db', r⟩
    rcases delta_cases hd with ⟨rfl, e, rfl⟩ | ⟨rfl, rfl, rfl⟩ | ⟨_, rfl, sub, hsub, _, rfl⟩
    · simp
    · simp
    have hused : DB.usedOf { db with subs := db.subs.save { sub with amountUsed := clampedUsed sub.amountUsed d } } id
        = if i = id then clampedUsed sub.amountUsed d else db.usedOf id := usedOf_setUsed hsub rfl id
    have hopen : DB.openOf { db with subs := db.subs.save { sub with amountUsed := clampedUsed sub.amountUsed d } } id
        = db.openOf id := rfl
    simp only [hused, hopen]
    split
    · rename_i hid
      subst hid
      have hsubused := usedOf_of_get hsub
      rw [clampedUsed_eq (by omega)]
      omega
    · omega
  | reset fault i plan now =>
    simp only [step, appliedBy] at hp ⊢
    rcases hd : resetDueTx cal fault db i plan now with ⟨db', r⟩
    rw [hd] at hp
    rcases resetDueTx_cases hd with rfl | ⟨sub, hsub, _, rfl⟩
    · simp
    have hused : DB.usedOf { db with subs := db.subs.save (afterReset cal sub plan now) } id
        = if i = id then (afterReset cal sub plan now).amountUsed else db.usedOf id :=
      usedOf_save rfl hsub (by simp) id
    have hopen : DB.openOf { db with subs := db.subs.save (afterReset cal sub plan now) } id = db.openOf id := rfl
    simp only [hused, hopen]
    split
    · rename_i hid
      subst hid
      have hget : (db.subs.save (afterReset cal sub plan now)).get i = some (afterReset cal sub plan now) :=
        get_save_of_key hsub (by rw [afterReset_id]; exact key_of_get hsub)
      rw [period_of_get hsub, period_of_get hget, Option.some.injEq] at hp
      rw [afterReset_amountUsed, (resetBase_afterReset cal sub plan now).mp hp, usedOf_of_get hsub]
      simp
    · omega

end Balance

/-! ## Whole runs -/

section Runs

variable (cal : Calendar) (db : DB)

theorem audit_db (ops : List Op) : (audit cal db ops).db = run cal db ops :=
  (List.foldl_hom Audit.db (fun _ _ => rfl)).symm

/-- What the log of charges and the records have to do with each other, from start `db₀`. -/
structure Logged (db₀ : DB) (a : Audit) : Prop where
  valid : a.db.Valid
  once : (a.charges.map (·.requestId)).Nodup
  recorded : ∀ c ∈ a.charges, db₀.records.get c.requestId = none ∧
    ∃ record, a.db.records.get c.requestId = some record ∧
      record.userSubscriptionId = c.userSubscriptionId ∧ record.preConsumed = c.amount
  kept : ∀ requestId, a.db.records.get requestId = none → db₀.records.get requestId = none

variable {cal db}

theorem Logged.step {db₀ : DB} {a : Audit} (h : Logged db₀ a) (op : Op) :
    Logged db₀ (a.step cal op) := by
  -- records only grow, so the ids of the log keep theirs
  have hkeep : ∀ c ∈ a.charges, db₀.records.get c.requestId = none ∧
      ∃ record, (Subscription.step cal a.db op).records.get c.requestId = some record ∧
        record.userSubscriptionId = c.userSubscriptionId ∧ record.preConsumed = c.amount := by
    intro c hc
    obtain ⟨h0, record, hrec, hs, hp⟩ := h.recorded c hc
    obtain ⟨record', hrec', hs', hp'⟩ := step_keeps_record h.valid op hrec
    exact ⟨h0, record', hrec', hs'.trans hs, hp'.trans hp⟩
  have hkept : ∀ requestId, (Subscription.step cal a.db op).records.get requestId = none →
      db₀.records.get requestId = none := by
    intro requestId hnone
    refine h.kept requestId ?_
    cases hrec : a.db.records.get requestId with
    | none => rfl
    | some record =>
      obtain ⟨record', hrec', _⟩ := step_keeps_record h.valid op hrec
      rw [hrec'] at hnone
      cases hnone
  have hv : (Subscription.step cal a.db op).Valid := step_valid h.valid op
  rcases hcharge : chargeBy cal a.db op with _ | c
  · refine ⟨hv, ?_, ?_, hkept⟩
    · simpa [Audit.step, hcharge] using h.once
    · simpa [Audit.step, hcharge] using hkeep
  cases op with
  | refund fault r | delta fault origin id d | reset fault id plan now => cases hcharge
  | preConsume fault r userId amount now =>
    rcases chargeBy_cases cal a.db fault r userId amount now with ⟨hn, _⟩ | ⟨_, chosen, hs, hch⟩
    · rw [hn] at hcharge; cases hcharge
    rw [hs] at hcharge
    cases hcharge
    have hfresh : ∀ x ∈ a.charges, x.requestId ≠ r := by
      intro x hx he
      obtain ⟨_, record, hrec, _⟩ := h.recorded x hx
      rw [he, hch.fresh] at hrec
      cases hrec
    refine ⟨hv, ?_, ?_, hkept⟩
    · simp only [Audit.step, hs, Option.toList_some]
      exact nodup_concat h.once (by simpa using hfresh)
    intro x hx
    simp only [Audit.step, hs, Option.toList_some, List.mem_append, List.mem_singleton] at hx
    rcases hx with hx | rfl
    · exact hkeep x hx
    · exact ⟨h.kept r hch.fresh, _, get_insert_self hch.records, rfl, rfl⟩

theorem audit_once (hv : db.Valid) (ops : List Op) : Logged db (audit cal db ops) :=
  foldl_invariant (P := Logged db) (fun _ op h => h.step op) ops
    ⟨hv, by simp [Audit.start], by simp [Audit.start], fun _ h => h⟩

/-- Subscription `id` stays in its period through the step. -/
def samePeriod (cal : Calendar) (id : Int) (db : DB) (op : Op) : Bool :=
  decide ((step cal db op).period id = db.period id)

theorem audit_balance {id : Int} : ∀ (ops : List Op) (a : Audit), a.db.Valid →
    Guarded (step cal) (fun db op => samePeriod cal id db op ∧ covered db id op) a.db ops →
      (ops.foldl (Audit.step cal) a).db.usedOf id - (ops.foldl (Audit.step cal) a).db.openOf id
        - (ops.foldl (Audit.step cal) a).applied id =
      a.db.usedOf id - a.db.openOf id - a.applied id
  | [], _, _, _ => rfl
  | op :: ops, a, hv, hg => by
    have hstep := step_balance hv op (of_decide_eq_true hg.1.1) hg.1.2
    have ih := audit_balance ops (a.step cal op) (step_valid hv op) hg.2
    rw [List.foldl_cons, ih]
    simp only [Audit.step]
    omega

/-- **Any interleaving keeps the books**: a limited subscription is within its bounds; a request id
is charged at most once, only without a record at the start, and its record names the subscription;
a further pre-consume changes nothing or makes one logged charge; and within a period the used
amount is the first one plus open records plus deltas, if nothing takes back more than is used. -/
theorem run_keeps_books (cal : Calendar) (db : DB) (hv : db.Valid) (ops : List Op) :
    (audit cal db ops).db = run cal db ops ∧
    (∀ sub ∈ (audit cal db ops).db.subs.rows, 0 < sub.amountTotal →
      0 ≤ sub.amountUsed ∧ sub.amountUsed ≤ sub.amountTotal) ∧
    ((audit cal db ops).charges.map (·.requestId)).Nodup ∧
    (∀ c ∈ (audit cal db ops).charges, db.records.get c.requestId = none ∧
      ∃ record, (audit cal db ops).db.records.get c.requestId = some record ∧
        record.userSubscriptionId = c.userSubscriptionId ∧ record.preConsumed = c.amount) ∧
    (∀ (fault : Faults PreConsumeStmt) (requestId : String) (userId amount now : Int),
      let op := Op.preConsume fault requestId userId amount now
      let a := audit cal db ops
      (chargeBy cal a.db op = none ∧ step cal a.db op = a.db) ∨
      (0 < amount ∧ ∃ chosen, chargeBy cal a.db op = some ⟨requestId, chosen.id, amount⟩ ∧
        Charged cal now a.db (step cal a.db op) requestId userId amount chosen)) ∧
    (∀ id, Guarded (step cal) (fun db op => samePeriod cal id db op ∧ covered db id op) db ops →
      (audit cal db ops).db.usedOf id = db.usedOf id
        + ((audit cal db ops).db.openOf id - db.openOf id) + (audit cal db ops).applied id) := by
  have hlog : Logged db (audit cal db ops) := audit_once hv ops
  refine ⟨audit_db cal db ops, ?_, hlog.once, hlog.recorded, ?_, ?_⟩
  · intro sub hsub hpos
    have h := hlog.valid.subs sub hsub
    exact ⟨h.nonneg, h.le_total hpos⟩
  · intro fault requestId userId amount now
    exact chargeBy_cases cal _ fault requestId userId amount now
  intro id hg
  have h := audit_balance ops (Audit.start db) hv hg
  simp only [Audit.start] at h
  unfold audit Audit.start
  omega

end Runs

/-! ## A small run -/

/-- A request charges 10, a settlement adds 5, and the pre-consumed 10 is refunded. -/
theorem run_keeps_books_small :
    let ops := [Op.preConsume (fun _ => none) "req-1" 1 10 50, Op.delta (fun _ => none) "req-1" 7 5,
      Op.refund RefundFaults.none "req-1"]
    (audit utcCalendar (smallDB neverPlan) ops).charges = [⟨"req-1", 7, 10⟩] ∧
    (audit utcCalendar (smallDB neverPlan) ops).db.usedOf 7 = 0 + (0 - 0) + 5 :=
  ⟨by decide, (run_keeps_books utcCalendar (smallDB neverPlan) (smallDB_valid _) _).2.2.2.2.2 7 (by decide)⟩

/-- The same proviso for deltas only. -/
def deltasCovered (db : DB) (id : Int) : Op → Bool
  | .delta _ _ i delta => decide (i = id → 0 ≤ db.usedOf id + delta)
  | _ => true

/-- With the proviso on deltas alone the equation fails: the refund of a request that was settled
down to nothing is swallowed by the clamp at zero. -/
theorem books_need_covered_refunds :
    ¬ ∀ (cal : Calendar) (db : DB) (ops : List Op) (id : Int), db.Valid →
      Guarded (step cal) (fun db op => samePeriod cal id db op ∧ deltasCovered db id op) db ops →
      (audit cal db ops).db.usedOf id = db.usedOf id
        + ((audit cal db ops).db.openOf id - db.openOf id) + (audit cal db ops).applied id := by
  intro h
  have hbad := h utcCalendar (smallDB neverPlan)
    [Op.preConsume (fun _ => none) "req-1" 1 10 50, Op.delta (fun _ => none) "req-1" 7 (-10),
      Op.refund RefundFaults.none "req-1"] 7 (smallDB_valid _) (by decide)
  exact absurd hbad (by decide)

/-! ## The background job -/

variable (cal : Calendar) (planErr : Int → Option String) (fault : Int → Faults ResetStmt) (now : Int)

/-- The reset of a row, if its plan is found. -/
def resetOp (db : DB) (sub : UserSubscription) : Option Op :=
  (getSubscriptionPlanByIdTx (planErr sub.planId) db sub.planId).toOption.map (.reset (fault sub.id) sub.id · now)

/-- The database after a reset of each row: all of them if the call succeeds, and otherwise those
before the one whose transaction fails. -/
def ResetsUpTo (db : DB) (subs : List UserSubscription) (r : DB × Nat × Except String Unit) :
    Prop :=
  match r.2.2 with
  | .ok () => r.1 = run cal db (subs.filterMap (resetOp planErr fault now db))
  | .error e => ∃ before sub after plan, subs = before ++ sub :: after ∧
      getSubscriptionPlanByIdTx (planErr sub.planId) db sub.planId = .ok plan ∧
      r.1 = run cal db (before.filterMap (resetOp planErr fault now db)) ∧
      (resetDueTx cal (fault sub.id) r.1 sub.id plan now).2 = .error e

theorem ResetsUpTo.cons {db db' : DB} {sub : UserSubscription} {subs : List UserSubscription}
    {r : DB × Nat × Except String Unit} (hplans : db'.plans = db.plans)
    (hsub : ∀ ops, run cal db' ops = run cal db ((resetOp planErr fault now db sub).toList ++ ops))
    (h : ResetsUpTo cal planErr fault now db' subs r) :
    ResetsUpTo cal planErr fault now db (sub :: subs) r := by
  have hops : resetOp planErr fault now db' = resetOp planErr fault now db := by
    funext s
    simp only [resetOp, getSubscriptionPlanByIdTx, hplans]
  have hcons : ∀ l, (sub :: l).filterMap (resetOp planErr fault now db) =
      (resetOp planErr fault now db sub).toList ++ l.filterMap (resetOp planErr fault now db) := by
    intro l
    cases hop : resetOp planErr fault now db sub <;> simp [hop]
  unfold ResetsUpTo at h ⊢
  split at h
  · rw [hcons, ← hsub, ← hops]
    exact h
  · obtain ⟨before, s, after, plan, rfl, hplan, hrun, hfail⟩ := h
    refine ⟨sub :: before, s, after, plan, rfl, ?_, ?_, hfail⟩
    · simpa only [getSubscriptionPlanByIdTx, hplans] using hplan
    · rw [hcons, ← hsub, ← hops]
      exact hrun

/-- The reset loop of `runSubscriptionQuotaResetOnce`, a round for each time, and whether it has
ended by then. -/
def resetRounds : List Int → DB → DB × Bool
  | [], db => (db, false)
  | now :: rest, db =>
    match resetDueSubscriptions cal none planErr fault db 300 now with
    | (db, _, .error _) => (db, true)
    | (db, n, .ok ()) => if n < 300 then (db, true) else resetRounds rest db

/-- The plan is found, and a reset saves nothing. -/
def nothingToReset (db : DB) (sub : UserSubscription) : Bool :=
  match getSubscriptionPlanByIdTx none db sub.planId with
  | .error _ => false
  | .ok plan => (resetRow cal sub plan now).isNone

variable {cal now}

theorem resetLoop_stuck {db : DB} :
    ∀ {subs : List UserSubscription}, (∀ sub ∈ subs, sub ∈ db.subs.rows ∧
      resetDue sub now = true ∧ nothingToReset cal now db sub = true) → ∀ n,
    resetLoop cal (fun _ => none) (fun _ _ => none) now subs db n = (db, n + subs.length, .ok ())
  | [], _, _ => rfl
  | sub :: rest, h, n => by
    obtain ⟨⟨hmem, hdue, hnothing⟩, hrest⟩ := List.forall_mem_cons.mp h
    unfold nothingToReset at hnothing
    split at hnothing
    · cases hnothing
    rename_i plan hplan
    -- the row is counted though nothing is saved
    have hbody : resetDueBody cal (fun _ => none) sub.id plan now db = .ok (db, true) := by
      simp [resetDueBody, get_of_mem hmem, hdue, maybeResetUserSubscriptionWithPlanTx,
        Option.isNone_iff_eq_none.mp hnothing]
    simp only [resetLoop, hplan, hbody, resetDueTx, transaction, resetLoop_stuck hrest]
    simp only [List.length_cons, Nat.add_assoc, Nat.add_comm 1]

/-- **The job starves**: while the 300 rows that are due longest have nothing to reset, it goes on
and resets no row. -/
theorem resetRounds_stuck (db : DB) : ∀ times : List Int, (∀ now ∈ times,
      let due := db.subs.rows.filter fun s => resetDue s now && decide (s.status = .active)
      let batch := (due.insertionSort fun a b => a.nextResetTime ≤ b.nextResetTime).take 300
      batch.length = 300 ∧ ∀ sub ∈ batch, nothingToReset cal now db sub = true) →
    resetRounds cal (fun _ => none) (fun _ _ => none) times db = (db, false)
  | [], _ => rfl
  | now :: rest, h => by
    obtain ⟨⟨hlen, hstuck⟩, hrest⟩ := List.forall_mem_cons.mp h
    have hround : resetDueSubscriptions cal none (fun _ => none) (fun _ _ => none) db 300 now = (db,
      300, .ok ()) := by
      refine (resetLoop_stuck (fun sub hsub => ?_) 0).trans (by simpa using hlen)
      have hdue := List.mem_of_mem_take hsub
      simp_all
    simp [resetRounds, hround, resetRounds_stuck db rest hrest]

/-- Subscriptions that were due at 5 when their plan stopped its resets. -/
def stuckRows : List UserSubscription :=
  (List.range 300).map fun i => ⟨i, 1, 3, 100, 0, 0, 1000, .active, 0, 5⟩

theorem stuckRows_nodup : (stuckRows.map UserSubscription.id).Nodup := by decide +kernel

def stuckDB : DB := { smallDB neverPlan with subs := ⟨stuckRows, stuckRows_nodup⟩ }

theorem stuckDB_rounds :
    resetRounds utcCalendar (fun _ => none) (fun _ _ => none) [10, 70] stuckDB = (stuckDB, false) :=
  resetRounds_stuck _ _ (by decide +kernel)

end NewApi.Subscription
