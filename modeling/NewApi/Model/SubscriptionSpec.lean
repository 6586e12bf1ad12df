import NewApi.Model.Subscription

/-!
# What each subscription transaction can do

One lemma per function says everything a call can leave behind; the run theorems are derived
from these and never look inside the functions again.
-/

namespace NewApi.Subscription

open NewApi.Text List Table

/-! ## Period reset -/

variable {cal : Calendar} {plan : SubscriptionPlan}

theorem addSeconds_eq (base : Int) (plan : SubscriptionPlan)
    (h : 0 < plan.quotaResetCustomSeconds) :
    addSeconds base plan.quotaResetCustomSeconds = base + plan.quotaResetCustomSeconds := by
  rw [addSeconds, int64_eq (by omega) plan.durationFits, Int.mul_ediv_cancel _ (by decide)]

theorem lt_calcNextResetTime {base : Int} {endUnix : Int}
    (h : 0 < calcNextResetTime cal base plan endUnix) :
    base < calcNextResetTime cal base plan endUnix := by
  have h1 := cal.lt_startOfNextDay base
  have h2 := cal.lt_startOfNextWeek base
  have h3 := cal.lt_startOfNextMonth base
  have h4 : plan.quotaResetCustomSeconds ≤ 0 ∨
      addSeconds base plan.quotaResetCustomSeconds = base + plan.quotaResetCustomSeconds :=
    (le_or_gt _ 0).imp_right (addSeconds_eq base plan)
  unfold calcNextResetTime at h ⊢
  simp only at h ⊢
  split at h
  · omega
  all_goals split_ifs at h ⊢ <;> omega

/-- The row in memory after `maybeResetUserSubscriptionWithPlanTx`. -/
def afterReset (cal : Calendar) (sub : UserSubscription) (plan : SubscriptionPlan) (now : Int) :
    UserSubscription := (resetRow cal sub plan now).getD sub

variable {now amount userId delta id : Int}

theorem advanceReset_base {endTime : Int} :
    ∀ (fuel : Nat) (base next : Int) (advanced : Bool), (0 < next → base < next) →
      ((advanceReset cal plan endTime now fuel base next advanced).1 = base ∧
        (advanceReset cal plan endTime now fuel base next advanced).2.2 = advanced) ∨
      ((advanceReset cal plan endTime now fuel base next advanced).2.2 = true ∧
        base < (advanceReset cal plan endTime now fuel base next advanced).1 ∧
        0 < (advanceReset cal plan endTime now fuel base next advanced).1)
  | 0, _, _, _, _ => .inl ⟨rfl, rfl⟩
  | fuel + 1, base, next, advanced, hlt => by
    unfold advanceReset
    split
    · right
      rcases advanceReset_base fuel next
        (calcNextResetTime cal next plan endTime) true lt_calcNextResetTime with ⟨h1, h2⟩ | ⟨h1, h2, h3⟩
      · exact ⟨h2, by omega, by omega⟩
      · exact ⟨h1, by omega, h3⟩
    · exact .inl ⟨rfl, rfl⟩

theorem catchUp_base (cal : Calendar) (sub : UserSubscription) (plan : SubscriptionPlan)
    (now : Int) :
    ((catchUp cal sub plan now).1 = resetBase sub ∧ (catchUp cal sub plan now).2.2 = false) ∨
    ((catchUp cal sub plan now).2.2 = true ∧ resetBase sub < (catchUp cal sub plan now).1 ∧
      0 < (catchUp cal sub plan now).1) :=
  advanceReset_base _ _ _ _ lt_calcNextResetTime

variable {row chosen : UserSubscription}

theorem resetRow_eq (cal : Calendar) (sub : UserSubscription) (plan : SubscriptionPlan)
    (now : Int) :
    resetRow cal sub plan now =
      if resetFires cal sub plan now then
        some { sub with amountUsed := 0, lastResetTime := (catchUp cal sub plan now).1,
                        nextResetTime := (catchUp cal sub plan now).2.1 }
      else if resetConsidered sub plan now ∧ sub.nextResetTime = 0 ∧ 0 < (catchUp cal sub plan now).2.1 then
        some { sub with lastResetTime := (catchUp cal sub plan now).1,
                        nextResetTime := (catchUp cal sub plan now).2.1 }
      else none := by
  unfold resetRow resetFires
  cases resetConsidered sub plan now <;> cases hadvanced : (catchUp cal sub plan now).2.2 <;> simp [hadvanced]

theorem resetRow_cases {sub : UserSubscription} (h : resetRow cal sub plan now = some row) :
    (resetFires cal sub plan now = true ∧ ∃ base next, resetBase sub < base ∧ 0 < base ∧
      row = { sub with amountUsed := 0, lastResetTime := base, nextResetTime := next }) ∨
    (resetFires cal sub plan now = false ∧ ∃ next,
      row = { sub with lastResetTime := resetBase sub, nextResetTime := next }) := by
  rw [resetRow_eq] at h
  split_ifs at h with hfires hstores
  · rcases catchUp_base cal sub plan now with ⟨_, hstays⟩ | ⟨_, hlt, hpos⟩
    · simp [resetFires, hstays] at hfires
    · exact .inl ⟨hfires, _, _, hlt, hpos, (Option.some.inj h).symm⟩
  rcases catchUp_base cal sub plan now with ⟨hbase, _⟩ | ⟨hadvanced, _⟩
  · rw [hbase] at h
    exact .inr ⟨by simpa using hfires, _, (Option.some.inj h).symm⟩
  · simp [resetFires, hstores.1, hadvanced] at hfires

theorem resetRow_none {sub : UserSubscription}
    (h : resetRow cal sub plan now = none) : resetFires cal sub plan now = false := by
  rw [resetRow_eq] at h
  split_ifs at h with hfires
  simpa using hfires

section AfterReset

variable (cal : Calendar) (sub : UserSubscription) (plan : SubscriptionPlan) (now : Int)

theorem afterReset_spec : (afterReset cal sub plan now).id = sub.id ∧
    (afterReset cal sub plan now).amountTotal = sub.amountTotal ∧
    (afterReset cal sub plan now).amountUsed =
      if resetFires cal sub plan now then 0 else sub.amountUsed := by
  unfold afterReset
  cases hr : resetRow cal sub plan now with
  | none => simp [resetRow_none hr]
  | some row =>
    rcases resetRow_cases hr with ⟨hf, base, next, _, _, rfl⟩ | ⟨hf, next, rfl⟩
    · simp [hf]
    · simp [hf]

@[simp] theorem afterReset_id : (afterReset cal sub plan now).id = sub.id :=
  (afterReset_spec cal sub plan now).1

@[simp] theorem afterReset_amountTotal :
    (afterReset cal sub plan now).amountTotal = sub.amountTotal :=
  (afterReset_spec cal sub plan now).2.1

theorem afterReset_amountUsed : (afterReset cal sub plan now).amountUsed =
      if resetFires cal sub plan now then 0 else sub.amountUsed := (afterReset_spec cal sub plan now).2.2

/-- **The instant a reset is counted from marks the period**: it moves exactly when a reset
fires. -/
theorem resetBase_afterReset : resetBase (afterReset cal sub plan now) = resetBase sub ↔
      resetFires cal sub plan now = false := by
  unfold afterReset
  rcases hr : resetRow cal sub plan now with _ | row
  · simp [resetRow_none hr]
  rcases resetRow_cases hr with ⟨hf, base, next, hlt, hpos, rfl⟩ | ⟨hf, next, rfl⟩
  · have hnew : resetBase { sub with amountUsed := 0, lastResetTime := base, nextResetTime := next } = base := by
      unfold resetBase; rw [if_neg (by simp only; omega)]
    simp only [Option.getD_some, hnew, hf]
    constructor
    · intro he; omega
    · intro he; cases he
  · have hnew : resetBase { sub with lastResetTime := resetBase sub, nextResetTime := next } = resetBase sub := by
      unfold resetBase; split_ifs <;> rfl
    simp [hnew, hf]

end AfterReset

variable {db db' : DB}

theorem maybeReset_ok {saveErr : Option String} {sub sub' : UserSubscription}
    (hs : db.subs.get sub.id = some sub)
    (h : maybeResetUserSubscriptionWithPlanTx cal saveErr db sub plan now = .ok (db', sub')) :
    sub' = afterReset cal sub plan now ∧ db' = { db with subs := db.subs.save sub' } := by
  unfold maybeResetUserSubscriptionWithPlanTx at h
  unfold afterReset
  split at h
  · rename_i hr
    cases h
    rw [hr]
    exact ⟨rfl, by rw [save_get hs]⟩
  rename_i row hr
  split at h
  · cases h
  cases h
  rw [hr]
  exact ⟨rfl, rfl⟩

/-! ## Pre-consume -/

/-- A row as the reset of its own plan leaves it. -/
def renew (cal : Calendar) (db : DB) (now : Int) (sub : UserSubscription) : UserSubscription :=
  match db.plans sub.planId with
  | some plan => afterReset cal sub plan now
  | none => sub

@[simp] theorem renew_id (cal : Calendar) (db : DB) (now : Int) (sub : UserSubscription) :
    (renew cal db now sub).id = sub.id := by
  unfold renew; split <;> simp

@[simp] theorem renew_amountTotal (cal : Calendar) (db : DB) (now : Int) (sub : UserSubscription) :
    (renew cal db now sub).amountTotal = sub.amountTotal := by
  unfold renew; split <;> simp

/-- Does a reset of `sub` by its own plan fire at `now`? -/
def rollsOver (cal : Calendar) (db : DB) (now : Int) (sub : UserSubscription) : Bool :=
  match db.plans sub.planId with
  | some plan => resetFires cal sub plan now
  | none => false

theorem renew_amountUsed (cal : Calendar) (db : DB) (now : Int) (sub : UserSubscription) :
    (renew cal db now sub).amountUsed = if rollsOver cal db now sub then 0 else sub.amountUsed := by
  unfold renew rollsOver
  split
  · exact afterReset_amountUsed _ _ _ _
  · simp

theorem resetBase_renew (cal : Calendar) (db : DB) (now : Int) (sub : UserSubscription) :
    resetBase (renew cal db now sub) = resetBase sub ↔ rollsOver cal db now sub = false := by
  unfold renew rollsOver
  split
  · exact resetBase_afterReset _ _ _ _
  · simp

/-- The effect of a pre-consume that charges `chosen`. -/
structure Charged (cal : Calendar) (now : Int) (db db' : DB) (requestId : String)
    (userId amount : Int) (chosen : UserSubscription) : Prop where
  fresh : db.records.get requestId = none
  stored : db.subs.get chosen.id = some chosen
  active : chosen.userId = userId ∧ chosen.status = .active ∧ now < chosen.endTime
  fits : 0 < chosen.amountTotal → (renew cal db now chosen).amountUsed + amount ≤ chosen.amountTotal
  records : db.records.insert ⟨requestId, userId, chosen.id, amount, .consumed⟩ = some db'.records
  plans : db'.plans = db.plans
  row : db'.subs.get chosen.id =
    some { renew cal db now chosen with amountUsed := (renew cal db now chosen).amountUsed + amount }
  others : ∀ id, id ≠ chosen.id → db'.subs.get id = db.subs.get id ∨
    db'.subs.get id = (db.subs.get id).map (renew cal db now)

variable {fault : Faults PreConsumeStmt} {requestId : String}

theorem chargeCandidate_ok {sub : UserSubscription} {res : SubscriptionPreConsumeResult}
    (hfresh : db.records.get requestId = none)
    (h : chargeCandidate fault requestId userId amount db sub = .ok (db', res)) :
    db.records.insert ⟨requestId, userId, sub.id, amount, .consumed⟩ = some db'.records ∧
    db'.subs = db.subs.save { sub with amountUsed := sub.amountUsed + amount } ∧
    db'.plans = db.plans ∧
    res = { userSubscriptionId := sub.id, preConsumed := amount, amountTotal := sub.amountTotal,
            amountUsedBefore := sub.amountUsed, amountUsedAfter := sub.amountUsed + amount } := by
  unfold chargeCandidate at h
  split at h
  · rename_i records _ hi
    split at h
    · cases h
    · cases h
      exact ⟨hi, rfl, rfl, rfl⟩
  · rw [hfresh] at h
    split at h
    · rename_i hd; cases hd
    · cases h

theorem scanCandidates_ok :
    ∀ {cands : List UserSubscription} {db db' : DB} {res : SubscriptionPreConsumeResult},
      (cands.map (·.id)).Nodup → (∀ c ∈ cands, db.subs.get c.id = some c) →
      (∀ c ∈ cands, c.userId = userId ∧ c.status = .active ∧ now < c.endTime) →
      db.records.get requestId = none →
      scanCandidates cal fault requestId userId amount now cands db = .ok (db', res) →
      ∃ chosen ∈ cands, Charged cal now db db' requestId userId amount chosen ∧
        (∀ id, (∀ c ∈ cands, id ≠ c.id) → db'.subs.get id = db.subs.get id) ∧
        res = { userSubscriptionId := chosen.id, preConsumed := amount, amountTotal := chosen.amountTotal,
                amountUsedBefore := (renew cal db now chosen).amountUsed,
                amountUsedAfter := (renew cal db now chosen).amountUsed + amount } := by
  intro cands
  induction cands with
  | nil => intro db db' res _ _ _ _ h; cases h
  | cons c rest ih =>
    intro db db' res hn hst hact hfresh h
    simp only [map_cons, nodup_cons, mem_map, not_exists, not_and] at hn
    have hc : db.subs.get c.id = some c := hst c mem_cons_self
    simp only [scanCandidates] at h
    split at h
    · cases h
    rename_i plan hplan
    split at h
    · cases h
    rename_i db₁ sub hreset
    obtain ⟨hsub, hdb₁⟩ := maybeReset_ok hc hreset
    have hp : db.plans c.planId = some plan := by
      unfold getSubscriptionPlanByIdTx at hplan
      split at hplan
      · cases hplan
      split at hplan
      · cases hplan
      · cases hplan
      · rename_i he; cases hplan; exact he
    have hren : sub = renew cal db now c := by rw [hsub]; unfold renew; rw [hp]
    have hsid : sub.id = c.id := by rw [hren]; simp
    have hget₁ : db₁.subs.get c.id = some sub := by rw [hdb₁, ← hsid]; exact get_save_self (by rw [hsid]; exact hc)
    have hother₁ : ∀ id, id ≠ c.id → db₁.subs.get id = db.subs.get id := by
      intro id hid
      rw [hdb₁]; exact get_save_ne _ (by rw [hsid]; exact hid)
    have hrec₁ : db₁.records = db.records := by rw [hdb₁]
    have hpl₁ : db₁.plans = db.plans := by rw [hdb₁]
    split at h
    · -- not enough left: the loop goes on, with the reset of `c` kept in the transaction
      obtain ⟨chosen, hmem, hch, hout, hres⟩ := ih hn.2
        (fun x hx => by rw [hother₁ _ (hn.1 x hx)]; exact hst x (mem_cons_of_mem _ hx))
        (fun x hx => hact x (mem_cons_of_mem _ hx)) (by rw [hrec₁]; exact hfresh) h
      have hrenew : renew cal db₁ now = renew cal db now := by funext s; unfold renew; rw [hpl₁]
      have hne : chosen.id ≠ c.id := hn.1 chosen hmem
      have hrow := hch.row
      have hfits := hch.fits
      have hrecs := hch.records
      rw [hrenew] at hrow hfits hres
      rw [hrec₁] at hrecs
      refine ⟨chosen, mem_cons_of_mem _ hmem, ⟨hfresh, ?_, hch.active, hfits, hrecs, ?_, hrow, ?_⟩,
        ?_, hres⟩
      · rw [← hother₁ _ hne]; exact hch.stored
      · rw [hch.plans, hpl₁]
      · intro id hid
        by_cases hic : id = c.id
        · subst hic
          right
          rw [hout c.id (fun x hx e => hn.1 x hx e.symm), hget₁, hc, hren]; rfl
        · rw [← hother₁ id hic, ← hrenew]
          exact hch.others id hid
      · intro id hid
        rw [hout id (fun x hx => hid x (mem_cons_of_mem _ hx)), hother₁ id (hid c mem_cons_self)]
    · -- `c` is charged
      rename_i hfit
      obtain ⟨hi, hs, hpl, hres⟩ := chargeCandidate_ok (by rw [hrec₁]; exact hfresh) h
      rw [hsid, hrec₁] at hi
      have htot : sub.amountTotal = c.amountTotal := by rw [hren]; simp
      have hother : ∀ id, id ≠ c.id → db'.subs.get id = db.subs.get id := by
        intro id hid
        rw [hs, get_save_ne _ (by simpa [hsid] using hid), hother₁ id hid]
      refine ⟨c, mem_cons_self, ⟨hfresh, hc, hact c mem_cons_self, ?_, hi, ?_, ?_, ?_⟩, ?_, ?_⟩
      · intro hpos
        rw [← hren]
        by_contra hgt
        exact hfit ⟨by omega, by omega⟩
      · rw [hpl, hpl₁]
      · rw [hs, ← hren]
        exact get_save_of_key hget₁ hsid
      · intro id hid; exact .inl (hother id hid)
      · intro id hid; exact hother id (hid c mem_cons_self)
      · rw [hres, ← hren, hsid, htot]

theorem activeSubscriptions_mem {c : UserSubscription} (h : c ∈ activeSubscriptions db userId now) :
    c ∈ db.subs.rows ∧ c.userId = userId ∧ c.status = .active ∧ now < c.endTime := by
  unfold activeSubscriptions at h
  simpa using h

theorem activeSubscriptions_nodup (db : DB) (userId now : Int) :
    ((activeSubscriptions db userId now).map (·.id)).Nodup := by
  refine ((perm_insertionSort _ _).map _).nodup_iff.mpr ?_
  exact (filter_sublist.map _).nodup db.subs.nodup

/-- **Everything a pre-consume can do**: fail; repeat the answer given for the request id before; or
charge one active subscription. -/
theorem preConsume_cases {r : Except String SubscriptionPreConsumeResult}
    (h : preConsumeUserSubscription cal fault db requestId userId amount now = (db', r)) :
    Failed db db' r ∨
    (db' = db ∧ ∃ old sub, db.records.get requestId = some old ∧ old.status = .consumed ∧
      db.subs.get old.userSubscriptionId = some sub ∧
      r = .ok { userSubscriptionId := sub.id, preConsumed := old.preConsumed,
                amountTotal := sub.amountTotal, amountUsedBefore := sub.amountUsed,
                amountUsedAfter := sub.amountUsed }) ∨
    (0 < userId ∧ 0 < amount ∧ isBlank requestId = false ∧
      ∃ chosen, Charged cal now db db' requestId userId amount chosen ∧
        r = .ok { userSubscriptionId := chosen.id, preConsumed := amount, amountTotal := chosen.amountTotal,
                  amountUsedBefore := (renew cal db now chosen).amountUsed,
                  amountUsedAfter := (renew cal db now chosen).amountUsed + amount }) := by
  unfold preConsumeUserSubscription at h
  split at h
  · cases h; exact .inl ⟨rfl, _, rfl⟩
  split at h
  · cases h; exact .inl ⟨rfl, _, rfl⟩
  rename_i hblank
  split at h
  · cases h; exact .inl ⟨rfl, _, rfl⟩
  obtain herr | ⟨res, rfl, hb⟩ := transaction_cases h
  · exact .inl herr
  right
  unfold preConsumeBody at hb
  split at hb
  · cases hb
  split at hb
  · -- the request id has a record
    rename_i old hold
    left
    split at hb
    · cases hb
    rename_i hstatus
    split at hb
    · cases hb
    · cases hb
    rename_i sub _ hsub
    cases hb
    refine ⟨rfl, old, sub, hold, ?_, hsub, rfl⟩
    cases hs : old.status with
    | consumed => rfl
    | refunded => exact absurd hs hstatus
  · rename_i hfresh
    right
    split at hb
    · cases hb
    · cases hb
    obtain ⟨chosen, _, hch, _, hres⟩ := scanCandidates_ok (activeSubscriptions_nodup db userId now)
      (fun c hc => get_of_mem (activeSubscriptions_mem hc).1)
      (fun c hc => (activeSubscriptions_mem hc).2) hfresh hb
    exact ⟨by omega, by omega, by simpa using hblank, chosen, hch, by rw [hres]⟩

/-! ## Signed adjustment -/

theorem clampedUsed_nonneg (used delta : Int) : 0 ≤ clampedUsed used delta := by
  unfold clampedUsed; split <;> omega

theorem clampedUsed_eq {used : Int} (h : 0 ≤ used + delta) :
    clampedUsed used delta = used + delta := by
  unfold clampedUsed; split <;> omega

theorem le_clampedUsed (used delta : Int) : used + delta ≤ clampedUsed used delta := by
  unfold clampedUsed; split <;> omega

variable {r : Except String Unit}

/-- **Everything an adjustment can do.** -/
theorem delta_cases {fault : Faults DeltaStmt}
    (h : postConsumeUserSubscriptionDelta fault db id delta = (db', r)) :
    Failed db db' r ∨
    (db' = db ∧ delta = 0 ∧ r = .ok ()) ∨
    (0 < id ∧ r = .ok () ∧ ∃ sub, db.subs.get id = some sub ∧
      (0 < sub.amountTotal → clampedUsed sub.amountUsed delta ≤ sub.amountTotal) ∧
      db' = { db with subs := db.subs.save { sub with amountUsed := clampedUsed sub.amountUsed delta } }) := by
  unfold postConsumeUserSubscriptionDelta at h
  split at h
  · cases h; exact .inl ⟨rfl, _, rfl⟩
  split at h
  · rename_i hd
    cases h; exact .inr (.inl ⟨rfl, hd, rfl⟩)
  obtain herr | ⟨u, rfl, hb⟩ := transaction_cases h
  · exact .inl herr
  right; right
  unfold deltaBody at hb
  split at hb
  · cases hb
  · cases hb
  rename_i sub _ hsub
  split at hb
  · cases hb
  split at hb
  · cases hb
  · cases hb
    exact ⟨by omega, rfl, sub, hsub, fun hp => by omega, rfl⟩

theorem delta_applies {fault : Faults DeltaStmt} {sub : UserSubscription}
    (hf : ∀ s, fault s = none) (hid : 0 < id) (hd : delta ≠ 0) (hsub : db.subs.get id = some sub)
    (hfit : 0 < sub.amountTotal → clampedUsed sub.amountUsed delta ≤ sub.amountTotal) :
    postConsumeUserSubscriptionDelta fault db id delta =
      ({ db with subs := db.subs.save { sub with amountUsed := clampedUsed sub.amountUsed delta } }, .ok ()) := by
  have hfit' : ¬ (0 < sub.amountTotal ∧ sub.amountTotal < clampedUsed sub.amountUsed delta) := by intro hc; omega
  have hid' : ¬ id ≤ 0 := by omega
  simp [postConsumeUserSubscriptionDelta, transaction, deltaBody, hid', hd, hf, hsub, hfit']

theorem delta_ok_iff {fault : Faults DeltaStmt} (hid : 0 < id) (hd : delta ≠ 0) :
    (postConsumeUserSubscriptionDelta fault db id delta).2 = .ok () ↔
      (∀ s, fault s = none) ∧ ∃ sub, db.subs.get id = some sub ∧
        (0 < sub.amountTotal → clampedUsed sub.amountUsed delta ≤ sub.amountTotal) := by
  constructor
  · intro h
    have hid' : ¬ id ≤ 0 := by omega
    rcases ht : transaction (fault .commit) db (deltaBody fault id delta) with ⟨db', r⟩
    simp only [postConsumeUserSubscriptionDelta, hid', hd, if_false, ht] at h
    subst h
    obtain ⟨hb, hcommit⟩ := transaction_ok ht
    unfold deltaBody at hb
    split at hb
    · cases hb
    · cases hb
    rename_i sub hfind hsub
    split at hb
    · cases hb
    split at hb
    · cases hb
    rename_i hsave
    refine ⟨fun s => ?_, sub, hsub, fun hp => by omega⟩
    cases s with
    | findSub => exact hfind
    | saveSub => exact hsave
    | commit => exact hcommit
  · rintro ⟨hf, sub, hsub, hfit⟩
    rw [delta_applies hf hid hd hsub hfit]

/-! ## Refund by request id -/

variable {record : SubscriptionPreConsumeRecord}

theorem markRefunded_cases {fault : Faults RefundStmt}
    (h : markRefunded fault db record = (db', r)) :
    Failed db db' r ∨
    (r = .ok () ∧ db' = { db with records := db.records.save { record with status := .refunded } }) := by
  obtain herr | ⟨u, rfl, hb⟩ := transaction_cases h
  · exact .inl herr
  split at hb
  · cases hb
  · cases hb; exact .inr ⟨rfl, rfl⟩

/-- **Everything a refund can do.**  The last case is the two-commit path: the adjustment is
committed to `db₁`, whatever becomes of the record afterwards. -/
theorem refund_cases {fault : RefundFaults}
    (h : refundSubscriptionPreConsume fault db requestId = (db', r)) :
    Failed db db' r ∨
    ∃ record, db.records.get requestId = some record ∧
      ((db' = db ∧ record.status = .refunded ∧ r = .ok ()) ∨
       (record.status = .consumed ∧ record.preConsumed ≤ 0 ∧ r = .ok () ∧
        db' = { db with records := db.records.save { record with status := .refunded } }) ∨
       (record.status = .consumed ∧ 0 < record.preConsumed ∧ ∃ db₁,
        postConsumeUserSubscriptionDelta fault.delta db record.userSubscriptionId (-record.preConsumed)
          = (db₁, .ok ()) ∧
        (Failed db₁ db' r ∨
         (r = .ok () ∧ db' = { db₁ with records := db₁.records.save { record with status := .refunded } })))) := by
  unfold refundSubscriptionPreConsume at h
  split at h
  · cases h; exact .inl ⟨rfl, _, rfl⟩
  split at h
  · cases h; exact .inl ⟨rfl, _, rfl⟩
  · cases h; exact .inl ⟨rfl, _, rfl⟩
  rename_i record _ hrec
  split at h
  · rename_i hs
    obtain herr | ⟨u, rfl, hb⟩ := transaction_cases h
    · exact .inl herr
    cases hb
    exact .inr ⟨record, hrec, .inl ⟨rfl, hs, rfl⟩⟩
  rename_i hs
  have hcons : record.status = .consumed := by
    cases hst : record.status with
    | consumed => rfl
    | refunded => exact absurd hst hs
  split at h
  · rename_i hpre
    rcases markRefunded_cases h with ⟨hdb, he⟩ | ⟨hr, hdb⟩
    · exact .inl ⟨hdb, he⟩
    · exact .inr ⟨record, hrec, .inr (.inl ⟨hcons, hpre, hr, hdb⟩)⟩
  split at h
  · -- the adjustment failed: nothing was written
    rename_i db₁ e hd
    cases h
    rcases delta_cases hd with ⟨hdb, _⟩ | ⟨_, _, hr⟩ | ⟨_, hr, _⟩
    · exact .inl ⟨hdb, _, rfl⟩
    · cases hr
    · cases hr
  · rename_i db₁ hd
    exact .inr ⟨record, hrec, .inr (.inr ⟨hcons, by omega, db₁, hd, markRefunded_cases h⟩)⟩

/-! ## Background reset -/

/-- **Everything a background reset can do.** -/
theorem resetDueTx_cases {fault : Faults ResetStmt} {r : Except String Bool}
    (h : resetDueTx cal fault db id plan now = (db', r)) :
    db' = db ∨
    ∃ sub, db.subs.get id = some sub ∧ resetDue sub now = true ∧
      db' = { db with subs := db.subs.save (afterReset cal sub plan now) } := by
  obtain herr | ⟨b, rfl, hb⟩ := transaction_cases h
  · exact .inl herr.1
  unfold resetDueBody at hb
  split at hb
  · rename_i locked _ hl
    split at hb
    · rename_i hdue
      split at hb
      · cases hb
      rename_i db₁ sub hreset
      cases hb
      have hk := key_of_get hl
      obtain ⟨hs, hdb⟩ := maybeReset_ok (by rw [hk]; exact hl) hreset
      exact .inr ⟨locked, hl, hdue, by rw [hdb, hs]⟩
    · cases hb; exact .inl rfl
  · cases hb; exact .inl rfl

/-! ## Validity -/

/-- The bounds a subscription row keeps. -/
structure UserSubscription.Valid (sub : UserSubscription) : Prop where
  pos : 0 < sub.id
  nonneg : 0 ≤ sub.amountUsed
  le_total : 0 < sub.amountTotal → sub.amountUsed ≤ sub.amountTotal

/-- Every row is within its bounds and every record holds a positive charge. -/
structure DB.Valid (db : DB) : Prop where
  subs : ∀ sub ∈ db.subs.rows, sub.Valid
  records : ∀ r ∈ db.records.rows, 0 < r.preConsumed

theorem DB.Valid.sub (h : db.Valid) {sub : UserSubscription}
    (hs : db.subs.get id = some sub) : sub.Valid := h.subs sub (mem_of_get hs)

theorem UserSubscription.Valid.afterReset {sub : UserSubscription} (h : sub.Valid) (cal : Calendar)
    (plan : SubscriptionPlan) (now : Int) : (afterReset cal sub plan now).Valid := by
  have hp := h.pos
  have hn := h.nonneg
  have ht := h.le_total
  refine ⟨by simpa using hp, ?_, ?_⟩
  · rw [afterReset_amountUsed]; split <;> omega
  rw [afterReset_amountUsed, afterReset_amountTotal]
  intro hpos
  split <;> omega

theorem UserSubscription.Valid.renew {sub : UserSubscription} (h : sub.Valid) (cal : Calendar)
    (db : DB) (now : Int) : (renew cal db now sub).Valid := by
  unfold Subscription.renew
  split
  · exact h.afterReset cal _ now
  · exact h

theorem DB.Valid.save (h : db.Valid) (hr : row.Valid) :
    DB.Valid { db with subs := db.subs.save row } := by
  refine ⟨fun s hs => ?_, h.records⟩
  rcases mem_save hs with rfl | ⟨hs, _⟩
  · exact hr
  · exact h.subs s hs

theorem Charged.sub_valid (hc : Charged cal now db db' requestId userId amount chosen)
    (h : db.Valid) : chosen.Valid :=
  h.sub hc.stored

theorem Charged.valid (hc : Charged cal now db db' requestId userId amount chosen) (ha : 0 < amount)
    (h : db.Valid) : db'.Valid := by
  have hch : (renew cal db now chosen).Valid := (h.sub hc.stored).renew cal db now
  constructor
  · intro s hs
    have hg := Table.get_of_mem hs
    by_cases hid : s.id = chosen.id
    · rw [hid, hc.row] at hg
      cases hg
      have hfits := hc.fits
      have := hch.nonneg
      refine ⟨hch.pos, by simp only; omega, ?_⟩
      simpa using hfits
    · rcases hc.others s.id hid with ho | ho
      · exact h.sub (ho ▸ hg)
      rw [ho, Option.map_eq_some_iff] at hg
      obtain ⟨old, hold, rfl⟩ := hg
      exact (h.sub hold).renew cal db now
  · intro r hr
    obtain ⟨_, hrows⟩ := Table.insert_some hc.records
    rw [hrows, mem_append, mem_singleton] at hr
    rcases hr with hr | rfl
    · exact h.records r hr
    · exact ha

theorem preConsume_valid {r : Except String SubscriptionPreConsumeResult}
    (h : preConsumeUserSubscription cal fault db requestId userId amount now = (db', r))
    (hv : db.Valid) : db'.Valid := by
  rcases preConsume_cases h with ⟨rfl, _⟩ | ⟨rfl, _⟩ | ⟨_, ha, _, chosen, hch, _⟩
  · exact hv
  · exact hv
  · exact hch.valid ha hv

theorem delta_valid {fault : Faults DeltaStmt}
    (h : postConsumeUserSubscriptionDelta fault db id delta = (db', r)) (hv : db.Valid) :
    db'.Valid := by
  rcases delta_cases h with ⟨rfl, _⟩ | ⟨rfl, _⟩ | ⟨_, _, sub, hsub, hfit, rfl⟩
  · exact hv
  · exact hv
  · exact hv.save ⟨(hv.sub hsub).pos, clampedUsed_nonneg _ _, hfit⟩

theorem DB.Valid.markRefunded (h : db.Valid) (hr : 0 < record.preConsumed) :
    DB.Valid { db with records := db.records.save { record with status := .refunded } } := by
  refine ⟨h.subs, fun r hm => ?_⟩
  rcases mem_save hm with rfl | ⟨hm, _⟩
  · exact hr
  · exact h.records r hm

theorem refund_valid {fault : RefundFaults}
    (h : refundSubscriptionPreConsume fault db requestId = (db', r)) (hv : db.Valid) :
    db'.Valid := by
  rcases refund_cases h with ⟨rfl, _⟩ | ⟨record, hrec,
    ⟨rfl, _⟩ | ⟨_, hpre, _⟩ | ⟨_, hpre, db₁, hd, hend⟩⟩
  · exact hv
  · exact hv
  · have := hv.records record (mem_of_get hrec)
    omega
  have h₁ : db₁.Valid := delta_valid hd hv
  rcases hend with ⟨rfl, _⟩ | ⟨_, rfl⟩
  · exact h₁
  · exact h₁.markRefunded hpre

theorem resetDueTx_valid {fault : Faults ResetStmt} {r : Except String Bool}
    (h : resetDueTx cal fault db id plan now = (db', r)) (hv : db.Valid) : db'.Valid := by
  rcases resetDueTx_cases h with rfl | ⟨sub, hsub, _, rfl⟩
  · exact hv
  · exact hv.save ((hv.sub hsub).afterReset cal plan now)

/-! ## Used amounts and periods -/

/-- The start of the period a subscription is in. -/
def DB.period (db : DB) (id : Int) : Option Int := (db.subs.get id).map resetBase

section Used

variable {cal : Calendar} {db : DB} {id : Int} {sub : UserSubscription}

theorem usedOf_of_get (h : db.subs.get id = some sub) : db.usedOf id = sub.amountUsed := by
  unfold DB.usedOf; rw [h]; rfl

theorem period_of_get (h : db.subs.get id = some sub) : db.period id = some (resetBase sub) := by
  unfold DB.period; rw [h]; rfl

variable {db' : DB}

theorem usedOf_congr (h : db'.subs.get id = db.subs.get id) : db'.usedOf id = db.usedOf id := by
  unfold DB.usedOf; rw [h]

theorem renew_amountUsed_of_period {now : Int}
    (h : resetBase (renew cal db now sub) = resetBase sub) :
    (renew cal db now sub).amountUsed = sub.amountUsed := by
  rw [renew_amountUsed, (resetBase_renew cal db now sub).mp h]; simp

theorem usedOf_nonneg (hv : db.Valid) (id : Int) : 0 ≤ db.usedOf id := by
  cases hg : db.subs.get id with
  | none => unfold DB.usedOf; rw [hg]; simp
  | some sub =>
    rw [usedOf_of_get hg]
    exact (hv.sub hg).nonneg

theorem Charged.usedOf {now : Int} {requestId : String} {userId amount : Int}
    {chosen : UserSubscription} (h : Charged cal now db db' requestId userId amount chosen)
    (hp : db'.period id = db.period id) :
    db'.usedOf id = db.usedOf id + if chosen.id = id then amount else 0 := by
  by_cases hid : id = chosen.id
  · subst hid
    rw [period_of_get h.row, period_of_get h.stored, Option.some.injEq] at hp
    rw [usedOf_of_get h.row, usedOf_of_get h.stored, if_pos rfl]
    have hsame : (renew cal db now chosen).amountUsed = chosen.amountUsed :=
      renew_amountUsed_of_period hp
    simp only [hsame]
  · rw [if_neg (fun e => hid e.symm), add_zero]
    rcases h.others id hid with ho | ho
    · exact usedOf_congr ho
    rcases hg : db.subs.get id with _ | sub
    · rw [hg] at ho
      exact usedOf_congr (ho.trans hg.symm)
    rw [hg] at ho
    rw [period_of_get ho, period_of_get hg, Option.some.injEq] at hp
    rw [usedOf_of_get ho, usedOf_of_get hg]
    exact renew_amountUsed_of_period hp

theorem usedOf_save {i : Int} {row : UserSubscription}
    (hs : db'.subs = db.subs.save row) (h : db.subs.get i = some sub) (hk : row.id = sub.id)
    (id : Int) : db'.usedOf id = if i = id then row.amountUsed else db.usedOf id := by
  have hi : sub.id = i := key_of_get h
  by_cases hid : i = id
  · subst hid
    rw [if_pos rfl]
    refine usedOf_of_get ?_
    rw [hs]
    exact get_save_of_key h (hk.trans hi)
  rw [if_neg hid]
  refine usedOf_congr ?_
  rw [hs]
  refine get_save_ne _ ?_
  intro he
  exact hid (hi.symm.trans (hk.symm.trans he.symm))

theorem usedOf_setUsed {i used : Int} (h : db.subs.get i = some sub)
    (hs : db'.subs = db.subs.save { sub with amountUsed := used }) (id : Int) :
    db'.usedOf id = if i = id then used else db.usedOf id := usedOf_save hs h rfl id

end Used

/-! ## A small database -/

/-- The day since 1970 on which a month starts; months count from March of the year 0. -/
def monthStart (m : Int) : Int :=
  365 * (m / 12) + m / 12 / 4 - m / 12 / 100 + m / 12 / 400 + (153 * (m % 12) + 2) / 5 - 719468

/-- Counted by the mean month of 146097 / 4800 days, the month after the next has not begun. -/
theorem lt_monthStart (day : Int) : day < monthStart ((day + 719468) * 4800 / 146097 + 2) := by
  unfold monthStart
  omega

/-- The first month that starts after a day. -/
def nextMonth (day : Int) : Int :=
  let m := (day + 719468) * 4800 / 146097
  if day < monthStart m then m else if day < monthStart (m + 1) then m + 1 else m + 2

theorem lt_nextMonth (day : Int) : day < monthStart (nextMonth day) := by
  unfold nextMonth
  dsimp only
  split_ifs with hfirst hsecond
  · exact hfirst
  · exact hsecond
  · exact lt_monthStart day

/-- The calendar of UTC. -/
def utcCalendar : Calendar where
  startOfNextDay t := (t / 86400 + 1) * 86400
  startOfNextWeek t := ((t + 259200) / 604800 + 1) * 604800 - 259200
  startOfNextMonth t := monthStart (nextMonth (t / 86400)) * 86400
  lt_startOfNextDay t := by omega
  lt_startOfNextWeek t := by omega
  lt_startOfNextMonth t := by have := lt_nextMonth (t / 86400); omega

/-- User 1 with one subscription of 100 and no charges yet. -/
def smallDB (plan : SubscriptionPlan) : DB where
  subs := ⟨[⟨7, 1, plan.id, 100, 0, 0, 1000, .active, 0, 0⟩], by simp⟩
  records := ⟨[], by decide⟩
  plans := fun id => if id = plan.id then some plan else none

theorem duration_zero : (0 : Int) * 1000000000 < 2 ^ 63 := by decide

def neverPlan : SubscriptionPlan := ⟨3, "basic", .never, 0, duration_zero⟩

theorem smallDB_valid (plan : SubscriptionPlan) : (smallDB plan).Valid := by
  constructor
  · intro sub hs
    simp only [smallDB, mem_singleton] at hs
    subst hs
    exact ⟨by simp only; omega, by simp only; omega, fun _ => by simp only; omega⟩
  · intro r hr
    cases hr

end NewApi.Subscription
