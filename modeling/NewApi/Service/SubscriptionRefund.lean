import NewApi.Service.FundingSource

/-!
# Refunding a subscription charge with retries

`SubscriptionFunding.Refund` retries `RefundSubscriptionPreConsume`, which lowers the used amount
in a transaction of its own and then marks the record in the surrounding one.

* `attempt_open`, `attempt_closed` — an attempt on a consumed and on a refunded record.
* `RefundCall`, `runRefunds` — any sequence of refund calls for one request id.
* `refundDB_eq_attempts` — a retried call is its attempts one after another.
-/

namespace NewApi.Subscription

open NewApi.Text Table

/-! ## One attempt -/

/-- The attempt finds the record and commits the lowered amount. -/
def RefundFaults.lowers (f : RefundFaults) : Bool :=
  (f.outer .findRecord).isNone && (f.delta .findSub).isNone && (f.delta .saveSub).isNone && (f.delta .commit).isNone

/-- The attempt also marks the record and commits that. -/
def RefundFaults.completes (f : RefundFaults) : Bool :=
  f.lowers && (f.outer .saveRecord).isNone && (f.outer .commit).isNone

/-- The attempts that lower the amount, up to and including the first that completes. -/
def lowerings : List RefundFaults → Nat
  | [] => 0
  | f :: fs => if !f.lowers then lowerings fs else if f.completes then 1 else lowerings fs + 1

def attempt (requestId : String) (db : DB) (f : RefundFaults) : DB :=
  (refundSubscriptionPreConsume f db requestId).1

/-- A consumed record of `requestId` on a stored subscription. -/
structure Open (db : DB) (requestId : String) (record : SubscriptionPreConsumeRecord)
    (sub : UserSubscription) : Prop where
  valid : db.Valid
  nonblank : isBlank requestId = false
  stored : db.records.get requestId = some record
  consumed : record.status = .consumed
  charged : db.subs.get record.userSubscriptionId = some sub

section Attempt

variable {db : DB} {requestId : String} {record : SubscriptionPreConsumeRecord} {sub : UserSubscription}

def lowered (db : DB) (record : SubscriptionPreConsumeRecord) (sub : UserSubscription) : DB :=
  { db with subs := db.subs.save { sub with amountUsed := clampedUsed sub.amountUsed (-record.preConsumed) } }

theorem Open.pos (h : Open db requestId record sub) : 0 < record.preConsumed :=
  h.valid.records record (mem_of_get h.stored)

/-- The database with the amount lowered and the record marked. -/
def closed (db : DB) (record : SubscriptionPreConsumeRecord) (sub : UserSubscription) : DB :=
  { lowered db record sub with records := db.records.save { record with status := .refunded } }

theorem Open.delta (h : Open db requestId record sub) (fault : Faults DeltaStmt) :
    (∃ e, postConsumeUserSubscriptionDelta fault db record.userSubscriptionId (-record.preConsumed)
        = (db, .error e) ∧
        ¬ (fault .findSub = none ∧ fault .saveSub = none ∧ fault .commit = none)) ∨
    (postConsumeUserSubscriptionDelta fault db record.userSubscriptionId (-record.preConsumed)
        = (lowered db record sub, .ok ()) ∧
      fault .findSub = none ∧ fault .saveSub = none ∧ fault .commit = none) := by
  have hsub := h.valid.sub h.charged
  have hpos := h.pos
  have hid : ¬ record.userSubscriptionId ≤ 0 := by
    have hk : sub.id = record.userSubscriptionId := key_of_get h.charged
    have := hsub.pos
    omega
  have hd : ¬ -record.preConsumed = 0 := by omega
  -- the amount only falls, so the total is no obstacle
  have hfit : ¬ (0 < sub.amountTotal ∧ sub.amountTotal < clampedUsed sub.amountUsed (-record.preConsumed)) := by
    rintro ⟨ht, hlt⟩
    have := hsub.le_total ht
    unfold clampedUsed at hlt
    split at hlt <;> omega
  unfold postConsumeUserSubscriptionDelta
  rw [if_neg hid, if_neg hd]
  unfold transaction deltaBody
  rw [h.charged]
  cases h1 : fault .findSub with
  | some e => exact .inl ⟨e, rfl, by simp⟩
  | none =>
    simp only [if_neg hfit]
    cases h2 : fault .saveSub with
    | some e => exact .inl ⟨e, rfl, by simp⟩
    | none =>
      cases h3 : fault .commit with
      | some e => exact .inl ⟨e, rfl, by simp⟩
      | none => exact .inr ⟨rfl, by simp⟩

/-- **An attempt on a consumed record** closes it, lowers the amount and fails, or does nothing. -/
theorem attempt_open (h : Open db requestId record sub) (f : RefundFaults) :
    (f.lowers = true ∧ f.completes = true ∧
      refundSubscriptionPreConsume f db requestId = (closed db record sub, .ok ())) ∨
    (f.lowers = true ∧ f.completes = false ∧ ∃ e,
      refundSubscriptionPreConsume f db requestId = (lowered db record sub, .error e)) ∨
    (f.lowers = false ∧ ∃ e, refundSubscriptionPreConsume f db requestId = (db, .error e)) := by
  have hpos : ¬ record.preConsumed ≤ 0 := by have := h.pos; omega
  have hst : ¬ record.status = .refunded := by rw [h.consumed]; intro he; cases he
  unfold refundSubscriptionPreConsume RefundFaults.completes RefundFaults.lowers
  rw [h.nonblank, h.stored]
  simp only [Bool.false_eq_true, if_false]
  cases h1 : f.outer .findRecord with
  | some e => exact .inr (.inr ⟨rfl, e, rfl⟩)
  | none =>
    simp only [if_neg hst, if_neg hpos]
    rcases h.delta f.delta with ⟨e, hd, hfault⟩ | ⟨hd, h2, h3, h4⟩
    · right; right
      refine ⟨?_, e, by rw [hd]⟩
      by_contra hc
      simp only [Option.isNone_none, Bool.true_and, Bool.not_eq_false, Bool.and_eq_true,
        Option.isNone_iff_eq_none] at hc
      exact hfault ⟨hc.1.1, hc.1.2, hc.2⟩
    · rw [hd, h2, h3, h4]
      simp only [markRefunded, transaction]
      cases h5 : f.outer .saveRecord with
      | some e => exact .inr (.inl ⟨rfl, rfl, e, rfl⟩)
      | none =>
        cases h6 : f.outer .commit with
        | some e => exact .inr (.inl ⟨rfl, rfl, e, rfl⟩)
        | none => exact .inl ⟨rfl, rfl, rfl⟩

theorem attempt_closed (hrec : db.records.get requestId = some record)
    (hs : record.status = .refunded) (f : RefundFaults) : attempt requestId db f = db := by
  unfold attempt
  rcases hr : refundSubscriptionPreConsume f db requestId with ⟨db', r⟩
  rcases refund_cases hr with ⟨rfl, _⟩ | ⟨record', hrec', ⟨rfl, _⟩ | ⟨hc, _⟩ | ⟨hc, _⟩⟩
  · rfl
  · rfl
  · rw [hrec] at hrec'; cases hrec'; rw [hs] at hc; cases hc
  · rw [hrec] at hrec'; cases hrec'; rw [hs] at hc; cases hc

theorem attempts_closed (hrec : db.records.get requestId = some record)
    (hs : record.status = .refunded) :
    ∀ fs : List RefundFaults, fs.foldl (attempt requestId) db = db
  | [] => rfl
  | f :: fs => by rw [List.foldl_cons, attempt_closed hrec hs f]; exact attempts_closed hrec hs fs

section

variable (h : Open db requestId record sub)

include h

theorem Open.lowered : Open (lowered db record sub) requestId record
      { sub with amountUsed := clampedUsed sub.amountUsed (-record.preConsumed) } := by
  have hsub := h.valid.sub h.charged
  have hpos := h.pos
  have hk : sub.id = record.userSubscriptionId := key_of_get h.charged
  refine ⟨h.valid.save ⟨hsub.pos, clampedUsed_nonneg _ _, ?_⟩, h.nonblank, h.stored, h.consumed,
    get_save_of_key h.charged hk⟩
  simp only
  intro ht
  have := hsub.le_total ht
  unfold clampedUsed
  split <;> omega

theorem Open.usedOf : db.usedOf record.userSubscriptionId = sub.amountUsed := by
  unfold DB.usedOf; rw [h.charged]; rfl

theorem closed_get :
    (closed db record sub).records.get requestId = some { record with status := .refunded } := by
  have hk : record.requestId = requestId := key_of_get h.stored
  exact get_save_of_key h.stored hk

end

/-- **The used amount after any attempts**: each lowering takes the record's amount, down to
zero. -/
theorem used_after_attempts : ∀ (fs : List RefundFaults) {db : DB} {sub : UserSubscription},
    Open db requestId record sub →
    (fs.foldl (attempt requestId) db).usedOf record.userSubscriptionId =
      max 0 (sub.amountUsed - lowerings fs * record.preConsumed)
  | [], db, sub, h => by
    have := (h.valid.sub h.charged).nonneg
    simp only [List.foldl_nil, lowerings, h.usedOf]
    omega
  | f :: fs, db, sub, h => by
    have hpos := h.pos
    rw [List.foldl_cons]
    simp only [lowerings]
    rcases attempt_open h f with ⟨hl, hc, he⟩ | ⟨hl, hc, e, he⟩ | ⟨hl, e, he⟩
    · -- the record is closed: the remaining attempts do nothing
      have hstep : attempt requestId db f = closed db record sub := by unfold attempt; rw [he]
      rw [hstep, attempts_closed (closed_get h) rfl fs]
      have hused : (closed db record sub).usedOf record.userSubscriptionId =
          clampedUsed sub.amountUsed (-record.preConsumed) := h.lowered.usedOf
      simp only [hl, hc, Bool.not_true, Bool.false_eq_true, if_false, if_true, hused]
      unfold clampedUsed
      split <;> omega
    · have hstep : attempt requestId db f = lowered db record sub := by unfold attempt; rw [he]
      rw [hstep, used_after_attempts fs h.lowered]
      simp only [hl, hc, Bool.not_true, Bool.false_eq_true, if_false]
      have hk : (0 : Int) ≤ lowerings fs * record.preConsumed := by positivity
      have hexp : ((lowerings fs + 1 : Nat) : Int) * record.preConsumed =
          lowerings fs * record.preConsumed + record.preConsumed := by push_cast; ring
      unfold clampedUsed
      split <;> omega
    · have hstep : attempt requestId db f = db := by unfold attempt; rw [he]
      rw [hstep, used_after_attempts fs h]
      simp [hl]

theorem refund_ok_closed {f : RefundFaults} {db' : DB}
    (h : refundSubscriptionPreConsume f db requestId = (db', .ok ())) :
    ∃ record, db'.records.get requestId = some record ∧ record.status = .refunded := by
  rcases refund_cases h with ⟨_, e, he⟩ | ⟨record, hrec, hcase⟩
  · cases he
  have hk : record.requestId = requestId := key_of_get hrec
  rcases hcase with ⟨rfl, hs, _⟩ | ⟨_, _, _, rfl⟩ | ⟨_, _, db₁, hd, hend⟩
  · exact ⟨record, hrec, hs⟩
  · exact ⟨_, get_save_of_key hrec hk, rfl⟩
  rcases hend with ⟨_, e, he⟩ | ⟨_, rfl⟩
  · cases he
  have hrec₁ : db₁.records.get requestId = some record := by
    rcases delta_cases hd with ⟨rfl, _⟩ | ⟨rfl, _⟩ | ⟨_, _, sub, _, _, rfl⟩ <;> exact hrec
  exact ⟨_, get_save_of_key hrec₁ hk, rfl⟩

end Attempt

end NewApi.Subscription

namespace NewApi.Billing

open NewApi.Subscription NewApi.Text

/-! ## Calls -/

/-- A refund for one request id: through the funding source, or the model function itself. -/
inductive RefundCall where
  | funding (fault : Nat → RefundFaults)
  | direct (fault : RefundFaults)

def RefundCall.run (s : SubscriptionFunding) (db : DB) : RefundCall → DB
  | .funding fault => (s.refundDB fault db).1
  | .direct fault => (refundSubscriptionPreConsume fault db s.requestId).1

def runRefunds (s : SubscriptionFunding) (db : DB) (calls : List RefundCall) : DB :=
  calls.foldl (RefundCall.run s) db

/-- The attempts a call may make. -/
def RefundCall.attempts : RefundCall → List RefundFaults
  | .funding fault => [fault 0, fault 1, fault 2]
  | .direct fault => [fault]

/-- One round of the retry loop: stopping after a success is the same as going on, because an
attempt on the closed record does nothing. -/
theorem retryFrom_eq_attempts {requestId : String} {fault : Nat → RefundFaults} :
    ∀ (n i : Nat) (db : DB),
      (retryFrom (fun i db => refundSubscriptionPreConsume (fault i) db requestId) n i db).1 =
        ((List.range' i (n + 1)).map fault).foldl (attempt requestId) db
  | 0, i, db => rfl
  | n + 1, i, db => by
    rw [List.range'_succ, List.map_cons, List.foldl_cons]
    unfold retryFrom
    rcases hr : refundSubscriptionPreConsume (fault i) db requestId with ⟨db', r⟩
    have hstep : attempt requestId db (fault i) = db' := by unfold attempt; rw [hr]
    rw [hstep]
    cases r with
    | error e => exact retryFrom_eq_attempts n (i + 1) db'
    | ok u =>
      obtain ⟨record, hrec, hs⟩ := refund_ok_closed hr
      exact (attempts_closed hrec hs _).symm

theorem refundDB_eq_attempts {s : SubscriptionFunding} (hs : 0 < s.preConsumed)
    (fault : Nat → RefundFaults) (db : DB) :
    (s.refundDB fault db).1 = [fault 0, fault 1, fault 2].foldl (attempt s.requestId) db := by
  unfold SubscriptionFunding.refundDB refundWithRetry
  rw [if_neg (by omega)]
  exact retryFrom_eq_attempts 2 0 db

theorem runRefunds_eq_attempts {s : SubscriptionFunding} (hs : 0 < s.preConsumed) :
    ∀ (calls : List RefundCall) (db : DB),
      runRefunds s db calls = (calls.flatMap RefundCall.attempts).foldl (attempt s.requestId) db
  | [], _ => rfl
  | call :: calls, db => by
    have hcall : call.run s db = call.attempts.foldl (attempt s.requestId) db := by
      cases call with
      | funding fault => exact refundDB_eq_attempts hs fault db
      | direct fault => rfl
    rw [List.flatMap_cons, List.foldl_append, ← hcall]
    exact runRefunds_eq_attempts hs calls _

/-- **When a charge is refunded at most once**: for any refund calls, the used amount falls by at
most the record's amount exactly when there was no more to take, or at most one attempt lowers it
before the record is marked. -/
theorem refund_lowers_once_iff (s : SubscriptionFunding) (db : DB)
    (record : SubscriptionPreConsumeRecord) (sub : UserSubscription)
    (ho : Open db s.requestId record sub) (hs : s.preConsumed = record.preConsumed)
    (calls : List RefundCall) :
    db.usedOf record.userSubscriptionId - (runRefunds s db calls).usedOf record.userSubscriptionId
        ≤ record.preConsumed ↔
      db.usedOf record.userSubscriptionId ≤ record.preConsumed ∨
        lowerings (calls.flatMap RefundCall.attempts) ≤ 1 := by
  have hpos := ho.pos
  rw [runRefunds_eq_attempts (by omega), used_after_attempts _ ho, ho.usedOf]
  generalize lowerings (calls.flatMap RefundCall.attempts) = k
  constructor
  · intro hle
    by_contra hc
    push Not at hc
    obtain ⟨hused, hk⟩ := hc
    -- two lowerings take more than one amount
    have h2 : (2 : Int) * record.preConsumed ≤ k * record.preConsumed :=
      mul_le_mul_of_nonneg_right (by exact_mod_cast hk) (by omega)
    omega
  · rintro (hused | hk)
    · omega
    have h1 : (k : Int) * record.preConsumed ≤ 1 * record.preConsumed :=
      mul_le_mul_of_nonneg_right (by exact_mod_cast hk) (by omega)
    omega

/-! ## A commit that fails -/

/-- A subscription of 100 with 30 used, 10 of them by the consumed record of `req-1`. -/
def chargedDB : DB where
  subs := ⟨[⟨7, 1, 3, 100, 30, 0, 1000, .active, 0, 0⟩], by simp⟩
  records := ⟨[⟨"req-1", 1, 7, 10, .consumed⟩], by simp⟩
  plans := fun _ => none

def chargedFunding : SubscriptionFunding := ⟨"req-1", 1, "model", 10, 7, 10, 100, 30, 3, "basic"⟩

theorem chargedDB_open : Open chargedDB chargedFunding.requestId ⟨"req-1", 1, 7, 10, .consumed⟩
    ⟨7, 1, 3, 100, 30, 0, 1000, .active, 0, 0⟩ := by
  refine ⟨⟨?_, ?_⟩, by decide, by decide, rfl, by decide⟩
  · intro sub hs
    simp only [chargedDB, List.mem_singleton] at hs
    subst hs
    exact ⟨by decide, by decide, by decide⟩
  intro r hr
  simp only [chargedDB, List.mem_singleton] at hr
  subst hr
  decide

/-- The first attempt loses the outer commit, after the amount was lowered. -/
def commitLost : Nat → RefundFaults
  | 0 => ⟨fun s => if s = .commit then some "commit failed" else none, fun _ => none⟩
  | _ => RefundFaults.none

theorem refund_lowers_once_without_faults :
    chargedDB.usedOf 7 - (runRefunds chargedFunding chargedDB
      [.funding (fun _ => RefundFaults.none), .direct RefundFaults.none]).usedOf 7 ≤ 10 :=
  (refund_lowers_once_iff chargedFunding chargedDB _ _ chargedDB_open rfl _).mpr (.inr (by decide))

/-- One call of `Refund` whose first attempt loses its outer commit returns the charge twice. -/
theorem refund_after_lost_commit_lowers_twice :
    ¬ ∀ (s : SubscriptionFunding) (db : DB) (record : SubscriptionPreConsumeRecord)
      (sub : UserSubscription), Open db s.requestId record sub →
      s.preConsumed = record.preConsumed →
      ∀ calls : List RefundCall, db.usedOf record.userSubscriptionId
          - (runRefunds s db calls).usedOf record.userSubscriptionId ≤ record.preConsumed := by
  intro h
  have hbad := h chargedFunding chargedDB _ _ chargedDB_open rfl [.funding commitLost]
  exact absurd hbad (by decide)

end NewApi.Billing
