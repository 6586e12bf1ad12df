import NewApi.Model.TopUp

/-!
# Runs of calls on one top-up order

Webhooks, administrators and cancellations call the functions of `NewApi.Model.TopUp` on one order,
in any order and any number of times, under settings that may change in between. `FOR UPDATE` makes
each call one step.

* `TopUpCall`, `TopUpRun.step` — the calls, and what they have credited so far.
* `call_frozen` — an order that is not pending keeps everything as it is.
* `success_without_credit` — a caller of `UpdatePendingTopUpStatus` that passes `success`, and a
  user who is gone, leave a successful order that nobody was credited for.
-/

namespace NewApi.Payment

open List Table

open NewApi.Subscription (Faults)

inductive TopUpCall where
  | recharge (customerId : String)
  | rechargeCreem (customerEmail : String)
  | completeEpayTopUp (paymentMethod : String)
  | rechargeWaffo
  | rechargeWaffoPancake
  | manualCompleteTopUp
  | updatePendingTopUpStatus (expected : Option PaymentProvider) (target : TopUpStatus)
  deriving DecidableEq, Repr

/-- What a call meets. -/
structure CallEnv where
  settings : Settings
  now : Int
  fault : Faults TopUpStmt

def TopUpCall.run (call : TopUpCall) (e : CallEnv) (db : TopUpDB) (tradeNo : String) :
    TopUpDB × Except TopUpError (Option ℚ) :=
  match call with
  | .recharge customerId => (Payment.recharge e.settings customerId).run e.fault e.now db tradeNo
  | .rechargeCreem customerEmail => (Payment.rechargeCreem customerEmail).run e.fault e.now db tradeNo
  | .completeEpayTopUp paymentMethod =>
    (Payment.completeEpayTopUp e.settings paymentMethod).run e.fault e.now db tradeNo
  | .rechargeWaffo => (Payment.rechargeWaffo e.settings).run e.fault e.now db tradeNo
  | .rechargeWaffoPancake => (Payment.rechargeWaffoPancake e.settings).run e.fault e.now db tradeNo
  | .manualCompleteTopUp => (Payment.manualCompleteTopUp e.settings).run e.fault e.now db tradeNo
  | .updatePendingTopUpStatus expected target =>
    Payment.updatePendingTopUpStatus e.fault db tradeNo expected target

/-- The targets that the callers of `UpdatePendingTopUpStatus` pass. -/
def TopUpCall.gentle : TopUpCall → Bool
  | .updatePendingTopUpStatus _ target => decide (target = .expired ∨ target = .failed)
  | _ => true

structure TopUpRun where
  db : TopUpDB
  /-- The quotas credited so far. -/
  credited : List ℚ

def TopUpRun.step (tradeNo : String) (s : TopUpRun) (c : CallEnv × TopUpCall) : TopUpRun :=
  match c.2.run c.1 s.db tradeNo with
  | (db, .ok (some quota)) => ⟨db, s.credited ++ [quota]⟩
  | (db, _) => ⟨db, s.credited⟩

def TopUpRun.run (tradeNo : String) (s : TopUpRun) (calls : List (CallEnv × TopUpCall)) :
    TopUpRun :=
  calls.foldl (TopUpRun.step tradeNo) s

def TopUpDB.statusOf (db : TopUpDB) (tradeNo : String) : Option TopUpStatus :=
  (db.topUps.get tradeNo).map TopUp.status

def TopUpDB.quotaOf (db : TopUpDB) (userId : Int) : Option ℚ :=
  (db.users.get userId).map Payer.quota

/-! ## One call -/

section Call

variable {e : CallEnv} {call : TopUpCall} {db db' : TopUpDB} {tradeNo : String}

/-- **Everything a call can do**: nothing, complete a pending order, or move it to the target. -/
theorem call_cases {r : Except TopUpError (Option ℚ)} (h : call.run e db tradeNo = (db', r)) :
    (db' = db ∧ ((∃ err, r = .error err) ∨ r = .ok none)) ∨
    (∃ (c : Completion) (topUp : TopUp) (quota : ℚ), db.topUps.get tradeNo = some topUp ∧
      topUp.status = .pending ∧ r = .ok (some quota) ∧ db' = c.apply e.now db topUp quota) ∨
    (∃ expected target topUp, call = .updatePendingTopUpStatus expected target ∧
      db.topUps.get tradeNo = some topUp ∧ topUp.status = .pending ∧ r = .ok none ∧
      db' = { db with topUps := db.topUps.save { topUp with status := target } }) := by
  have hcompletion : ∀ {c : Completion}, c.run e.fault e.now db tradeNo = (db', r) →
      (db' = db ∧ ((∃ err, r = .error err) ∨ r = .ok none)) ∨
      (∃ (c : Completion) (topUp : TopUp) (quota : ℚ), db.topUps.get tradeNo = some topUp ∧
        topUp.status = .pending ∧ r = .ok (some quota) ∧ db' = c.apply e.now db topUp quota) := by
    intro c hc
    rcases c.run_cases hc with ⟨hdb, herr⟩ | ⟨hdb, hr, _⟩ | ⟨topUp, quota, hget, hpend, _, _, hr,
      hdb⟩
    · exact .inl ⟨hdb, .inl herr⟩
    · exact .inl ⟨hdb, .inr hr⟩
    · exact .inr ⟨c, topUp, quota, hget, hpend, hr, hdb⟩
  cases call with
  | updatePendingTopUpStatus expected target =>
    rcases updatePendingTopUpStatus_cases h with ⟨hdb, herr⟩ | ⟨topUp, hget, hpend, hr, hdb⟩
    · exact .inl ⟨hdb, .inl herr⟩
    · exact .inr (.inr ⟨expected, target, topUp, rfl, hget, hpend, hr, hdb⟩)
  | _ => exact (hcompletion h).imp_right .inl

theorem call_error {err : TopUpError} (h : call.run e db tradeNo = (db', .error err)) :
    db' = db := by
  rcases call_cases h with ⟨hdb, _⟩ | ⟨_, _, _, _, _, hr, _⟩ | ⟨_, _, _, _, _, _, hr, _⟩
  · exact hdb
  · cases hr
  · cases hr

theorem call_frozen {row : TopUp} (hrow : db.topUps.get tradeNo = some row)
    (hne : row.status ≠ .pending) : (call.run e db tradeNo).1 = db := by
  rcases hc : call.run e db tradeNo with ⟨db', r⟩
  rcases call_cases hc with ⟨hdb, _⟩ | ⟨_, topUp, _, hget, hpend, _⟩ | ⟨_, _, topUp, _, hget, hpend,
    _⟩
  · exact hdb
  · cases hrow.symm.trans hget
    exact absurd hpend hne
  · cases hrow.symm.trans hget
    exact absurd hpend hne

theorem Completion.apply_row (c : Completion) {now : Int} {topUp : TopUp} {quota : ℚ}
    (h : db.topUps.get tradeNo = some topUp) : (c.apply now db topUp quota).topUps.get tradeNo =
      some { topUp with paymentMethod := c.paymentMethod topUp, completeTime := now, status := .success } := by
  have htrade : topUp.tradeNo = tradeNo := key_of_get h
  exact get_save_of_key h htrade

theorem Completion.apply_quotaOf (c : Completion) (now : Int) (topUp : TopUp) (quota : ℚ)
    (userId : Int) :
    (c.apply now db topUp quota).quotaOf userId =
      (db.quotaOf userId).map fun q => if userId = topUp.userId then q + quota else q := by
  simp only [TopUpDB.quotaOf, apply, get_exec, Option.map_map]
  cases hu : db.users.get userId with
  | none => rfl
  | some u =>
    have hid : u.id = userId := key_of_get hu
    simp only [Option.map_some, Function.comp, Table.Update.apply, credit, hid, decide_eq_true_eq]
    split <;> rfl

end Call

/-! ## Runs -/

section Runs

variable {tradeNo : String} {order : TopUp}

/-- One credit exactly when the order has succeeded, and the quotas show it. -/
structure Accounted (tradeNo : String) (order : TopUp) (db : TopUpDB) (s : TopUpRun) : Prop where
  row : ∃ row, s.db.topUps.get tradeNo = some row ∧ row.userId = order.userId ∧
    (row.status = .success ∧ s.credited.length = 1 ∨
      (row.status = .pending ∨ row.status = .expired ∨ row.status = .failed) ∧ s.credited = [])
  quota : ∀ userId, s.db.quotaOf userId =
    (db.quotaOf userId).map fun q => if userId = order.userId then q + s.credited.sum else q

theorem Accounted.step {db : TopUpDB} {s : TopUpRun} {c : CallEnv × TopUpCall}
    (h : Accounted tradeNo order db s) (hgentle : c.2.gentle = true) :
    Accounted tradeNo order db (s.step tradeNo c) := by
  obtain ⟨row, hrow, huser, hstatus⟩ := h.row
  have hnil : row.status = .pending → s.credited = [] := by
    intro hpend
    rcases hstatus with ⟨hsucc, _⟩ | ⟨_, hnil⟩
    · rw [hpend] at hsucc; cases hsucc
    · exact hnil
  unfold TopUpRun.step
  rcases hc : c.2.run c.1 s.db tradeNo with ⟨db', r⟩
  rcases call_cases hc with ⟨rfl, hr⟩ | ⟨comp, topUp, quota, hget, hpend, rfl, rfl⟩ |
    ⟨expected, target, topUp, hcall, hget, hpend, rfl, rfl⟩
  · have hsame : Accounted tradeNo order db ⟨s.db, s.credited⟩ := h
    rcases hr with ⟨err, rfl⟩ | rfl <;> exact hsame
  · cases hrow.symm.trans hget
    refine ⟨⟨_, comp.apply_row hrow, huser, .inl ⟨rfl, by simp [hnil hpend]⟩⟩, fun userId => ?_⟩
    simp only [comp.apply_quotaOf, h.quota, hnil hpend, Option.map_map, huser]
    congr 1
    funext q
    simp
  · cases hrow.symm.trans hget
    have htarget : target = .expired ∨ target = .failed := by
      rw [hcall] at hgentle
      exact of_decide_eq_true hgentle
    have htrade : row.tradeNo = tradeNo := key_of_get hrow
    exact ⟨⟨_, get_save_of_key hrow htrade, huser, .inr ⟨.inr htarget, hnil hpend⟩⟩, h.quota⟩

theorem Accounted.run {db : TopUpDB} : ∀ {calls : List (CallEnv × TopUpCall)} {s : TopUpRun},
    (∀ c ∈ calls, c.2.gentle = true) → Accounted tradeNo order db s →
      Accounted tradeNo order db (s.run tradeNo calls)
  | [], _, _, h => h
  | c :: calls, s, hg, h => by
    have hstep := h.step (hg c mem_cons_self)
    have hrest : ∀ d ∈ calls, d.2.gentle = true := fun d hd => hg d (mem_cons_of_mem c hd)
    exact (run hrest hstep :)

theorem step_db (s : TopUpRun) (c : CallEnv × TopUpCall) :
    (s.step tradeNo c).db = (c.2.run c.1 s.db tradeNo).1 := by
  unfold TopUpRun.step
  split <;> rename_i hc <;> rw [hc]

theorem run_frozen {s : TopUpRun} {row : TopUp} (hrow : s.db.topUps.get tradeNo = some row)
    (hne : row.status ≠ .pending) (calls : List (CallEnv × TopUpCall)) :
    (s.run tradeNo calls).db = s.db := by
  refine foldl_invariant (P := fun s' : TopUpRun => s'.db = s.db) (fun s' c hs => ?_) calls rfl
  rw [step_db, hs]
  exact call_frozen hrow hne

end Runs

/-- **An order ends once and is credited once.** After any calls on a pending order its status is
pending, success, expired or failed, and final once it is not pending; on success exactly one call
has credited the user, otherwise none. A call that fails changes nothing. -/
theorem top_up_credited_once (db : TopUpDB) (tradeNo : String) (order : TopUp) (user : Payer)
    (calls later : List (CallEnv × TopUpCall)) (horder : db.topUps.get tradeNo = some order)
    (hpending : order.status = .pending) (huser : db.users.get order.userId = some user)
    (hgentle : ∀ c ∈ calls, c.2.gentle = true) :
    let s := TopUpRun.run tradeNo ⟨db, []⟩ calls
    (∃ status ∈ [TopUpStatus.pending, .success, .expired, .failed], s.db.statusOf tradeNo = some status ∧
      (status ≠ .pending → (s.run tradeNo later).db = s.db)) ∧
    (s.db.statusOf tradeNo = some .success →
      ∃ quota, s.credited = [quota] ∧ s.db.quotaOf order.userId = some (user.quota + quota)) ∧
    (s.db.statusOf tradeNo ≠ some .success → s.credited = [] ∧ s.db.quotaOf order.userId = some user.quota) ∧
    (∀ userId, userId ≠ order.userId → s.db.quotaOf userId = db.quotaOf userId) ∧
    (∀ e (call : TopUpCall) db' err, call.run e s.db tradeNo = (db', .error err) → db' = s.db) := by
  intro s
  have hstart : Accounted tradeNo order db ⟨db, []⟩ :=
    ⟨⟨order, horder, rfl, .inr ⟨.inl hpending, rfl⟩⟩, fun userId => by simp⟩
  have hs : Accounted tradeNo order db s := hstart.run hgentle
  obtain ⟨row, hrow, _, hstatus⟩ := hs.row
  have hof : s.db.statusOf tradeNo = some row.status := by rw [TopUpDB.statusOf, hrow]; rfl
  have hquota : s.db.quotaOf order.userId = some (user.quota + s.credited.sum) := by
    rw [hs.quota, TopUpDB.quotaOf, huser]
    simp
  refine ⟨⟨row.status, ?_, hof, fun hne => run_frozen hrow hne later⟩, fun hsucc => ?_,
    fun hsucc => ?_, fun userId hne => ?_, fun e call db' err h => call_error h⟩
  · rcases hstatus with ⟨h, _⟩ | ⟨h | h | h, _⟩ <;> simp [h]
  · rcases hstatus with ⟨_, hone⟩ | ⟨hother, _⟩
    · obtain ⟨quota, hq⟩ := length_eq_one_iff.mp hone
      exact ⟨quota, hq, by rw [hquota, hq]; simp⟩
    · rw [hof] at hsucc
      rcases hother with h | h | h <;> rw [h] at hsucc <;> cases hsucc
  · rcases hstatus with ⟨h, _⟩ | ⟨_, hnil⟩
    · exact absurd (hof.trans (congrArg some h)) hsucc
    · exact ⟨hnil, by rw [hquota, hnil]; simp⟩
  · rw [hs.quota]
    simp [hne]

/-! ## Small orders -/

/-- A pending order over 10 units, paid with 10. -/
def sampleOrder (provider : PaymentProvider) : TopUp where
  userId := 1
  amount := 10
  money := 10
  tradeNo := "T1"
  paymentMethod := ""
  paymentProvider := provider
  createTime := 0
  completeTime := 0
  status := .pending

def sampleOrders (provider : PaymentProvider) (userGone : Bool) : TopUpDB where
  topUps := ⟨[sampleOrder provider], by simp⟩
  users := if userGone then ⟨[], by simp⟩ else ⟨[⟨1, 0, "", ""⟩], by simp⟩

/-- Nothing fails; a unit is 500000 quota. -/
def quietCall : CallEnv := ⟨⟨500000, 1⟩, 50, fun _ => none⟩

/-- A late cancellation, a second webhook and a manual completion after the first webhook. -/
def sampleCalls : List (CallEnv × TopUpCall) :=
  [(quietCall, .rechargeWaffo), (quietCall, .updatePendingTopUpStatus (some .waffo) .failed),
    (quietCall, .rechargeWaffo), (quietCall, .manualCompleteTopUp)]

theorem sampleCalls_credit_once :
    (TopUpRun.run "T1" ⟨sampleOrders .waffo false, []⟩ sampleCalls).db.statusOf "T1" = some .success ∧
    ∃ quota, (TopUpRun.run "T1" ⟨sampleOrders .waffo false, []⟩ sampleCalls).credited = [quota] ∧
      (TopUpRun.run "T1" ⟨sampleOrders .waffo false, []⟩ sampleCalls).db.quotaOf 1 = some (0 + quota) := by
  have hsucc : (TopUpRun.run "T1" ⟨sampleOrders .waffo false, []⟩ sampleCalls).db.statusOf "T1" =
      some .success := by decide +kernel
  exact ⟨hsucc, (top_up_credited_once (sampleOrders .waffo false) "T1" (sampleOrder .waffo) ⟨1, 0, "", ""⟩
    sampleCalls [] rfl rfl rfl (by decide)).2.1 hsucc⟩

/-- A caller passes `success` as the target; and a user is gone when the administrator completes. -/
theorem success_without_credit :
    let passed := TopUpRun.run "T1" ⟨sampleOrders .stripe false, []⟩
      [(quietCall, .updatePendingTopUpStatus none .success)]
    let gone := TopUpRun.run "T1" ⟨sampleOrders .waffo true, []⟩ [(quietCall, .manualCompleteTopUp)]
    (passed.db.statusOf "T1" = some .success ∧ passed.credited = [] ∧ passed.db.quotaOf 1 = some 0) ∧
    (gone.db.statusOf "T1" = some .success ∧ gone.db.quotaOf 1 = none) := by
  decide +kernel

end NewApi.Payment
