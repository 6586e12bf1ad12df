import NewApi.Lib.Decimal
import NewApi.Lib.Run
import NewApi.Model.QuotaWrites

/-!
# Writers of a user's quota (`model/user.go`)

`IncreaseUserQuota` and `DecreaseUserQuota` add to the quota in place. `inviteUser` and
`TransferAffQuotaToQuota` read the whole row and save the whole row.

* `UserRun`, `UserAct`, `UserRun.step` — one database statement at a time, in any order, with the
  sums of what the calls have reported as done.
-/

namespace NewApi.Quota

/-! ## The row and its calls -/

structure UserRow where
  quota : Int
  affCount : Int
  affQuota : Int
  affHistoryQuota : Int
  deriving DecidableEq, Repr

/-- A call that reads the row and saves it whole; the number tells calls with equal arguments
apart. -/
inductive RowCall where
  | inviteUser (n : Nat) (quotaForInviter : Int)
  | transferAffQuotaToQuota (n : Nat) (quota : Int)
  deriving DecidableEq, Repr

/-- The row that a call saves, from the row it has read. -/
def RowCall.saved : RowCall → UserRow → UserRow
  | .inviteUser _ quotaForInviter, user =>
    { user with
      affCount := user.affCount + 1
      affQuota := user.affQuota + quotaForInviter
      affHistoryQuota := user.affHistoryQuota + quotaForInviter }
  | .transferAffQuotaToQuota _ quota, user =>
    { user with affQuota := user.affQuota - quota, quota := user.quota + quota }

structure QuotaConfig where
  quotaPerUnit : ℚ
  /-- `logger.LogQuota`. -/
  logQuota : Int → String
  batchUpdateEnabled : Bool
  /-- Whether the `FOR UPDATE` of a transfer makes other transfers wait. -/
  rowLocks : Bool

/-- The check before the transaction of a transfer. -/
def checkTransferMinimum (cfg : QuotaConfig) (quota : Int) : Except String Unit :=
  if (quota : ℚ) < cfg.quotaPerUnit then
    .error ("转移额度最小为" ++ cfg.logQuota (Decimal.intPart cfg.quotaPerUnit) ++ "！")
  else .ok ()

/-- The check after the locking read. -/
def checkAffQuota (user : UserRow) (quota : Int) : Except String Unit :=
  if user.affQuota < quota then .error "邀请额度不足！" else .ok ()

/-- `UPDATE users SET quota = quota + ?`. -/
def addUserQuota (amount : Int) (user : UserRow) : UserRow :=
  { user with quota := user.quota + amount }

/-! ## Runs -/

structure UserRun extends Counted RowCall UserRow where
  /-- Some transfer is between its locking read and its commit. -/
  locked : Bool
  /-- The amounts of the transfers and rewards that have returned without error. -/
  transferred : Int
  rewarded : Int

def UserRun.start (row : UserRow) : UserRun := ⟨Counted.start row, false, 0, 0⟩

inductive UserAct where
  /-- The read of a call; for a transfer with the checks on both sides of it. -/
  | read (call : RowCall) (fault : Option String)
  /-- The save of a call; for a transfer with its commit, which no other write can precede. -/
  | save (call : RowCall) (fault : Option String)
  | increaseUserQuota (quota : Int) (db : Bool) (fault : Option String)
  | decreaseUserQuota (quota : Int) (db : Bool) (fault : Option String)
  /-- The two halves of `batchUpdate`. -/
  | collect
  | write (fault : Option String)

namespace UserRun

def increaseUserQuota (cfg : QuotaConfig) (s : UserRun) (quota : Int) (db : Bool)
    (fault : Option String) : UserRun × Except String Unit :=
  let (counted, r) := s.increase (!db && cfg.batchUpdateEnabled) addUserQuota quota fault
  ({ s with toCounted := counted }, r)

def decreaseUserQuota (cfg : QuotaConfig) (s : UserRun) (quota : Int) (db : Bool)
    (fault : Option String) : UserRun × Except String Unit :=
  let (counted, r) := s.decrease (!db && cfg.batchUpdateEnabled) addUserQuota quota fault
  ({ s with toCounted := counted }, r)

def read (cfg : QuotaConfig) (s : UserRun) (fault : Option String) : RowCall → UserRun
  | .inviteUser n quotaForInviter =>
    match fault with
    | some _ => s
    | none => { s with cell := s.cell.read (.inviteUser n quotaForInviter) }
  | .transferAffQuotaToQuota n quota =>
    match checkTransferMinimum cfg quota, fault with
    | .error _, _ => s
    | .ok (), some _ => s
    | .ok (), none =>
      -- the statement waits for the transaction that holds the row
      if cfg.rowLocks && s.locked then s
      else
        match checkAffQuota s.cell.row quota with
        | .error _ => s
        | .ok () => { s with cell := s.cell.read (.transferAffQuotaToQuota n quota), locked := true }

/-- The end of a call: a transfer gives the row free. -/
def finish (s : UserRun) : RowCall → UserRun
  | .inviteUser _ _ => s
  | .transferAffQuotaToQuota _ _ => { s with locked := false }

/-- The sums after a call has returned without error. -/
def report (s : UserRun) : RowCall → UserRun
  | .inviteUser _ quotaForInviter => { s with rewarded := s.rewarded + quotaForInviter }
  | .transferAffQuotaToQuota _ quota => { s with transferred := s.transferred + quota }

def save (s : UserRun) (call : RowCall) (fault : Option String) : UserRun :=
  match s.cell.copy call, fault with
  | none, _ => s
  | some _, some _ => ({ s with cell := s.cell.forget call }).finish call
  | some _, none =>
    (({ s with cell := s.cell.writeBack call fun copy _ => call.saved copy }).report call).finish call

def step (cfg : QuotaConfig) (s : UserRun) : UserAct → UserRun
  | .read call fault => s.read cfg fault call
  | .save call fault => s.save call fault
  | .increaseUserQuota quota db fault => (s.increaseUserQuota cfg quota db fault).1
  | .decreaseUserQuota quota db fault => (s.decreaseUserQuota cfg quota db fault).1
  | .collect => { s with toCounted := s.collect }
  | .write fault => { s with toCounted := s.toCounted.write addUserQuota fault }

def run (cfg : QuotaConfig) (s : UserRun) (acts : List UserAct) : UserRun :=
  acts.foldl (UserRun.step cfg) s

end UserRun

/-- The quota, with what still waits in the batch store, and the affiliate balance are explained by
the calls that have succeeded. -/
def Kept (row : UserRow) (s : UserRun) : Prop :=
  s.cell.row.quota + s.batch.waiting = row.quota + s.increased + s.transferred - s.decreased ∧
  s.cell.row.affQuota = row.affQuota + s.rewarded - s.transferred

/-- Quota and affiliate balance. -/
def funds (user : UserRow) : Int × Int := (user.quota, user.affQuota)

/-- A save finds the funds as they were read, and a batch of some amount is written without
error. -/
def intact (s : UserRun) : UserAct → Bool
  | .save call none => decide (s.cell.lost funds call = 0)
  | .write (some _) => decide (s.batch.taken.getD 0 = 0)
  | _ => true

/-! ## Steps -/

section Steps

variable {cfg : QuotaConfig} {row : UserRow} {s : UserRun}

theorem addUserQuota_quota (a : Int) (user : UserRow) :
    (addUserQuota a user).quota = user.quota + a := rfl

theorem addUserQuota_affQuota (a : Int) (user : UserRow) :
    (addUserQuota a user).affQuota = user.affQuota := rfl

open Counted

theorem kept_iff_net : Kept row s ↔ s.net UserRow.quota = row.quota + s.transferred ∧
      s.cell.row.affQuota = row.affQuota + s.rewarded - s.transferred := by
  simp only [Kept, net]
  omega

theorem Kept.of_net (h : Kept row s) {c : Counted RowCall UserRow}
    (hnet : c.net UserRow.quota = s.net UserRow.quota)
    (haff : c.cell.row.affQuota = s.cell.row.affQuota) : Kept row { s with toCounted := c } := by
  rw [kept_iff_net] at h ⊢
  exact ⟨hnet.trans h.1, haff.trans h.2⟩

theorem Kept.increaseUserQuota (h : Kept row s) (quota : Int) (db : Bool) (fault : Option String) :
    Kept row (s.increaseUserQuota cfg quota db fault).1 :=
  h.of_net (net_increase addUserQuota_quota quota) (row_increase addUserQuota_affQuota quota)

theorem Kept.decreaseUserQuota (h : Kept row s) (quota : Int) (db : Bool) (fault : Option String) :
    Kept row (s.decreaseUserQuota cfg quota db fault).1 :=
  h.of_net (net_decrease addUserQuota_quota quota) (row_decrease addUserQuota_affQuota quota)

theorem Kept.read (h : Kept row s) (fault : Option String) (call : RowCall) :
    Kept row (s.read cfg fault call) := by
  rcases call with ⟨n, reward⟩ | ⟨n, quota⟩
  · simp only [UserRun.read]
    split
    · exact h
    · exact h
  simp only [UserRun.read]
  split
  · exact h
  · exact h
  split
  · exact h
  split
  · exact h
  · exact h

theorem kept_finish (call : RowCall) : Kept row (s.finish call) ↔ Kept row s := by
  cases call <;> exact Iff.rfl

/-- The funds that a call means to add. -/
def RowCall.gain : RowCall → Int × Int
  | .inviteUser _ quotaForInviter => (0, quotaForInviter)
  | .transferAffQuotaToQuota _ quota => (quota, -quota)

theorem funds_saved (call : RowCall) (user : UserRow) :
    funds (call.saved user) = funds user + call.gain := by
  cases call with
  | inviteUser n reward => simp [funds, RowCall.saved, RowCall.gain]
  | transferAffQuotaToQuota n quota =>
    simp only [funds, RowCall.saved, RowCall.gain, Prod.mk_add_mk, Prod.mk.injEq, true_and]
    omega

/-- The funds that the sums account for. -/
def UserRun.explained (row : UserRow) (s : UserRun) : Int × Int :=
  (row.quota + s.increased + s.transferred - s.decreased - s.batch.waiting, row.affQuota + s.rewarded - s.transferred)

theorem kept_iff_explained : Kept row s ↔ funds s.cell.row = s.explained row := by
  simp only [Kept, funds, UserRun.explained, Prod.mk.injEq]
  omega

theorem explained_report (call : RowCall) :
    (s.report call).explained row = s.explained row + call.gain := by
  cases call with
  | inviteUser n reward | transferAffQuotaToQuota n quota =>
    simp only [UserRun.explained, UserRun.report, RowCall.gain, Prod.mk_add_mk, Prod.mk.injEq]
    omega

theorem cell_report (call : RowCall) : (s.report call).cell = s.cell := by
  cases call <;> rfl

theorem Kept.save_iff (h : Kept row s) (call : RowCall) (fault : Option String) :
    Kept row (s.save call fault) ↔ intact s (.save call fault) = true := by
  unfold UserRun.save
  rcases hc : s.cell.copy call with _ | copy
  · cases fault with
    | none => simp [intact, Cell.lost, hc, h]
    | some e => exact ⟨fun _ => rfl, fun _ => h⟩
  cases fault with
  | some e => exact ⟨fun _ => rfl, fun _ => (kept_finish call).mpr h⟩
  | none =>
    have hrow : funds (s.cell.writeBack call fun copy _ => call.saved copy).row =
        funds s.cell.row + call.gain - s.cell.lost funds call :=
      Cell.measure_writeBack (fun copy _ => funds_saved call copy) hc
    rw [kept_iff_explained] at h
    rw [kept_finish, kept_iff_explained, cell_report, explained_report, hrow, h]
    -- what the sums account for moves by the gain, the row by the gain less what is lost
    simp only [intact, decide_eq_true_eq]
    exact sub_eq_self

theorem Kept.write_iff (h : Kept row s) (fault : Option String) :
    Kept row (s.step cfg (.write fault)) ↔ intact s (.write fault) = true := by
  have haff : (s.toCounted.write addUserQuota fault).cell.row.affQuota = s.cell.row.affQuota :=
    row_write addUserQuota_affQuota
  rw [kept_iff_net] at h ⊢
  simp only [UserRun.step, net_write_iff addUserQuota_quota h.1, haff, h.2, and_true]
  cases fault <;> simp [intact]

/-- **One statement** keeps the law exactly when it is intact. -/
theorem Kept.step_iff (h : Kept row s) (a : UserAct) :
    Kept row (s.step cfg a) ↔ intact s a = true := by
  cases a with
  | read call fault => exact ⟨fun _ => rfl, fun _ => h.read fault call⟩
  | save call fault => exact h.save_iff call fault
  | increaseUserQuota quota db fault => exact ⟨fun _ => rfl, fun _ => h.increaseUserQuota quota db fault⟩
  | decreaseUserQuota quota db fault => exact ⟨fun _ => rfl, fun _ => h.decreaseUserQuota quota db fault⟩
  | collect => exact ⟨fun _ => rfl, fun _ => h.of_net net_collect rfl⟩
  | write fault => exact h.write_iff fault

end Steps

/-- **No lost update, exactly when every save is intact**: the law holds after each statement if and
only if each save finds the funds it has read and no batch of some amount fails. -/
theorem user_quota_kept_iff (cfg : QuotaConfig) (row : UserRow) (acts : List UserAct) :
    (∀ n, Kept row ((UserRun.start row).run cfg (acts.take n))) ↔
      Guarded (UserRun.step cfg) (fun s a => intact s a = true) (UserRun.start row) acts := by
  have hstart : Kept row (UserRun.start row) := by
    simp [Kept, UserRun.start, Counted.start, Cell.start, Batch.empty, Batch.waiting]
  exact (guarded_iff_prefixes (fun _ a h => h.step_iff a) acts hstart).symm

/-! ## Lost updates -/

/-- Amounts of at least 10, locks that work, no batching. -/
def plainConfig : QuotaConfig := ⟨10, toString, false, true⟩

/-- 100 of quota and an affiliate balance of 50. -/
def hundred : UserRow := ⟨100, 0, 50, 50⟩

def hundredRun (acts : List UserAct) : UserRun := (UserRun.start hundred).run plainConfig acts

/-- A request consumes 30 between the read and the save of a reward: the quota is 100 again. -/
theorem reward_undoes_consumption :
    let s := hundredRun [.read (.inviteUser 1 20) none, .decreaseUserQuota 30 false none, .save (.inviteUser 1 20) none]
    s.cell.row.quota = 100 ∧ s.decreased = 30 ∧ s.increased = 0 ∧ s.transferred = 0 ∧ ¬ Kept hundred s := by
  refine ⟨by decide +kernel, by decide +kernel, by decide +kernel, by decide +kernel, fun h => ?_⟩
  have := h.1
  revert this
  decide +kernel

end NewApi.Quota
