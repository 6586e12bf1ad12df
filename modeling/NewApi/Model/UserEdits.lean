import NewApi.Model.QuotaWrites
import NewApi.Model.User

/-!
# Edits among quota writers

One user row, edited by any number of calls at once while its quota is charged and returned in
place.

* `EditRun`, `EditAct`, `EditRun.step` — one database statement at a time, in any order, with the
  sums of the quota calls and the standing that the administrators' calls have ordered.
-/

namespace NewApi.Users

open NewApi.Quota (Batch Counted)

/-! ## Runs -/

structure EditRun extends Counted EditCall User where
  /-- What the administrators' calls that have returned without error ask for. -/
  ordered : Standing

def EditRun.start (row : User) : EditRun := ⟨Counted.start row, row.standing⟩

inductive EditAct where
  | read (call : EditCall) (fault : Option String)
  /-- The `UPDATE` of a call, with the checks between read and write. -/
  | save (call : EditCall) (fault : Option String)
  | increaseUserQuota (quota : Int) (db : Bool) (fault : Option String)
  | decreaseUserQuota (quota : Int) (db : Bool) (fault : Option String)
  /-- The two halves of `batchUpdate`. -/
  | collect
  | write (fault : Option String)

/-- `UPDATE users SET quota = quota + ?`. -/
def addQuota (amount : Int) (user : User) : User := { user with quota := user.quota + amount }

def EditRun.read (cfg : EditConfig) (s : EditRun) (call : EditCall) (fault : Option String) :
    EditRun :=
  match call.permit cfg, fault with
  | .error _, _ => s
  | .ok (), none => { s with cell := s.cell.hold call (call.select s.cell.row) }
  | .ok (), some _ =>
    match call.unread with
    | some user => { s with cell := s.cell.hold call user }
    | none => s

def EditRun.save (cfg : EditConfig) (s : EditRun) (call : EditCall) (fault : Option String) :
    EditRun :=
  match s.cell.copy call with
  | none => s
  | some copy =>
    match call.prepare cfg copy, fault with
    | .error _, _ => { s with cell := s.cell.forget call }
    | .ok _, some _ => { s with cell := s.cell.forget call }
    | .ok st, none => { s with cell := (s.cell.modify st.apply).forget call, ordered := call.order s.ordered }

def EditRun.step (cfg : EditConfig) (s : EditRun) : EditAct → EditRun
  | .read call fault => s.read cfg call fault
  | .save call fault => s.save cfg call fault
  | .increaseUserQuota quota db fault =>
    { s with toCounted := (s.increase (!db && cfg.batchUpdateEnabled) addQuota quota fault).1 }
  | .decreaseUserQuota quota db fault =>
    { s with toCounted := (s.decrease (!db && cfg.batchUpdateEnabled) addQuota quota fault).1 }
  | .collect => { s with toCounted := s.collect }
  | .write fault => { s with toCounted := s.toCounted.write addQuota fault }

def EditRun.run (cfg : EditConfig) (s : EditRun) (acts : List EditAct) : EditRun :=
  acts.foldl (EditRun.step cfg) s

/-- The quota, with what still waits in the batch store, is explained by the quota calls, and the
standing is as the administrators left it. -/
def Kept (row : User) (s : EditRun) : Prop :=
  s.cell.row.quota + s.batch.waiting = row.quota + s.increased - s.decreased ∧ s.cell.row.standing = s.ordered

/-- A column of the copy that the write leaves out or finds as it was read. -/
def upToDate {α : Type} [DecidableEq α] (zero copy row : α) : Bool :=
  decide (copy = zero ∨ copy = row)

/-- What a call may write from its copy: nothing if it is refused; else quota, status, role and
group are up to date, apart from what it asks to change. -/
def EditCall.current (cfg : EditConfig) (call : EditCall) (copy row : User) : Bool :=
  match call.prepare cfg copy with
  | .error _ => true
  | .ok _ =>
    !call.copiesRow || (upToDate 0 copy.quota row.quota &&
        (call.newStatus.isSome || upToDate 0 copy.status row.status) &&
        (call.newRole.isSome || upToDate 0 copy.role row.role) &&
        upToDate "" copy.group row.group)

/-- The write of a call is current, and a batch of some amount is written without error. -/
def intact (cfg : EditConfig) (s : EditRun) : EditAct → Bool
  | .save call none =>
    match s.cell.copy call with
    | none => true
    | some copy => call.current cfg copy s.cell.row
  | .write (some _) => decide (s.batch.taken.getD 0 = 0)
  | _ => true

/-! ## Steps -/

section Steps

variable {cfg : EditConfig} {row : User} {s : EditRun}

theorem addQuota_quota (a : Int) (user : User) : (addQuota a user).quota = user.quota + a := rfl

theorem kept_iff_net :
    Kept row s ↔ s.net User.quota = row.quota ∧ s.cell.row.standing = s.ordered := by
  simp only [Kept, Counted.net]
  refine and_congr_left fun _ => ?_
  omega

theorem addQuota_standing (a : Int) (user : User) : (addQuota a user).standing = user.standing :=
  rfl

theorem current_iff {call : EditCall} {copy : User} {st : Statement}
    (hp : call.prepare cfg copy = .ok st) (now : User) :
    call.current cfg copy now = true ↔
      (st.apply now).quota = now.quota ∧ (st.apply now).standing = call.order now.standing := by
  unfold EditCall.current
  rw [hp]
  cases hcopies : call.copiesRow with
  | false => simp [prepare_sets hcopies hp now]
  | true =>
    rw [apply_prepare_iff hcopies hp]
    simp [upToDate, and_assoc]

section

variable (h : Kept row s)

include h

theorem Kept.of_net {c : Counted EditCall User} (hnet : c.net User.quota = s.net User.quota)
    (hstanding : c.cell.row.standing = s.cell.row.standing) :
    Kept row { s with toCounted := c } := by
  rw [kept_iff_net] at h ⊢
  exact ⟨hnet.trans h.1, hstanding.trans h.2⟩

theorem Kept.read (call : EditCall) (fault : Option String) : Kept row (s.read cfg call fault) := by
  unfold EditRun.read
  split
  · exact h
  · exact h
  split
  · exact h
  · exact h

theorem Kept.save_iff (call : EditCall) (fault : Option String) :
    Kept row (s.save cfg call fault) ↔ intact cfg s (.save call fault) = true := by
  have hforget : Kept row { s with cell := s.cell.forget call } := h
  rcases hc : s.cell.copy call with _ | copy
  · cases fault <;> simp [EditRun.save, intact, hc, h]
  rcases hp : call.prepare cfg copy with e | st
  · cases fault <;> simp [EditRun.save, intact, EditCall.current, hc, hp, hforget]
  cases fault with
  | some e => simp [EditRun.save, intact, hc, hp, hforget]
  | none =>
    have hsave : s.save cfg call none =
        { s with cell := (s.cell.modify st.apply).forget call, ordered := call.order s.ordered } := by
      simp only [EditRun.save, hc, hp]
    obtain ⟨hquota, hstanding⟩ := h
    simp only [hsave, intact, hc, current_iff hp, hstanding]
    -- the law before the write turns both columns of the new row into those of the old one
    refine and_congr ?_ Iff.rfl
    simp only [Cell.forget, Cell.modify]
    omega

theorem Kept.write_iff (fault : Option String) :
    Kept row (s.step cfg (.write fault)) ↔ intact cfg s (.write fault) = true := by
  have hstanding : (s.toCounted.write addQuota fault).cell.row.standing = s.cell.row.standing :=
    Counted.row_write addQuota_standing
  rw [kept_iff_net] at h ⊢
  simp only [EditRun.step, Counted.net_write_iff addQuota_quota h.1, hstanding, h.2, and_true]
  cases fault <;> simp [intact]

/-- **One statement** keeps the law exactly when it is intact. -/
theorem Kept.step_iff (a : EditAct) : Kept row (s.step cfg a) ↔ intact cfg s a = true := by
  cases a with
  | read call fault => exact ⟨fun _ => rfl, fun _ => h.read call fault⟩
  | save call fault => exact h.save_iff call fault
  | increaseUserQuota quota db fault =>
    exact ⟨fun _ => rfl, fun _ =>
      h.of_net (Counted.net_increase addQuota_quota quota) (Counted.row_increase addQuota_standing quota)⟩
  | decreaseUserQuota quota db fault =>
    exact ⟨fun _ => rfl, fun _ =>
      h.of_net (Counted.net_decrease addQuota_quota quota) (Counted.row_decrease addQuota_standing quota)⟩
  | collect => exact ⟨fun _ => rfl, fun _ => h.of_net Counted.net_collect rfl⟩
  | write fault => exact h.write_iff fault

end

end Steps

/-- **No edit undoes another's work, exactly when every write is current**: after each statement
quota and standing are what the calls made of them, if and only if each write finds what it copies
as it was read and no batch of some amount fails. -/
theorem account_kept_iff (cfg : EditConfig) (row : User) (acts : List EditAct) :
    (∀ n, Kept row ((EditRun.start row).run cfg (acts.take n))) ↔
      Guarded (EditRun.step cfg) (fun s a => intact cfg s a = true) (EditRun.start row) acts := by
  have hstart : Kept row (EditRun.start row) := by
    simp [Kept, EditRun.start, Counted.start, Cell.start, Batch.empty, Batch.waiting]
  exact (guarded_iff_prefixes (fun _ a h => h.step_iff a) acts hstart).symm

/-! ## Lost updates -/

/-- Settings that print as a fixed text, codes and passwords that are always right, no batching. -/
def plainConfig : EditConfig where
  unmarshalSetting := fun _ => .zero
  marshalSetting := fun setting => "\x7b\"language\":\"" ++ setting.language ++ "\"\x7d"
  parseRequestURI := fun _ => true
  verifyCodeWithKey := fun _ _ => true
  password2Hash := .ok
  validatePasswordAndHash := fun _ _ => true
  batchUpdateEnabled := false

def commonUser : User := ⟨"u", "hash", "u", 1, 1, "u@x", 100, "default", "", ""⟩

def commonRun (acts : List EditAct) : EditRun := (EditRun.start commonUser).run plainConfig acts

/-- A change of language brings back a charge of 30 and undoes a disable by an administrator; a
disable undoes a charge as well. -/
theorem edits_undo_charge_and_disable : let language : EditCall := .updateSelf 1 (.language (some "en"))
    let disable : EditCall := .manageUser 2 10 .disable
    (commonRun [.read language none, .decreaseUserQuota 30 false none, .save language none]).cell.row.quota = 100 ∧
    (commonRun [.read language none, .read disable none, .save disable none, .save language none]).cell.row.status
      = userStatusEnabled ∧
    (commonRun [.read disable none, .decreaseUserQuota 30 false none, .save disable none]).cell.row.quota = 100 ∧
    ∀ acts ∈ [[.read language none, .decreaseUserQuota 30 false none, .save language none],
      [.read language none, .read disable none, .save disable none, .save language none],
      [.read disable none, .decreaseUserQuota 30 false none, .save disable none]], ¬ Kept commonUser (commonRun acts) := by
  refine ⟨by decide +kernel, by decide +kernel, by decide +kernel, ?_⟩
  unfold Kept
  decide +kernel

end NewApi.Users
