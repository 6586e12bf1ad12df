import NewApi.Lib.Cell
import NewApi.Lib.Run

/-!
# Redemption codes (`model/redemption.go`, `UpdateRedemption`)

`Redeem` credits a code in one transaction that locks its row. `UpdateRedemption` reads the row and
writes some of its columns later, status and redemption time among them.

* `Redemption`, `RedemptionEdit` — the row and an edit that does not ask for a status; `written` is
  its `UPDATE`.
* `RedeemRun`, `RedeemAct`, `RedeemRun.step` — a transaction, a read or a write at a time, in any
  order.
-/

namespace NewApi.Redemptions

/-! ## Rows and edits -/

def redemptionCodeStatusEnabled : Int := 1
def redemptionCodeStatusUsed : Int := 3

structure Redemption where
  key : String
  status : Int
  name : String
  quota : Int
  redeemedTime : Int
  usedUserId : Int
  expiredTime : Int
  deriving DecidableEq, Repr

/-- A call of `UpdateRedemption` without `status_only`; the number tells calls with equal arguments
apart. -/
structure RedemptionEdit where
  n : Nat
  name : String
  quota : Int
  expiredTime : Int
  deriving DecidableEq, Repr

def validateExpiredTime (now expired : Int) : Except String Unit :=
  if expired ≠ 0 ∧ expired < now then .error "redemption.expire_time_invalid" else .ok ()

/-- `Redemption.Update`: the selected columns, zero values too, from the copy as the handler has
changed it. -/
def RedemptionEdit.written (edit : RedemptionEdit) (copy row : Redemption) : Redemption :=
  { row with
    name := edit.name
    status := copy.status
    quota := edit.quota
    redeemedTime := copy.redeemedTime
    expiredTime := edit.expiredTime }

/-! ## Runs -/

/-- A credit: who, and how much. -/
structure Credit where
  userId : Int
  quota : Int
  deriving DecidableEq, Repr

structure RedeemRun where
  cell : Cell RedemptionEdit Redemption
  /-- The users' quotas. -/
  users : Int → Int
  credits : List Credit

/-- A used code has been credited before. -/
def RedeemRun.start (row : Redemption) (users : Int → Int) : RedeemRun where
  cell := Cell.start row
  users := users
  credits := if row.status = redemptionCodeStatusUsed then [⟨row.usedUserId, row.quota⟩] else []

inductive RedeemAct where
  /-- `fault` is an error of the update, the save or the commit; `checked` and `saved` are the two times that
  the transaction takes. -/
  | redeem (key : String) (userId checked saved : Int) (fault : Option String)
  | read (edit : RedemptionEdit) (now : Int) (fault : Option String)
  | write (edit : RedemptionEdit) (fault : Option String)
  deriving DecidableEq, Repr

namespace RedeemRun

def redeemBody (key : String) (userId checked saved : Int) (s : RedeemRun) :
    Except String (RedeemRun × Int) :=
  let redemption := s.cell.row
  if key ≠ redemption.key then .error "无效的兑换码"
  else if redemption.status ≠ redemptionCodeStatusEnabled then .error "该兑换码已被使用"
  else if redemption.expiredTime ≠ 0 ∧ redemption.expiredTime < checked then .error "该兑换码已过期"
  else
    .ok ({ s with
      cell := s.cell.modify fun row =>
        { row with redeemedTime := saved, status := redemptionCodeStatusUsed, usedUserId := userId }
      users := Function.update s.users userId (s.users userId + redemption.quota)
      credits := s.credits ++ [⟨userId, redemption.quota⟩] }, redemption.quota)

def redeem (s : RedeemRun) (key : String) (userId checked saved : Int) (fault : Option String) :
    RedeemRun × Except String Int :=
  if key = "" then (s, .error "未提供兑换码")
  else if userId = 0 then (s, .error "无效的 user id")
  else
    match transaction fault s (redeemBody key userId checked saved) with
    | (s, .error _) => (s, .error "redeem.failed")
    | (s, .ok quota) => (s, .ok quota)

def read (s : RedeemRun) (edit : RedemptionEdit) (now : Int) (fault : Option String) : RedeemRun :=
  match fault, validateExpiredTime now edit.expiredTime with
  | none, .ok () => { s with cell := s.cell.read edit }
  | _, _ => s

def write (s : RedeemRun) (edit : RedemptionEdit) : Option String → RedeemRun
  | none => { s with cell := s.cell.writeBack edit edit.written }
  | some _ => { s with cell := s.cell.forget edit }

def step (s : RedeemRun) : RedeemAct → RedeemRun
  | .redeem key userId checked saved fault => (s.redeem key userId checked saved fault).1
  | .read edit now fault => s.read edit now fault
  | .write edit fault => s.write edit fault

def run (s : RedeemRun) (acts : List RedeemAct) : RedeemRun := acts.foldl step s

/-- At most one credit, and a code that has been credited is used. -/
def Once (s : RedeemRun) : Prop :=
  s.credits.length ≤ 1 ∧ (s.credits ≠ [] → s.cell.row.status = redemptionCodeStatusUsed)

/-- An edit writes before the code is redeemed, or has read it as used. -/
def intact (s : RedeemRun) : RedeemAct → Bool
  | .write edit none =>
    match s.cell.copy edit with
    | none => true
    | some copy => s.credits.isEmpty || decide (copy.status = redemptionCodeStatusUsed)
  | _ => true

end RedeemRun

/-! ## Steps -/

namespace RedeemRun

variable {s : RedeemRun}

theorem redeem_cases (s : RedeemRun) (key : String) (userId checked saved : Int)
    (fault : Option String) :
    (s.redeem key userId checked saved fault).1 = s ∨
      s.cell.row.status = redemptionCodeStatusEnabled ∧
      (s.redeem key userId checked saved fault).1.cell.row.status = redemptionCodeStatusUsed ∧
      (s.redeem key userId checked saved fault).1.credits = s.credits ++ [⟨userId, s.cell.row.quota⟩] ∧
      (s.redeem key userId checked saved fault).1.users =
        Function.update s.users userId (s.users userId + s.cell.row.quota) := by
  unfold redeem
  split
  · exact .inl rfl
  split
  · exact .inl rfl
  split
  · rename_i s' e h
    exact .inl (transaction_error h)
  rename_i s' quota h
  obtain ⟨hbody, -⟩ := transaction_ok h
  simp only [redeemBody] at hbody
  split at hbody
  · cases hbody
  split at hbody
  · cases hbody
  rename_i henabled
  split at hbody
  · cases hbody
  cases hbody
  exact .inr ⟨not_not.mp henabled, rfl, rfl, rfl⟩

theorem Once.redeem (h : s.Once) (key : String) (userId checked saved : Int)
    (fault : Option String) : (s.redeem key userId checked saved fault).1.Once := by
  rcases redeem_cases s key userId checked saved fault with heq | ⟨henabled, hused, hcredits, -⟩
  · rw [heq]
    exact h
  · -- an enabled code has not been credited
    have hnone : s.credits = [] := by
      by_contra hne
      have := h.2 hne
      rw [henabled] at this
      cases this
    refine ⟨?_, fun _ => hused⟩
    rw [hcredits, hnone]
    exact le_rfl

theorem Once.read (h : s.Once) (edit : RedemptionEdit) (now : Int) (fault : Option String) :
    (s.read edit now fault).Once := by
  unfold RedeemRun.read
  split
  · exact h
  · exact h

theorem Once.write_iff (h : s.Once) (edit : RedemptionEdit) (fault : Option String) :
    (s.write edit fault).Once ↔ s.intact (.write edit fault) = true := by
  cases fault with
  | some e => exact ⟨fun _ => rfl, fun _ => h⟩
  | none =>
    rcases hc : s.cell.copy edit with _ | copy
    · simp [RedeemRun.write, Cell.writeBack, intact, hc, h]
    have hafter : (s.write edit none).Once ↔
        s.credits.length ≤ 1 ∧ (s.credits ≠ [] → copy.status = redemptionCodeStatusUsed) := by
      simp only [RedeemRun.write, Cell.writeBack, hc]
      exact Iff.rfl
    rw [hafter]
    simp only [h.1, true_and, intact, hc, Bool.or_eq_true, List.isEmpty_iff, decide_eq_true_eq]
    exact imp_iff_or_not.trans (by rw [not_not, or_comm])

/-- **One step** keeps a code credited at most once exactly when it is intact. -/
theorem Once.step_iff (h : s.Once) (a : RedeemAct) : (s.step a).Once ↔ s.intact a = true := by
  cases a with
  | redeem key userId checked saved fault => exact ⟨fun _ => rfl, fun _ => h.redeem key userId checked saved fault⟩
  | read edit now fault => exact ⟨fun _ => rfl, fun _ => h.read edit now fault⟩
  | write edit fault => exact h.write_iff edit fault

theorem once_start (row : Redemption) (users : Int → Int) : (start row users).Once := by
  unfold start Once
  split
  · rename_i hused
    exact ⟨le_rfl, fun _ => hused⟩
  · exact ⟨Nat.zero_le 1, fun hne => absurd rfl hne⟩

end RedeemRun

/-- **A code is credited once, exactly when every edit is intact**: the code has been credited at
most once and is used if it has, if and only if each edit writes before the redemption or has read
its result. -/
theorem redeemed_once_iff (row : Redemption) (users : Int → Int) (acts : List RedeemAct) :
    (∀ n, ((RedeemRun.start row users).run (acts.take n)).Once) ↔
      Guarded RedeemRun.step (fun s a => s.intact a = true) (RedeemRun.start row users) acts :=
  (guarded_iff_prefixes (fun _ a h => h.step_iff a) acts (RedeemRun.once_start row users)).symm

/-! ## A code redeemed twice -/

/-- An enabled code of 500 that does not expire. -/
def freshCode : Redemption := ⟨"k", 1, "gift", 500, 0, 0, 0⟩

/-- An edit of the name reads the code before user 1 redeems it and writes afterwards: user 2 is
credited as well. -/
theorem edit_revives_code : let rename : RedemptionEdit := ⟨1, "new name", 500, 0⟩
    let revived := (RedeemRun.start freshCode fun _ => 0).run
      [.read rename 10 none, .redeem "k" 1 11 11 none, .write rename none]
    let s := revived.run [.redeem "k" 2 12 12 none]
    revived.cell.row.status = redemptionCodeStatusEnabled ∧ s.users 1 = 500 ∧ s.users 2 = 500 ∧
      s.credits = [⟨1, 500⟩, ⟨2, 500⟩] := by
  decide +kernel

end NewApi.Redemptions
