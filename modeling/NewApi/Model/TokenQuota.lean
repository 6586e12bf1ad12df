import NewApi.Model.UserQuota

/-!
# Writers of a token's quota (`model/token.go`, `UpdateToken` in `controller/token.go`)

Requests add to the remaining quota in place, at once or through the batch store. An edit reads the
token and writes a list of columns back, and the remaining quota is one of them also when the edit
is about something else.

* `TokenRow`, `TokenForm` — the token, and what the owner sends besides the remaining quota, which
  is the one the owner was shown.
* `TokenRun`, `TokenAct`, `tokenStep` — one database statement at a time, in any order.
-/

namespace NewApi.Quota

/-! ## Tokens and edits -/

inductive TokenStatus where
  | enabled
  | disabled
  | expired
  | exhausted
  | other (code : Int)
  deriving DecidableEq, Repr

structure TokenRow where
  status : TokenStatus
  name : String
  accessedTime : Int
  /-- `-1` means never. -/
  expiredTime : Int
  remainQuota : Int
  unlimitedQuota : Bool
  modelLimitsEnabled : Bool
  modelLimits : String
  allowIps : Option String
  usedQuota : Int
  group : String
  crossGroupRetry : Bool
  deriving DecidableEq, Repr

/-- The body of an `UpdateToken` request without its remaining quota. -/
structure TokenForm where
  status : TokenStatus
  name : String
  expiredTime : Int
  unlimitedQuota : Bool
  modelLimitsEnabled : Bool
  modelLimits : String
  allowIps : Option String
  group : String
  crossGroupRetry : Bool
  deriving DecidableEq, Repr

/-- An edit that asks for no other quota; the number tells edits with equal arguments apart. -/
inductive TokenEdit where
  | disableModelLimits (n : Nat)
  | updateToken (n : Nat) (statusOnly : Bool) (form : TokenForm)
  deriving DecidableEq, Repr

/-- Who holds a copy of the token during an edit. -/
inductive TokenParty where
  | owner (e : TokenEdit)
  | server (e : TokenEdit)
  deriving DecidableEq, Repr

/-- The checks of `UpdateToken` before its read. -/
def checkTokenForm (cfg : QuotaConfig) (form : TokenForm) (remainQuota : Int) :
    Except String Unit :=
  if 50 < form.name.utf8ByteSize then .error "token.name_too_long"
  else if form.unlimitedQuota = false ∧ remainQuota < 0 then .error "token.quota_negative"
  else if form.unlimitedQuota = false ∧ Decimal.intPart (1000000000 * cfg.quotaPerUnit) < remainQuota then
    .error "token.quota_exceed_max"
  else .ok ()

/-- The checks after it. -/
def checkTokenEnable (form : TokenForm) (now : Int) (row : TokenRow) : Except String Unit :=
  if form.status = .enabled then
    if row.status = .expired ∧ row.expiredTime ≤ now ∧ row.expiredTime ≠ -1 then
      .error "token.expired_cannot_enable"
    else if row.status = .exhausted ∧ row.remainQuota ≤ 0 ∧ row.unlimitedQuota = false then
      .error "token.exhausted_cannot_enable"
    else .ok ()
  else .ok ()

/-- The token an edit is about to write, from the row it has read and the quota the owner was
shown. -/
def TokenEdit.cleanToken (shown : Int) (row : TokenRow) : TokenEdit → TokenRow
  | .disableModelLimits _ => { row with modelLimitsEnabled := false, modelLimits := "" }
  | .updateToken _ true form => { row with status := form.status }
  | .updateToken _ false form =>
    { row with
      name := form.name
      expiredTime := form.expiredTime
      remainQuota := shown
      unlimitedQuota := form.unlimitedQuota
      modelLimitsEnabled := form.modelLimitsEnabled
      modelLimits := form.modelLimits
      allowIps := form.allowIps
      group := form.group
      crossGroupRetry := form.crossGroupRetry }

/-- `Token.Update`: the selected columns of `token` over the stored row. -/
def tokenUpdate (token row : TokenRow) : TokenRow :=
  { row with
    name := token.name
    status := token.status
    expiredTime := token.expiredTime
    remainQuota := token.remainQuota
    unlimitedQuota := token.unlimitedQuota
    modelLimitsEnabled := token.modelLimitsEnabled
    modelLimits := token.modelLimits
    allowIps := token.allowIps
    group := token.group
    crossGroupRetry := token.crossGroupRetry }

/-- `increaseTokenQuota`; a decrease adds a negative amount. -/
def addTokenQuota (now amount : Int) (row : TokenRow) : TokenRow :=
  { row with remainQuota := row.remainQuota + amount, usedQuota := row.usedQuota - amount, accessedTime := now }

/-! ## Runs -/

abbrev TokenRun := Counted TokenParty TokenRow

inductive TokenAct where
  /-- The owner opens the form. -/
  | view (e : TokenEdit) (fault : Option String)
  /-- The read of an edit, with the checks on both sides of it. -/
  | load (e : TokenEdit) (now : Int) (fault : Option String)
  /-- `Token.Update`. -/
  | update (e : TokenEdit) (fault : Option String)
  | increaseTokenQuota (quota now : Int) (fault : Option String)
  | decreaseTokenQuota (quota now : Int) (fault : Option String)
  /-- The two halves of `batchUpdate`. -/
  | collect
  | write (now : Int) (fault : Option String)

def increaseTokenQuota (cfg : QuotaConfig) (s : TokenRun) (quota now : Int)
    (fault : Option String) : TokenRun × Except String Unit :=
  s.increase cfg.batchUpdateEnabled (addTokenQuota now) quota fault

def decreaseTokenQuota (cfg : QuotaConfig) (s : TokenRun) (quota now : Int)
    (fault : Option String) : TokenRun × Except String Unit :=
  s.decrease cfg.batchUpdateEnabled (addTokenQuota now) quota fault

/-- Everything an edit checks before and after its read. -/
def TokenEdit.check (cfg : QuotaConfig) (shown now : Int) (row : TokenRow) : TokenEdit →
      Except String Unit
  | .disableModelLimits _ => .ok ()
  | .updateToken _ _ form =>
    match checkTokenForm cfg form shown with
    | .error err => .error err
    | .ok () => checkTokenEnable form now row

/-- The owner has been shown the quota that an edit of the whole form sends back. -/
def TokenEdit.needsView : TokenEdit → Bool
  | .updateToken _ false _ => true
  | _ => false

def loadToken (cfg : QuotaConfig) (s : TokenRun) (e : TokenEdit) (now : Int)
    (fault : Option String) : TokenRun :=
  let view := s.cell.copy (.owner e)
  -- a body without the field binds to zero
  let shown := (view.map fun row => row.remainQuota).getD 0
  if e.needsView && view.isNone then s
  else
    match fault, e.check cfg shown now s.cell.row with
    | some _, _ => s
    | none, .error _ => s
    | none, .ok () => { s with cell := s.cell.hold (.server e) (e.cleanToken shown s.cell.row) }

def tokenStep (cfg : QuotaConfig) (s : TokenRun) : TokenAct → TokenRun
  | .view e fault =>
    match fault with
    | some _ => s
    | none => { s with cell := s.cell.read (.owner e) }
  | .load e now fault => loadToken cfg s e now fault
  | .update e fault =>
    match fault with
    | some _ => { s with cell := s.cell.forget (.server e) }
    | none => { s with cell := s.cell.writeBack (.server e) tokenUpdate }
  | .increaseTokenQuota quota now fault => (increaseTokenQuota cfg s quota now fault).1
  | .decreaseTokenQuota quota now fault => (decreaseTokenQuota cfg s quota now fault).1
  | .collect => s.collect
  | .write now fault => s.write (addTokenQuota now) fault

def tokenRun (cfg : QuotaConfig) (s : TokenRun) (acts : List TokenAct) : TokenRun :=
  acts.foldl (tokenStep cfg) s

/-- The remaining quota, with what still waits in the batch store, is explained by the requests. -/
def TokenKept (row : TokenRow) (s : TokenRun) : Prop :=
  s.cell.row.remainQuota + s.batch.waiting = row.remainQuota + s.increased - s.decreased

/-- An update finds the remaining quota that it is going to write, and a batch of some amount is
written without error. -/
def undisturbed (s : TokenRun) : TokenAct → Bool
  | .update e none => decide (s.cell.lost TokenRow.remainQuota (.server e) = 0)
  | .write _ (some _) => decide (s.batch.taken.getD 0 = 0)
  | _ => true

/-! ## Steps -/

section Steps

variable {cfg : QuotaConfig} {row : TokenRow} {s : TokenRun}

theorem addTokenQuota_remainQuota (now a : Int) (token : TokenRow) :
    (addTokenQuota now a token).remainQuota = token.remainQuota + a := rfl

theorem tokenKept_iff_net : TokenKept row s ↔ s.net TokenRow.remainQuota = row.remainQuota := by
  simp only [TokenKept, Counted.net]
  omega

variable (h : TokenKept row s)

include h

theorem TokenKept.load (e : TokenEdit) (now : Int) (fault : Option String) :
    TokenKept row (loadToken cfg s e now fault) := by
  unfold loadToken
  simp only
  split
  · exact h
  split
  · exact h
  · exact h
  · exact h

theorem TokenKept.update_iff (e : TokenEdit) (fault : Option String) :
    TokenKept row (tokenStep cfg s (.update e fault)) ↔ undisturbed s (.update e fault) = true := by
  cases fault with
  | some err => exact ⟨fun _ => rfl, fun _ => h⟩
  | none =>
    simp only [undisturbed, decide_eq_true_eq]
    cases hc : s.cell.copy (.server e) with
    | none =>
      have hsame : s.cell.writeBack (.server e) tokenUpdate = s.cell := by
        unfold Cell.writeBack
        rw [hc]
      have hzero : s.cell.lost TokenRow.remainQuota (.server e) = 0 := by
        unfold Cell.lost
        rw [hc]
      simp only [tokenStep, hsame, hzero, iff_true]
      exact h
    | some copy =>
      have hrow : (s.cell.writeBack (.server e) tokenUpdate).row.remainQuota =
          s.cell.row.remainQuota + 0 - s.cell.lost TokenRow.remainQuota (.server e) :=
        Cell.measure_writeBack (fun copy _ => (add_zero copy.remainQuota).symm) hc
      simp only [TokenKept, tokenStep] at h ⊢
      omega

theorem TokenKept.write_iff (now : Int) (fault : Option String) :
    TokenKept row (tokenStep cfg s (.write now fault)) ↔
      undisturbed s (.write now fault) = true := by
  rw [tokenKept_iff_net] at h ⊢
  simp only [tokenStep, Counted.net_write_iff (addTokenQuota_remainQuota now) h]
  cases fault <;> simp [undisturbed]

/-- **One statement** keeps the law exactly when it is undisturbed. -/
theorem TokenKept.step_iff (a : TokenAct) :
    TokenKept row (tokenStep cfg s a) ↔ undisturbed s a = true := by
  have of_net : ∀ {s' : TokenRun}, s'.net TokenRow.remainQuota = s.net TokenRow.remainQuota → TokenKept row s' :=
    fun hnet => tokenKept_iff_net.mpr (hnet.trans (tokenKept_iff_net.mp h))
  cases a with
  | view e fault => cases fault <;> exact ⟨fun _ => rfl, fun _ => h⟩
  | load e now fault => exact ⟨fun _ => rfl, fun _ => h.load e now fault⟩
  | update e fault => exact h.update_iff e fault
  | increaseTokenQuota quota now fault =>
    exact ⟨fun _ => rfl, fun _ => of_net (Counted.net_increase (addTokenQuota_remainQuota now) quota)⟩
  | decreaseTokenQuota quota now fault =>
    exact ⟨fun _ => rfl, fun _ => of_net (Counted.net_decrease (addTokenQuota_remainQuota now) quota)⟩
  | collect => exact ⟨fun _ => rfl, fun _ => of_net Counted.net_collect⟩
  | write now fault => exact h.write_iff now fault

end Steps

/-- **An edit undoes no consumption, exactly when it is undisturbed**: the law holds after each
statement if and only if each update finds the remaining quota it writes and no batch of some amount
fails. -/
theorem token_quota_kept_iff (cfg : QuotaConfig) (row : TokenRow) (acts : List TokenAct) :
    (∀ n, TokenKept row (tokenRun cfg (Counted.start row) (acts.take n))) ↔
      Guarded (tokenStep cfg) (fun s a => undisturbed s a = true) (Counted.start row) acts := by
  have hstart : TokenKept row (Counted.start row) := by
    simp [TokenKept, Counted.start, Cell.start, Batch.empty, Batch.waiting]
  exact (guarded_iff_prefixes (fun _ a h => h.step_iff a) acts hstart).symm

/-! ## Consumption undone -/

/-- An enabled token with 100 left. -/
def smallToken : TokenRow where
  status := .enabled
  name := "key"
  accessedTime := 0
  expiredTime := -1
  remainQuota := 100
  unlimitedQuota := false
  modelLimitsEnabled := true
  modelLimits := "m"
  allowIps := none
  usedQuota := 0
  group := "default"
  crossGroupRetry := false

/-- The owner renames the token and leaves the rest as it is. -/
def renameEdit : TokenEdit :=
  .updateToken 1 false ⟨.enabled, "renamed", -1, false, true, "m", none, "default", false⟩

def smallTokenRun (acts : List TokenAct) : TokenRun :=
  tokenRun plainConfig (Counted.start smallToken) acts

/-- A request consumes 30 while the form is open, or between the read and the update of an edit: the
token has 100 left again. -/
theorem edit_undoes_consumption :
    let renamed := smallTokenRun [.view renameEdit none, .decreaseTokenQuota 30 5 none, .load renameEdit 6 none,
      .update renameEdit none]
    let unlimited := smallTokenRun [.load (.disableModelLimits 1) 6 none, .decreaseTokenQuota 30 7 none,
      .update (.disableModelLimits 1) none]
    (renamed.cell.row.remainQuota = 100 ∧ renamed.decreased = 30 ∧ ¬ TokenKept smallToken renamed) ∧
    (unlimited.cell.row.remainQuota = 100 ∧ unlimited.decreased = 30 ∧ ¬ TokenKept smallToken unlimited) := by
  refine ⟨⟨by decide +kernel, by decide +kernel, fun h => ?_⟩,
    ⟨by decide +kernel, by decide +kernel, fun h => ?_⟩⟩
  all_goals
    unfold TokenKept at h
    revert h
    decide +kernel

end NewApi.Quota
