import NewApi.Lib.Run

/-!
# Edits of a user row (`controller/user.go`, `model/user.go`)

`UpdateSelf`, `UpdateUserSetting` and `EmailBind` are the user's own edits, `ManageUser` and
`UpdateUser` the administrator's. All of them read the row, work on the copy and end in one
`UPDATE`.

* `User`, `UserSetting` — the columns that the handlers read or write.
* `Statement` — the two forms of that `UPDATE`: the non-zero fields of a struct (`User.Update`), or
  a map (`User.Edit`).
-/

namespace NewApi.Users

/-! ## Rows -/

def roleCommonUser : Int := 1
def roleAdminUser : Int := 10
def roleRootUser : Int := 100

def userStatusEnabled : Int := 1
def userStatusDisabled : Int := 2

structure User where
  username : String
  password : String
  displayName : String
  role : Int
  status : Int
  email : String
  quota : Int
  group : String
  setting : String
  remark : String
  deriving DecidableEq, Repr

/-- The struct literal with nothing but the id. -/
def User.blank : User := ⟨"", "", "", 0, 0, "", 0, "", "", ""⟩

/-- What only administrators may change. -/
structure Standing where
  status : Int
  role : Int
  group : String
  deriving DecidableEq, Repr

def User.standing (user : User) : Standing := ⟨user.status, user.role, user.group⟩

structure UserSetting where
  notifyType : String
  quotaWarningThreshold : ℚ
  webhookUrl : String
  webhookSecret : String
  notificationEmail : String
  barkUrl : String
  gotifyUrl : String
  gotifyToken : String
  gotifyPriority : Int
  upstreamModelUpdateNotifyEnabled : Bool
  acceptUnsetRatioModel : Bool
  recordIpLog : Bool
  sidebarModules : String
  billingPreference : String
  language : String
  deriving DecidableEq

def UserSetting.zero : UserSetting := ⟨"", 0, "", "", "", "", "", "", 0, false, false, false, "", "", ""⟩

/-- The libraries that the handlers call, and the batch switch. -/
structure EditConfig where
  /-- `json.Unmarshal` into an empty setting, whose error is only logged, and `json.Marshal`. -/
  unmarshalSetting : String → UserSetting
  marshalSetting : UserSetting → String
  parseRequestURI : String → Bool
  verifyCodeWithKey : (email code : String) → Bool
  password2Hash : String → Except String String
  validatePasswordAndHash : (password hash : String) → Bool
  batchUpdateEnabled : Bool

def User.getSetting (cfg : EditConfig) (user : User) : UserSetting :=
  if user.setting ≠ "" then cfg.unmarshalSetting user.setting else .zero

def User.setSetting (cfg : EditConfig) (user : User) (setting : UserSetting) : User :=
  { user with setting := cfg.marshalSetting setting }

/-! ## Statements -/

section Overlay

variable {α : Type} [DecidableEq α]

/-- A column of `Updates` with a struct: the field, unless it has its zero value. -/
def overlay (zero new old : α) : α := if new = zero then old else new

theorem overlay_eq_old {zero new old : α} :
    overlay zero new old = old ↔ new = zero ∨ new = old := by
  unfold overlay
  split <;> simp [*]

/-- A column for which a value other than zero may be asked: what is asked is written, and otherwise
the column stays only if the field is zero or up to date. -/
theorem overlay_getD {zero new old : α} {asked : Option α} (hzero : asked ≠ some zero) :
    overlay zero (asked.getD new) old = asked.getD old ↔ asked.isSome = true ∨ new = zero ∨
      new = old := by
  cases asked with
  | none => simpa using overlay_eq_old
  | some value =>
    have hne : value ≠ zero := fun h => hzero (congrArg some h)
    simp [overlay, hne]

end Overlay

inductive Statement where
  /-- `DB.Model(user).Updates(newUser)` of `User.Update`. -/
  | updates (newUser : User)
  /-- `DB.Model(user).Updates(updates)` of `User.Edit`. -/
  | edit (username displayName group remark : String) (password : Option String)
  deriving DecidableEq

def Statement.apply : Statement → User → User
  | .updates new, row =>
    { username := overlay "" new.username row.username
      password := overlay "" new.password row.password
      displayName := overlay "" new.displayName row.displayName
      role := overlay 0 new.role row.role
      status := overlay 0 new.status row.status
      email := overlay "" new.email row.email
      quota := overlay 0 new.quota row.quota
      group := overlay "" new.group row.group
      setting := overlay "" new.setting row.setting
      remark := overlay "" new.remark row.remark }
  | .edit username displayName group remark password, row =>
    { row with
      username := username
      displayName := displayName
      group := group
      remark := remark
      password := password.getD row.password }

/-- The hashing at the head of `User.Update`. -/
def User.update (cfg : EditConfig) (user : User) (updatePassword : Bool) :
    Except String Statement :=
  if updatePassword then
    match cfg.password2Hash user.password with
    | .error e => .error e
    | .ok hash => .ok (.updates { user with password := hash })
  else .ok (.updates user)

/-! ## Requests -/

/-- The fields of a user in the body of a request. -/
structure UserRequest where
  username : String
  password : String
  originalPassword : String
  displayName : String
  email : String
  remark : String
  role : Int
  group : String
  deriving DecidableEq, Repr

/-- An empty password is replaced, to pass the validator, and put back after it. -/
def standInPassword : String := "$I_LOVE_U"

/-- The `validate` tags of `User`. -/
def UserRequest.validates (user : UserRequest) : Bool :=
  let password := if user.password = "" then standInPassword else user.password
  decide (user.username.length ≤ 20) && decide (8 ≤ password.length) && decide (password.length ≤ 20) &&
    decide (user.displayName.length ≤ 20) && decide (user.email.length ≤ 50) && decide (user.remark.length ≤ 255)

def UserRequest.newPassword (user : UserRequest) : String :=
  if user.password = standInPassword then "" else user.password

structure UpdateUserSettingRequest where
  quotaWarningType : String
  quotaWarningThreshold : ℚ
  webhookUrl : String
  webhookSecret : String
  notificationEmail : String
  barkUrl : String
  gotifyUrl : String
  gotifyToken : String
  gotifyPriority : Int
  upstreamModelUpdateNotifyEnabled : Option Bool
  acceptUnsetModelRatioModel : Bool
  recordIpLog : Bool
  deriving DecidableEq

def hasHttpScheme (url : String) : Bool :=
  "https://".toList.isPrefixOf url.toList || "http://".toList.isPrefixOf url.toList

/-- The checks of `UpdateUserSetting`, in their order. -/
def UpdateUserSettingRequest.check (cfg : EditConfig) (req : UpdateUserSettingRequest) :
    Except String Unit := do
  if req.quotaWarningType ≠ "email" ∧ req.quotaWarningType ≠ "webhook" ∧ req.quotaWarningType ≠ "bark" ∧
      req.quotaWarningType ≠ "gotify" then
    throw "setting.invalid_type"
  if req.quotaWarningThreshold ≤ 0 then
    throw "quota.threshold_gt_zero"
  if req.quotaWarningType = "webhook" then
    if req.webhookUrl = "" then
      throw "setting.webhook_empty"
    if !cfg.parseRequestURI req.webhookUrl then
      throw "setting.webhook_invalid"
  if req.quotaWarningType = "email" ∧ req.notificationEmail ≠ "" then
    if '@' ∉ req.notificationEmail.toList then
      throw "setting.email_invalid"
  if req.quotaWarningType = "bark" then
    if req.barkUrl = "" then
      throw "setting.bark_url_empty"
    if !cfg.parseRequestURI req.barkUrl then
      throw "setting.bark_url_invalid"
    if !hasHttpScheme req.barkUrl then
      throw "setting.url_must_http"
  if req.quotaWarningType = "gotify" then
    if req.gotifyUrl = "" then
      throw "setting.gotify_url_empty"
    if req.gotifyToken = "" then
      throw "setting.gotify_token_empty"
    if !cfg.parseRequestURI req.gotifyUrl then
      throw "setting.gotify_url_invalid"
    if !hasHttpScheme req.gotifyUrl then
      throw "setting.url_must_http"

/-- The settings that `UpdateUserSetting` builds; what the request does not name is dropped, except
the administrators' notification switch. -/
def UpdateUserSettingRequest.settings (cfg : EditConfig) (req : UpdateUserSettingRequest)
    (user : User) : UserSetting :=
  let ofType (type : String) (value : String) : String := if req.quotaWarningType = type then value else ""
  { UserSetting.zero with
    notifyType := req.quotaWarningType
    quotaWarningThreshold := req.quotaWarningThreshold
    upstreamModelUpdateNotifyEnabled :=
      match req.upstreamModelUpdateNotifyEnabled with
      | some enabled =>
        if user.role ≥ roleAdminUser then enabled else (user.getSetting cfg).upstreamModelUpdateNotifyEnabled
      | none => (user.getSetting cfg).upstreamModelUpdateNotifyEnabled
    acceptUnsetRatioModel := req.acceptUnsetModelRatioModel
    recordIpLog := req.recordIpLog
    webhookUrl := ofType "webhook" req.webhookUrl
    webhookSecret := ofType "webhook" req.webhookSecret
    notificationEmail := ofType "email" req.notificationEmail
    barkUrl := ofType "bark" req.barkUrl
    gotifyUrl := ofType "gotify" req.gotifyUrl
    gotifyToken := ofType "gotify" req.gotifyToken
    gotifyPriority :=
      if req.quotaWarningType = "gotify" then
        if req.gotifyPriority < 0 ∨ req.gotifyPriority > 10 then 5 else req.gotifyPriority
      else 0 }

/-- The three kinds of request that `UpdateSelf` tells apart by their keys; `none` is a value that
is not a string. -/
inductive SelfEdit where
  | sidebarModules (value : Option String)
  | language (value : Option String)
  | profile (user : UserRequest)
  deriving DecidableEq

/-- The actions of `ManageUser` that end in `User.Update`; `other` is any text that `ManageUser`
does not know. -/
inductive ManageAction where
  | disable
  | enable
  | promote
  | demote
  | other
  deriving DecidableEq, Repr

/-! ## Calls -/

/-- A call of a handler; the number tells calls with equal arguments apart. -/
inductive EditCall where
  | updateSelf (n : Nat) (edit : SelfEdit)
  | updateUserSetting (n : Nat) (req : UpdateUserSettingRequest)
  | emailBind (n : Nat) (email code : String)
  | manageUser (n : Nat) (myRole : Int) (action : ManageAction)
  | updateUser (n : Nat) (myRole : Int) (updatedUser : UserRequest)
  deriving DecidableEq

def canManageTargetRole (myRole targetRole : Int) : Bool :=
  decide (myRole = roleRootUser ∨ myRole > targetRole)

/-- The checks before the read. -/
def EditCall.permit (cfg : EditConfig) : EditCall → Except String Unit
  | .updateSelf _ (.profile user) => if user.validates then .ok () else .error "common.invalid_input"
  | .updateSelf _ _ => .ok ()
  | .updateUserSetting _ req => req.check cfg
  | .emailBind _ email code =>
    if cfg.verifyCodeWithKey email code then .ok () else .error "user.verification_code_error"
  | .manageUser _ _ _ => .ok ()
  | .updateUser _ _ user => if user.validates then .ok () else .error "user.input_invalid"

/-- The columns that the read selects: `GetUserById(id, false)` leaves the password out. -/
def EditCall.select : EditCall → User → User
  | .updateSelf _ (.sidebarModules _), row => { row with password := "" }
  | .updateSelf _ (.language _), row => { row with password := "" }
  | .updateUser _ _ _, row => { row with password := "" }
  | _, row => row

/-- What a call goes on with when its read fails: `FillUserById` and `ManageUser` ignore the
error. -/
def EditCall.unread : EditCall → Option User
  | .emailBind _ _ _ => some .blank
  | .manageUser _ _ _ => some .blank
  | _ => none

def checkUpdatePassword (cfg : EditConfig) (originalPassword newPassword : String)
    (currentUser : User) : Except String Bool :=
  if !cfg.validatePasswordAndHash originalPassword currentUser.password ∧ currentUser.password ≠ "" then
    .error "原密码错误"
  else .ok (decide (newPassword ≠ ""))

/-- The `switch` of `ManageUser`. -/
def ManageAction.perform (myRole : Int) (user : User) : ManageAction → Except String User
  | .disable =>
    if user.role = roleRootUser then .error "user.cannot_disable_root_user"
    else .ok { user with status := userStatusDisabled }
  | .enable => .ok { user with status := userStatusEnabled }
  | .promote =>
    if myRole ≠ roleRootUser then .error "user.admin_cannot_promote"
    else if user.role ≥ roleAdminUser then .error "user.already_admin"
    else .ok { user with role := roleAdminUser }
  | .demote =>
    if user.role = roleRootUser then .error "user.cannot_demote_root_user"
    else if user.role = roleCommonUser then .error "user.already_common"
    else .ok { user with role := roleCommonUser }
  | .other => .ok user

/-- From the row that was read to the statement. -/
def EditCall.prepare (cfg : EditConfig) : EditCall → User → Except String Statement
  | .updateSelf _ (.sidebarModules value), user =>
    let setting := user.getSetting cfg
    (user.setSetting cfg { setting with sidebarModules := value.getD setting.sidebarModules }).update cfg false
  | .updateSelf _ (.language value), user =>
    let setting := user.getSetting cfg
    (user.setSetting cfg { setting with language := value.getD setting.language }).update cfg false
  | .updateSelf _ (.profile req), user => do
    let updatePassword ← checkUpdatePassword cfg req.originalPassword req.newPassword user
    let cleanUser := { User.blank with
      username := req.username, password := req.newPassword, displayName := req.displayName }
    cleanUser.update cfg updatePassword
  | .updateUserSetting _ req, user => (user.setSetting cfg (req.settings cfg user)).update cfg false
  | .emailBind _ email _, user => { user with email := email }.update cfg false
  | .manageUser _ myRole action, user =>
    if !canManageTargetRole myRole user.role then .error "user.no_permission_higher_level"
    else do
      let user ← action.perform myRole user
      user.update cfg false
  | .updateUser _ myRole req, originUser =>
    if !canManageTargetRole myRole originUser.role then .error "user.no_permission_higher_level"
    else if !canManageTargetRole myRole req.role then .error "user.cannot_create_higher_level"
    else if req.newPassword ≠ "" then do
      let hash ← cfg.password2Hash req.newPassword
      return .edit req.username req.displayName req.group req.remark (some hash)
    else .ok (.edit req.username req.displayName req.group req.remark none)

/-! ## What a call changes -/

/-- The status, role and group that a call asks for. -/
def EditCall.newStatus : EditCall → Option Int
  | .manageUser _ _ .disable => some userStatusDisabled
  | .manageUser _ _ .enable => some userStatusEnabled
  | _ => none

def EditCall.newRole : EditCall → Option Int
  | .manageUser _ _ .promote => some roleAdminUser
  | .manageUser _ _ .demote => some roleCommonUser
  | _ => none

def EditCall.newGroup : EditCall → Option String
  | .updateUser _ _ req => some req.group
  | _ => none

def EditCall.order (call : EditCall) (s : Standing) : Standing :=
  ⟨call.newStatus.getD s.status, call.newRole.getD s.role, call.newGroup.getD s.group⟩

/-- The calls whose struct is the row as it was read. -/
def EditCall.copiesRow : EditCall → Bool
  | .updateSelf _ (.profile _) => false
  | .updateUser _ _ _ => false
  | _ => true

section Prepare

variable {cfg : EditConfig} {call : EditCall} {copy : User} {st : Statement}

theorem newStatus_ne_zero : call.newStatus ≠ some 0 := by
  unfold EditCall.newStatus
  split <;> simp [userStatusDisabled, userStatusEnabled]

theorem newRole_ne_zero : call.newRole ≠ some 0 := by
  unfold EditCall.newRole
  split <;> simp [roleAdminUser, roleCommonUser]

theorem newGroup_of_copiesRow (h : call.copiesRow = true) : call.newGroup = none := by
  cases call with
  | updateUser n myRole req => cases h
  | _ => rfl

theorem update_eq_ok {user : User} {updatePassword : Bool}
    (h : user.update cfg updatePassword = .ok st) :
    ∃ password, st = .updates { user with password := password } := by
  unfold User.update at h
  split at h
  · split at h
    · cases h
    · cases h
      exact ⟨_, rfl⟩
  · cases h
    exact ⟨user.password, rfl⟩

theorem perform_standing {n : Nat} {myRole : Int} {action : ManageAction} {user : User}
    (h : action.perform myRole copy = .ok user) :
    user.quota = copy.quota ∧
      user.standing = (EditCall.manageUser n myRole action).order copy.standing := by
  cases action with
  | disable =>
    simp only [ManageAction.perform] at h
    split at h
    · cases h
    · cases h
      exact ⟨rfl, rfl⟩
  | enable | other =>
    cases h
    exact ⟨rfl, rfl⟩
  | promote | demote =>
    simp only [ManageAction.perform] at h
    split at h
    · cases h
    split at h
    · cases h
    · cases h
      exact ⟨rfl, rfl⟩

/-- A call on the whole row writes a struct with the quota of the copy, and with its standing but
for what the call asks for. -/
theorem prepare_copies (hcopies : call.copiesRow = true) (h : call.prepare cfg copy = .ok st) :
    ∃ new, st = .updates new ∧ new.quota = copy.quota ∧
      new.standing = call.order copy.standing := by
  cases call with
  | updateSelf n edit =>
    cases edit with
    | sidebarModules value | language value =>
      obtain ⟨password, rfl⟩ := update_eq_ok h
      exact ⟨_, rfl, rfl, rfl⟩
    | profile user => cases hcopies
  | updateUserSetting n req | emailBind n email code =>
    obtain ⟨password, rfl⟩ := update_eq_ok h
    exact ⟨_, rfl, rfl, rfl⟩
  | manageUser n myRole action =>
    simp only [EditCall.prepare] at h
    split at h
    · cases h
    obtain ⟨user, hp, h⟩ := bind_eq_ok h
    obtain ⟨password, rfl⟩ := update_eq_ok h
    obtain ⟨hquota, hstanding⟩ := perform_standing (n := n) hp
    exact ⟨_, rfl, hquota, hstanding⟩
  | updateUser n myRole req => cases hcopies

/-- A call that writes only what its request holds changes nothing of quota and standing but what it
asks for. -/
theorem prepare_sets (hcopies : call.copiesRow = false) (h : call.prepare cfg copy = .ok st)
    (row : User) :
    (st.apply row).quota = row.quota ∧ (st.apply row).standing = call.order row.standing := by
  cases call with
  | updateSelf n edit =>
    cases edit with
    | sidebarModules value | language value => cases hcopies
    | profile req =>
      obtain ⟨updatePassword, -, h⟩ := bind_eq_ok h
      obtain ⟨password, rfl⟩ := update_eq_ok h
      exact ⟨rfl, rfl⟩
  | updateUserSetting n req | emailBind n email code | manageUser n myRole action => cases hcopies
  | updateUser n myRole req =>
    simp only [EditCall.prepare] at h
    split at h
    · cases h
    split at h
    · cases h
    split at h
    · obtain ⟨hash, -, h⟩ := bind_eq_ok h
      cases h
      exact ⟨rfl, rfl⟩
    · cases h
      exact ⟨rfl, rfl⟩

/-- The row after a call on the whole row has the quota and standing it should have exactly if each
column the call does not ask to change is zero in the copy or up to date. -/
theorem apply_prepare_iff (hcopies : call.copiesRow = true) (h : call.prepare cfg copy = .ok st)
    (row : User) :
    ((st.apply row).quota = row.quota ∧ (st.apply row).standing = call.order row.standing) ↔
      (copy.quota = 0 ∨ copy.quota = row.quota) ∧
      (call.newStatus.isSome = true ∨ copy.status = 0 ∨ copy.status = row.status) ∧
      (call.newRole.isSome = true ∨ copy.role = 0 ∨ copy.role = row.role) ∧
      (copy.group = "" ∨ copy.group = row.group) := by
  obtain ⟨new, rfl, hquota, hstanding⟩ := prepare_copies hcopies h
  have hgroup := newGroup_of_copiesRow hcopies
  simp only [User.standing, EditCall.order, Standing.mk.injEq, hgroup,
    Option.getD_none] at hstanding
  obtain ⟨hstatus, hrole, hgroup'⟩ := hstanding
  simp [Statement.apply, User.standing, EditCall.order, hgroup, hquota, hstatus, hrole, hgroup',
    overlay_eq_old, overlay_getD newStatus_ne_zero, overlay_getD newRole_ne_zero]

end Prepare

end NewApi.Users
