import NewApi.Model.User

/-!
# The cached user and a disable (`model/user_cache.go`, `ManageUser`)

`GetUserCache` looks into Redis, reads the row on a miss, returns, and fills the cache later from
another goroutine. A disable writes the row, rewrites the cached entry and then deletes it.

* `UserBase` — the cached columns.
* `CacheRun`, `CacheAct`, `CacheRun.step` — one database statement or Redis command at a time; any
  of them may fail, and the entry may expire.
-/

namespace NewApi.Users

/-! ## Calls -/

structure UserBase where
  group : String
  email : String
  quota : Int
  status : Int
  username : String
  setting : String
  deriving DecidableEq, Repr

def User.toBaseUser (user : User) : UserBase :=
  ⟨user.group, user.email, user.quota, user.status, user.username, user.setting⟩

/-- A call of `GetUserCache`; `late` says that it has started after the disable had returned. -/
inductive Reader where
  | idle
  | missed (late : Bool)
  /-- It has returned; the goroutine that fills the cache has not run yet. -/
  | filling (user : User)
  | finished
  deriving DecidableEq

/-- The disable, by the statement it has done last. -/
inductive Disable where
  | idle
  | prepared (st : Statement)
  /-- `User.Update` has reloaded the row into `user`. -/
  | reloaded (st : Statement) (user : User)
  | written (user : User)
  | cached
  | invalidated
  | returned
  /-- It has returned with an error before the row was written. -/
  | refused
  deriving DecidableEq

def Disable.wroteRow : Disable → Bool
  | .written _ | .cached | .invalidated | .returned => true
  | _ => false

/-- No command on the cached user is to come. -/
def Disable.leftCache : Disable → Bool
  | .invalidated | .returned => true
  | _ => false

structure CacheRun where
  row : User
  cache : Option UserBase
  reader : Nat → Reader
  disable : Disable
  /-- What the calls that started after the disable have returned. -/
  served : List UserBase

def CacheRun.start (row : User) (cache : Option UserBase) : CacheRun :=
  ⟨row, cache, fun _ => .idle, .idle, []⟩

inductive CacheAct where
  /-- `GetUserCache`: the lookup, the database read and the fill. -/
  | lookup (p : Nat) (fault : Bool)
  | select (p : Nat) (fault : Bool)
  | fill (p : Nat) (fault : Bool)
  | expire
  /-- The disable: its read with the checks, the two statements of `User.Update` and its command, the
  invalidation, and the rest with the response. -/
  | readUser (fault : Bool)
  | reload (fault : Bool)
  | update (fault : Bool)
  | updateUserCache (fault : Bool)
  | invalidateUserCache (fault : Bool)
  | respond
  deriving DecidableEq

namespace CacheRun

/-- A call returns `user`. -/
def serve (s : CacheRun) (late : Bool) (user : UserBase) : CacheRun :=
  if late then { s with served := s.served ++ [user] } else s

def setReader (s : CacheRun) (p : Nat) (r : Reader) : CacheRun :=
  { s with reader := Function.update s.reader p r }

def lookup (s : CacheRun) (p : Nat) (fault : Bool) : CacheRun :=
  match s.reader p with
  | .idle =>
    let late := decide (s.disable = .returned)
    match fault, s.cache with
    | false, some user => (s.serve late user).setReader p .finished
    | _, _ => s.setReader p (.missed late)
  | _ => s

def select (s : CacheRun) (p : Nat) (fault : Bool) : CacheRun :=
  match s.reader p with
  | .missed late =>
    if fault then s.setReader p .finished
    else (s.serve late s.row.toBaseUser).setReader p (.filling { s.row with password := "" })
  | _ => s

def fill (s : CacheRun) (p : Nat) (fault : Bool) : CacheRun :=
  match s.reader p with
  | .filling user =>
    (if fault then s else { s with cache := some user.toBaseUser }).setReader p .finished
  | _ => s

/-- The disable by an administrator with role `myRole`. -/
def readUser (cfg : EditConfig) (myRole : Int) (s : CacheRun) (fault : Bool) : CacheRun :=
  match s.disable with
  | .idle =>
    match (EditCall.manageUser 0 myRole .disable).prepare cfg (if fault then .blank else s.row) with
    | .error _ => { s with disable := .refused }
    | .ok st => { s with disable := .prepared st }
  | _ => s

/-- The error of the reload is ignored, and `user` stays as it is. -/
def reload (s : CacheRun) (fault : Bool) : CacheRun :=
  match s.disable with
  | .prepared st => { s with disable := .reloaded st (if fault then st.apply .blank else s.row) }
  | _ => s

def update (s : CacheRun) (fault : Bool) : CacheRun :=
  match s.disable with
  | .reloaded st user =>
    if fault then { s with disable := .refused }
    else { s with row := st.apply s.row, disable := .written (st.apply user) }
  | _ => s

/-- An error here ends the call, with the row written. -/
def updateUserCache (s : CacheRun) (fault : Bool) : CacheRun :=
  match s.disable with
  | .written user =>
    if fault then { s with disable := .returned }
    else { s with cache := some user.toBaseUser, disable := .cached }
  | _ => s

/-- An error here is only logged. -/
def invalidateUserCache (s : CacheRun) (fault : Bool) : CacheRun :=
  match s.disable with
  | .cached => { s with cache := if fault then s.cache else none, disable := .invalidated }
  | _ => s

def respond (s : CacheRun) : CacheRun :=
  match s.disable with
  | .invalidated => { s with disable := .returned }
  | _ => s

def step (cfg : EditConfig) (myRole : Int) (s : CacheRun) : CacheAct → CacheRun
  | .lookup p fault => s.lookup p fault
  | .select p fault => s.select p fault
  | .fill p fault => s.fill p fault
  | .expire => { s with cache := none }
  | .readUser fault => s.readUser cfg myRole fault
  | .reload fault => s.reload fault
  | .update fault => s.update fault
  | .updateUserCache fault => s.updateUserCache fault
  | .invalidateUserCache fault => s.invalidateUserCache fault
  | .respond => s.respond

def run (cfg : EditConfig) (myRole : Int) (s : CacheRun) (acts : List CacheAct) : CacheRun :=
  acts.foldl (step cfg myRole) s

/-- A lookup would find an enabled user. -/
def cachedEnabled (s : CacheRun) : Bool :=
  match s.cache with
  | some user => decide (user.status = userStatusEnabled)
  | none => false

/-- A fill with an enabled copy comes before the invalidation, and where the disable fails to
rewrite or to delete the entry, the entry is not an enabled one. -/
def fresh (s : CacheRun) : CacheAct → Bool
  | .fill p false =>
    match s.reader p with
    | .filling user => decide (user.status ≠ userStatusEnabled) || !s.disable.leftCache
    | _ => true
  | .updateUserCache true =>
    match s.disable with
    | .written _ => !s.cachedEnabled
    | _ => true
  | .invalidateUserCache true =>
    match s.disable with
    | .cached => !s.cachedEnabled
    | _ => true
  | _ => true

end CacheRun

/-! ## The invariant -/

/-- The statement of a disable, whatever its copy was. -/
def Statement.disables : Statement → Prop
  | .updates new => new.status = userStatusDisabled
  | .edit _ _ _ _ _ => False

theorem Statement.disables.status_apply {st : Statement} (h : st.disables) (row : User) :
    (st.apply row).status = userStatusDisabled := by
  cases st with
  | updates new =>
    have hne : new.status ≠ 0 := by
      rw [h]
      decide
    simp only [Statement.apply, overlay, if_neg hne]
    exact h
  | edit => cases h

theorem prepare_disables {cfg : EditConfig} {n : Nat} {myRole : Int} {copy : User} {st : Statement}
    (h : (EditCall.manageUser n myRole .disable).prepare cfg copy = .ok st) : st.disables := by
  obtain ⟨new, rfl, -, hstanding⟩ := prepare_copies rfl h
  exact congrArg Standing.status hstanding

/-- The statement that the disable still has to do. -/
def Disable.statement? : Disable → Option Statement
  | .prepared st => some st
  | .reloaded st _ => some st
  | _ => none

theorem noStatement {d : Disable} (h : d.statement? = none) :
    ∀ st, d.statement? = some st → st.disables := by
  intro st hst
  rw [h] at hst
  cases hst

structure CacheRun.Inv (s : CacheRun) : Prop where
  statement : ∀ st, s.disable.statement? = some st → st.disables
  row : s.disable.wroteRow = true → s.row.status = userStatusDisabled
  cache : s.disable.leftCache = true → s.cachedEnabled = false
  /-- A call that is late has started after the end of the disable. -/
  late : ∀ p, s.reader p = .missed true → s.disable = .returned
  served : ∀ user ∈ s.served, user.status ≠ userStatusEnabled

namespace CacheRun.Inv

variable {cfg : EditConfig} {myRole : Int} {s : CacheRun}

theorem start (row : User) (cache : Option UserBase) : (CacheRun.start row cache).Inv where
  statement := fun _ h => by cases h
  row := fun h => by cases h
  cache := fun h => by cases h
  late := fun _ h => by cases h
  served := fun _ h => by cases h

variable (h : s.Inv)

include h

open CacheRun

theorem setReader (p : Nat) {r : Reader} (hr : r = .missed true → s.disable = .returned) :
    (s.setReader p r).Inv where
  statement := h.statement
  row := h.row
  cache := h.cache
  late := by
    intro q hq
    by_cases hqp : q = p
    · subst hqp
      exact hr (by simpa [CacheRun.setReader] using hq)
    · exact h.late q (by simpa [CacheRun.setReader, hqp] using hq)
  served := h.served

theorem serve {late : Bool} {user : UserBase} (hu : late = true → user.status ≠ userStatusEnabled) :
    (s.serve late user).Inv := by
  unfold CacheRun.serve
  split
  · rename_i hlate
    refine { h with served := ?_ }
    intro u hmem
    rcases List.mem_append.mp hmem with hmem | hmem
    · exact h.served u hmem
    · rw [List.mem_singleton.mp hmem]
      exact hu hlate
  · exact h

/-- The cache may change as long as the disable has still to clear it, or to another entry that is
not enabled. -/
theorem setCache {cache : Option UserBase}
    (hc : s.disable.leftCache = true → ({ s with cache := cache }).cachedEnabled = false) :
    ({ s with cache := cache }).Inv :=
  { h with cache := hc }

theorem lookup (p : Nat) (fault : Bool) : (s.lookup p fault).Inv := by
  unfold CacheRun.lookup
  split
  · split
    · rename_i user hcache
      refine Inv.setReader (h.serve fun hlate => ?_) p (by simp)
      -- after the disable the entry is not an enabled one
      have hreturned : s.disable = .returned := of_decide_eq_true hlate
      have := h.cache (by rw [hreturned]; rfl)
      simpa [cachedEnabled, hcache] using this
    · exact h.setReader p fun hr => by simpa using hr
  · exact h

theorem select (p : Nat) (fault : Bool) : (s.select p fault).Inv := by
  unfold CacheRun.select
  split
  · rename_i late hp
    split
    · exact h.setReader p (by simp)
    refine Inv.setReader (h.serve fun hlate => ?_) p (by simp)
    subst hlate
    have hrow := h.row (by rw [h.late p hp]; rfl)
    simp [User.toBaseUser, hrow, userStatusDisabled, userStatusEnabled]
  · exact h

variable {fault : Bool}

theorem fill {p : Nat} (hf : s.fresh (.fill p fault) = true) : (s.fill p fault).Inv := by
  unfold CacheRun.fill
  split
  · rename_i user hp
    refine Inv.setReader ?_ p (by simp)
    cases fault with
    | true => exact h
    | false =>
      refine h.setCache fun hleft => ?_
      have hne : user.status ≠ userStatusEnabled := by simpa [fresh, hp, hleft] using hf
      exact decide_eq_false hne
  · exact h

theorem not_late (hd : s.disable ≠ .returned) (p : Nat) : s.reader p ≠ .missed true :=
  fun hp => hd (h.late p hp)

theorem setDisable {d : Disable} (hd : s.disable ≠ .returned) (hwrote : d.wroteRow = false)
    (hleft : d.leftCache = false) (hst : ∀ st, d.statement? = some st → st.disables) :
    ({ s with disable := d }).Inv where
  statement := hst
  row := fun hw => absurd (hwrote.symm.trans hw) Bool.false_ne_true
  cache := fun hl => absurd (hleft.symm.trans hl) Bool.false_ne_true
  late := fun p hp => absurd hp (h.not_late hd p)
  served := h.served

theorem readUser (fault : Bool) : (s.readUser cfg myRole fault).Inv := by
  unfold CacheRun.readUser
  split
  · rename_i hidle
    have hd : s.disable ≠ .returned := by simp [hidle]
    split
    · exact h.setDisable hd rfl rfl (noStatement rfl)
    rename_i st hst
    refine h.setDisable hd rfl rfl fun st' hst' => ?_
    cases hst'
    exact prepare_disables hst
  · exact h

theorem reload (fault : Bool) : (s.reload fault).Inv := by
  unfold CacheRun.reload
  split
  · rename_i st hd
    refine h.setDisable (by simp [hd]) rfl rfl fun st' hst' => ?_
    cases hst'
    exact h.statement st (by rw [hd]; rfl)
  · exact h

theorem update (fault : Bool) : (s.update fault).Inv := by
  unfold CacheRun.update
  split
  · rename_i st user hd
    have hne : s.disable ≠ .returned := by simp [hd]
    have hst := h.statement st (by rw [hd]; rfl)
    split
    · exact h.setDisable hne rfl rfl (noStatement rfl)
    · exact ⟨noStatement rfl, fun _ => hst.status_apply s.row, (fun hleft => by cases hleft),
        fun p hp => absurd hp (h.not_late hne p), h.served⟩
  · exact h

theorem updateUserCache (hf : s.fresh (.updateUserCache fault) = true) :
    (s.updateUserCache fault).Inv := by
  unfold CacheRun.updateUserCache
  split
  · rename_i user hd
    have hrow := h.row (by rw [hd]; rfl)
    cases fault with
    | true =>
      refine ⟨noStatement rfl, fun _ => hrow, fun _ => ?_, fun _ _ => rfl, h.served⟩
      simpa [fresh, hd, cachedEnabled] using hf
    | false =>
      exact ⟨noStatement rfl, fun _ => hrow, (fun hleft => by cases hleft),
        fun p hp => absurd hp (h.not_late (by simp [hd]) p), h.served⟩
  · exact h

theorem invalidateUserCache (hf : s.fresh (.invalidateUserCache fault) = true) :
    (s.invalidateUserCache fault).Inv := by
  unfold CacheRun.invalidateUserCache
  split
  · rename_i hd
    have hrow := h.row (by rw [hd]; rfl)
    refine ⟨noStatement rfl, fun _ => hrow, fun _ => ?_,
      fun p hp => absurd hp (h.not_late (by simp [hd]) p), h.served⟩
    cases fault with
    | true => simpa [fresh, hd, cachedEnabled] using hf
    | false => rfl
  · exact h

theorem respond : s.respond.Inv := by
  unfold CacheRun.respond
  split
  · rename_i hd
    have hrow := h.row (by rw [hd]; rfl)
    have hcache := h.cache (by rw [hd]; rfl)
    exact ⟨noStatement rfl, fun _ => hrow, fun _ => hcache, fun _ _ => rfl, h.served⟩
  · exact h

theorem step (a : CacheAct) (hf : s.fresh a = true) : (s.step cfg myRole a).Inv := by
  cases a with
  | lookup p fault => exact h.lookup p fault
  | select p fault => exact h.select p fault
  | fill p fault => exact h.fill hf
  | expire => exact h.setCache fun _ => rfl
  | readUser fault => exact h.readUser fault
  | reload fault => exact h.reload fault
  | update fault => exact h.update fault
  | updateUserCache fault => exact h.updateUserCache hf
  | invalidateUserCache fault => exact h.invalidateUserCache hf
  | respond => exact h.respond

end CacheRun.Inv

/-- **A disabled user is not served as an enabled one**: with a disable whose steps are `fresh`, no
`GetUserCache` call that starts after its return gives the status enabled. -/
theorem disabled_user_not_served (cfg : EditConfig) (myRole : Int) (row : User)
    (cache : Option UserBase) (acts : List CacheAct)
    (h : Guarded (CacheRun.step cfg myRole) (fun s a => s.fresh a = true) (.start row cache) acts) :
    ∀ user ∈ ((CacheRun.start row cache).run cfg myRole acts).served, user.status ≠ userStatusEnabled :=
  (h.invariant (P := CacheRun.Inv) (fun _ a hf hs => hs.step a hf) (.start row cache)).served

/-! ## Runs -/

/-- Codecs and checks of no importance for a disable. -/
def anyConfig : EditConfig :=
  ⟨fun _ => .zero, fun _ => "", fun _ => true, fun _ _ => true, .ok, fun _ _ => true, false⟩

def enabledUser : User := ⟨"u", "hash", "u", 1, 1, "u@x", 100, "default", "", ""⟩

def disableSteps : List CacheAct :=
  [.readUser false, .reload false, .update false, .updateUserCache false, .invalidateUserCache false, .respond]

/-- The fill of an overlapping call comes before the disable: two later calls get the disabled
user. -/
theorem early_fill_serves_disabled_user :
    let acts := [.lookup 0 false, .select 0 false, .fill 0 false] ++ disableSteps ++
      [.lookup 1 false, .select 1 false, .fill 1 false, .lookup 2 false]
    ((CacheRun.start enabledUser none).run anyConfig 10 acts).served.map UserBase.status = [2, 2] ∧
      ∀ user ∈ ((CacheRun.start enabledUser none).run anyConfig 10 acts).served, user.status ≠ userStatusEnabled :=
  ⟨by decide +kernel, disabled_user_not_served anyConfig 10 enabledUser none _ (by decide +kernel)⟩

/-- The fill comes after the disable has returned: the next call gets an enabled user from the
cache. -/
theorem late_fill_serves_disabled_user :
    let acts := [.lookup 0 false, .select 0 false] ++ disableSteps ++ [.fill 0 false, .lookup 1 false]
    let s := (CacheRun.start enabledUser none).run anyConfig 10 acts
    s.disable = .returned ∧ s.row.status = userStatusDisabled ∧ s.served = [enabledUser.toBaseUser] ∧
      enabledUser.toBaseUser.status = userStatusEnabled := by
  decide +kernel

end NewApi.Users
