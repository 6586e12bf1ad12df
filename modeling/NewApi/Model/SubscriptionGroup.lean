import NewApi.Model.SubscriptionOrder

/-!
# The group of a user with subscriptions

A purchase moves the user into the plan's group; expiry, invalidation and deletion of a subscription
move the user back to the group that this subscription remembers.

* `downgradeUserGroupForSubscriptionTx`, `adminInvalidateUserSubscription`,
  `adminDeleteUserSubscription`, `expireDueSubscriptions` — the three ways a subscription ends.
* `Chains`, `GroupAct`, `Chains.step` — runs of purchases and endings; `base` is the group a user
  had before the first purchase of the present chain of upgrading subscriptions.
-/

namespace NewApi.Subscription

open NewApi.Text List Table Bool

/-! ## Going back to the previous group -/

inductive GroupStmt where
  | findSub
  | updateSub
  | readGroup
  | findActive
  | writeGroup
  | deleteSub
  | commit
  deriving DecidableEq, Repr

/-- `user_id = ? AND status = 'active' AND end_time > ? AND upgrade_group <> ''`. -/
def activeUpgradeAt (userId now : Int) (m : Membership) : Bool :=
  decide (m.userId = userId ∧ m.status = .active ∧ now < m.endTime ∧ m.upgradeGroup ≠ "")

/-- The answer is the group that was restored, if one was. An error of the query for other active
subscriptions counts as finding none. -/
def downgradeUserGroupForSubscriptionTx (fault : Faults GroupStmt) (db : GroupDB) (sub : Membership)
    (now : Int) : Except String (GroupDB × String) :=
  let upgradeGroup := trimSpace sub.upgradeGroup
  if upgradeGroup = "" then .ok (db, "")
  else
    match getUserGroupByIdTx (fault .readGroup) db sub.userId with
    | .error e => .error e
    | .ok currentGroup =>
      if currentGroup ≠ upgradeGroup then .ok (db, "")
      else if fault .findActive = none ∧
          db.subs.rows.any (fun m => activeUpgradeAt sub.userId now m && decide (m.id ≠ sub.id)) = true then
        .ok (db, "")
      else
        let prevGroup := trimSpace sub.prevUserGroup
        if prevGroup = "" ∨ prevGroup = currentGroup then .ok (db, "")
        else
          match fault .writeGroup with
          | some e => .error e
          | none => .ok (db.setGroup sub.userId prevGroup, prevGroup)

/-- What the administrator is told. -/
def downgradeMessage (g : String) : String := if g ≠ "" then "用户分组将回退到 " ++ g else ""

def invalidateBody (fault : Faults GroupStmt) (id now : Int) (db : GroupDB) :
    Except String (GroupDB × String) :=
  match fault .findSub, db.subs.get id with
  | some e, _ => .error e
  | none, none => .error "record not found"
  | none, some sub =>
    match fault .updateSub with
    | some e => .error e
    | none =>
      let sub := { sub with status := .cancelled, endTime := now }
      match downgradeUserGroupForSubscriptionTx fault { db with subs := db.subs.save sub } sub now with
      | .error e => .error e
      | .ok (db, target) => .ok (db, downgradeMessage target)

def adminInvalidateUserSubscription (fault : Faults GroupStmt) (id now : Int) (db : GroupDB) :
    GroupDB × Except String String :=
  if id ≤ 0 then (db, .error "invalid userSubscriptionId")
  else transaction (fault .commit) db (invalidateBody fault id now)

def deleteBody (fault : Faults GroupStmt) (id now : Int) (db : GroupDB) :
    Except String (GroupDB × String) :=
  match fault .findSub, db.subs.get id with
  | some e, _ => .error e
  | none, none => .error "record not found"
  | none, some sub =>
    match downgradeUserGroupForSubscriptionTx fault db sub now with
    | .error e => .error e
    | .ok (db, target) =>
      match fault .deleteSub with
      | some e => .error e
      | none => .ok ({ db with subs := db.subs.delete fun m => decide (m.id = id) }, downgradeMessage target)

def adminDeleteUserSubscription (fault : Faults GroupStmt) (id now : Int) (db : GroupDB) :
    GroupDB × Except String String :=
  if id ≤ 0 then (db, .error "invalid userSubscriptionId")
  else transaction (fault .commit) db (deleteBody fault id now)

/-! ## Expiry -/

inductive SweepStmt where
  | expire
  | findActive
  | findExpired
  | readGroup
  | writeGroup
  | commit
  deriving DecidableEq, Repr

/-- `status = 'active' AND end_time > 0 AND end_time <= ?`. -/
def dueAt (now : Int) (m : Membership) : Bool :=
  decide (m.status = .active ∧ 0 < m.endTime ∧ m.endTime ≤ now)

/-- The `UPDATE` that expires what is due for one user. -/
def expireUpdate (userId now : Int) : Table.Update (fun m : Membership => m.id) where
  hits m := decide (m.userId = userId) && dueAt now m
  set m := { m with status := .expired }
  keeps _ _ := rfl

/-- `user_id = ? AND status = 'expired' AND upgrade_group <> ''`. -/
def expiredUpgrade (userId : Int) (m : Membership) : Bool :=
  decide (m.userId = userId ∧ m.status = .expired ∧ m.upgradeGroup ≠ "")

/-- `ORDER BY end_time DESC, id DESC`. -/
def endsLater (a b : Membership) : Bool :=
  decide (b.endTime < a.endTime ∨ a.endTime = b.endTime ∧ b.id < a.id)

/-- The group part of a user's sweep, once what was due is expired. -/
def restoreAfterSweep (fault : Faults SweepStmt) (userId now : Int) (db : GroupDB) :
    Except String (GroupDB × String) :=
  -- an error of this query counts as finding none, one of the next ends the transaction without an error
  if fault .findActive = none ∧ db.subs.rows.any (activeUpgradeAt userId now) = true then .ok (db, "")
  else
    match fault .findExpired, db.subs.first (expiredUpgrade userId) endsLater with
    | some _, _ => .ok (db, "")
    | none, none => .ok (db, "")
    | none, some lastExpired =>
      let upgradeGroup := trimSpace lastExpired.upgradeGroup
      let prevGroup := trimSpace lastExpired.prevUserGroup
      if upgradeGroup = "" ∨ prevGroup = "" then .ok (db, "")
      else
        match getUserGroupByIdTx (fault .readGroup) db userId with
        | .error e => .error e
        | .ok currentGroup =>
          if currentGroup ≠ upgradeGroup ∨ currentGroup = prevGroup then .ok (db, "")
          else
            match fault .writeGroup with
            | some e => .error e
            | none => .ok (db.setGroup userId prevGroup, prevGroup)

def expireUserBody (fault : Faults SweepStmt) (userId now : Int) (db : GroupDB) :
    Except String (GroupDB × String) :=
  match fault .expire with
  | some e => .error e
  | none => restoreAfterSweep fault userId now { db with subs := db.subs.exec (expireUpdate userId now) }

/-- The loop over the users: one transaction each, the first error ends it. -/
def expireUsers (fault : Int → Faults SweepStmt) (now : Int) : List Int → GroupDB →
      GroupDB × Except String Unit
  | [], db => (db, .ok ())
  | userId :: rest, db =>
    match transaction (fault userId .commit) db (expireUserBody (fault userId) userId now) with
    | (db, .error e) => (db, .error e)
    | (db, .ok _) => expireUsers fault now rest db

/-- The users of the first `limit` subscriptions that are due. -/
def dueUsers (db : GroupDB) (limit : Nat) (now : Int) : List Int :=
  let due := (db.subs.rows.filter (dueAt now)).insertionSort
    fun a b => a.endTime < b.endTime ∨ a.endTime = b.endTime ∧ a.id ≤ b.id
  (((due.take limit).map fun m => m.userId).filter fun id => decide (0 < id)).dedup

/-- `ExpireDueSubscriptions`; `order` is the order the map of users is ranged over. -/
def expireDueSubscriptions (readFault : Option String)
    (fault : Int → Faults SweepStmt) (limit now : Int) (order : List Int) (db : GroupDB) :
    GroupDB × Except String Unit :=
  match readFault with
  | some e => (db, .error e)
  | none =>
    if order.Perm (dueUsers db (if limit ≤ 0 then 200 else limit.toNat) now) then expireUsers fault now order db
    else (db, .ok ())

/-! ## Runs -/

/-- The status column says active, and there is a group to be in. -/
def activeUpgrade (userId : Int) (m : Membership) : Bool :=
  decide (m.userId = userId ∧ m.status = .active ∧ m.upgradeGroup ≠ "")

structure Chains where
  db : GroupDB
  now : Int
  /-- The group before the earliest purchase of the present chain of upgrading subscriptions. -/
  base : Int → String

def Chains.start (db : GroupDB) (now : Int) : Chains := ⟨db, now, db.groupOf⟩

inductive GroupAct where
  | tick (seconds : Nat)
  | purchase (userId : Int) (plan : PurchasePlan) (source : String) (cal : PurchaseCalendar) (newId : Int)
      (fault : Faults PurchaseStmt) (commit : Option String)
  | sweep (limit : Int) (order : List Int) (readFault : Option String) (fault : Int → Faults SweepStmt)
  | invalidate (id : Int) (fault : Faults GroupStmt)
  | delete (id : Int) (fault : Faults GroupStmt)

/-- A purchase with nothing active starts a new chain. -/
def Chains.bought (s : Chains) (db : GroupDB) (userId : Int) (sub : Membership) : Chains :=
  { s with
    db := db
    base := if sub.upgradeGroup ≠ "" ∧ s.db.subs.rows.any (activeUpgrade userId) = false then
        Function.update s.base userId (s.db.groupOf userId)
      else s.base }

def Chains.step (s : Chains) : GroupAct → Chains
  | .tick seconds => { s with now := s.now + seconds }
  | .purchase userId plan source cal newId fault commit =>
    match transaction commit s.db fun db =>
      createUserSubscriptionFromPlanTx ⟨cal, s.now, newId, fault⟩ db userId plan source with
    | (db, .ok sub) => s.bought db userId sub
    | (db, .error _) => { s with db := db }
  | .sweep limit order readFault fault =>
    { s with db := (expireDueSubscriptions readFault fault limit s.now order s.db).1 }
  | .invalidate id fault => { s with db := (adminInvalidateUserSubscription fault id s.now s.db).1 }
  | .delete id fault => { s with db := (adminDeleteUserSubscription fault id s.now s.db).1 }

def Chains.run (s : Chains) (acts : List GroupAct) : Chains := acts.foldl Chains.step s

/-- The user buys an upgrading plan only with nothing active and from another group with a proper
name; a subscription is removed by hand only while no other active one is past its end; the queries
that decide on the group succeed. -/
def careful (userId : Int) (s : Chains) : GroupAct → Bool
  | .tick _ => true
  | .purchase buyer plan _ _ _ _ _ =>
    decide (buyer ≠ userId ∨ trimSpace plan.upgradeGroup = "") || (!s.db.subs.rows.any (activeUpgrade userId) &&
        decide (s.db.groupOf userId ≠ trimSpace plan.upgradeGroup ∧
          trimSpace (s.db.groupOf userId) = s.db.groupOf userId ∧ s.db.groupOf userId ≠ ""))
  | .sweep _ _ _ fault => decide (fault userId .findActive = none ∧ fault userId .findExpired = none)
  | .invalidate id fault | .delete id fault =>
    decide (fault .findActive = none) &&
      s.db.subs.rows.all fun m => !activeUpgrade userId m || decide (m.id = id ∨ s.now < m.endTime)

/-! ## The invariant of careful runs -/

/-- The upgrading subscriptions of a user with base group `g`: all remember `g`, at most one is
active, and the user is where it leads or in `g`. -/
structure Steady (userId : Int) (g : String) (now : Int) (db : GroupDB) : Prop where
  clock : 0 ≤ now
  user : (db.group userId).isSome = true
  remembers : ∀ m ∈ db.subs.rows, m.userId = userId → m.upgradeGroup ≠ "" →
    m.prevUserGroup = g ∧ m.upgradeGroup ≠ g ∧ trimSpace m.upgradeGroup = m.upgradeGroup ∧ trimSpace g = g ∧ g ≠ ""
  single : ∀ m ∈ db.subs.rows, ∀ m' ∈ db.subs.rows, activeUpgrade userId m = true →
    activeUpgrade userId m' = true → m = m'
  inGroup : ∀ m ∈ db.subs.rows, activeUpgrade userId m = true → db.groupOf userId = m.upgradeGroup
  inBase : (∀ m ∈ db.subs.rows, activeUpgrade userId m = false) → db.groupOf userId = g
  ends : ∀ m ∈ db.subs.rows, activeUpgrade userId m = true → 0 < m.endTime
  /-- What has expired ended before what is active. -/
  past : ∀ m ∈ db.subs.rows, expiredUpgrade userId m = true → m.endTime ≤ now ∧
    ∀ m' ∈ db.subs.rows, activeUpgrade userId m' = true → m.endTime < m'.endTime

variable {sub : Membership} {plan : PurchasePlan} {e : PurchaseEnv}

section Steady

variable {userId : Int} {g : String} {now : Int} {db db' : GroupDB} {m : Membership}

theorem activeUpgrade_iff :
    activeUpgrade userId m = true ↔ m.userId = userId ∧ m.status = .active ∧ m.upgradeGroup ≠ "" := by
  simp [activeUpgrade]

theorem expiredUpgrade_iff :
    expiredUpgrade userId m = true ↔ m.userId = userId ∧ m.status = .expired ∧ m.upgradeGroup ≠ "" := by
  simp [expiredUpgrade]

theorem groupOf_setGroup (h : (db.group userId).isSome = true) (g' : String) :
    (db.setGroup userId g').groupOf userId = g' := by
  obtain ⟨old, hold⟩ := Option.isSome_iff_exists.mp h
  simp [GroupDB.groupOf, GroupDB.setGroup, hold]

theorem setGroup_isSome (v : Int) (g' : String) :
    ((db.setGroup v g').group userId).isSome = (db.group userId).isSome := by
  simp only [GroupDB.setGroup]
  split <;> simp

theorem groupOf_setGroup_ne {v : Int} (hv : v ≠ userId) (g' : String) :
    (db.setGroup v g').group userId = db.group userId := by
  simp [GroupDB.setGroup, hv.symm]

variable (h : Steady userId g now db)

include h

/-- The invariant speaks of the upgrading subscriptions and the group of one user only. -/
theorem Steady.frame
    (hrows : ∀ m : Membership, m.userId = userId → m.upgradeGroup ≠ "" → (m ∈ db'.subs.rows ↔ m ∈ db.subs.rows))
    (hgroup : db'.group userId = db.group userId) : Steady userId g now db' := by
  have hof : db'.groupOf userId = db.groupOf userId := by simp only [GroupDB.groupOf, hgroup]
  have hact : ∀ {m}, activeUpgrade userId m = true → (m ∈ db'.subs.rows ↔ m ∈ db.subs.rows) :=
    fun hm =>
    hrows _ (activeUpgrade_iff.mp hm).1 (activeUpgrade_iff.mp hm).2.2
  have hexp : ∀ {m}, expiredUpgrade userId m = true → (m ∈ db'.subs.rows ↔ m ∈ db.subs.rows) :=
    fun hm =>
    hrows _ (expiredUpgrade_iff.mp hm).1 (expiredUpgrade_iff.mp hm).2.2
  refine ⟨h.clock, hgroup ▸ h.user,
    fun m hm hu hup => h.remembers m ((hrows m hu hup).mp hm) hu hup,
    fun m hm m' hm' ha ha' => h.single m ((hact ha).mp hm) m' ((hact ha').mp hm') ha ha',
    fun m hm ha => hof.trans (h.inGroup m ((hact ha).mp hm) ha), fun hnone => hof.trans (h.inBase ?_),
    fun m hm ha => h.ends m ((hact ha).mp hm) ha, fun m hm he => ?_⟩
  · intro m hm
    by_contra hne
    have ha : activeUpgrade userId m = true := by simpa using hne
    rw [hnone m ((hact ha).mpr hm)] at ha
    cases ha
  · obtain ⟨hle, hlt⟩ := h.past m ((hexp he).mp hm) he
    exact ⟨hle, fun m' hm' ha' => hlt m' ((hact ha').mp hm') ha'⟩

theorem Steady.tick (seconds : Nat) : Steady userId g (now + seconds) db := by
  refine ⟨by have := h.clock; omega, h.user, h.remembers, h.single, h.inGroup, h.inBase, h.ends,
    fun m hm he => ?_⟩
  obtain ⟨hle, hlt⟩ := h.past m hm he
  exact ⟨by omega, hlt⟩

/-- One upgrading subscription ends: it is gone or has another status, and the user is back in the
base group if it was active. -/
theorem Steady.ended (hm : m ∈ db.subs.rows)
    (hrows : ∀ x ∈ db'.subs.rows, x.userId = userId → x.upgradeGroup ≠ "" → x ∈ db.subs.rows ∧ x.id ≠ m.id ∨
      x.prevUserGroup = m.prevUserGroup ∧ x.upgradeGroup = m.upgradeGroup ∧ m.userId = userId ∧
        x.status ≠ .active ∧ (x.status = .expired → x.endTime ≤ now ∧ m.status = .active))
    (hkeep : ∀ x ∈ db.subs.rows, x.userId = userId → x.upgradeGroup ≠ "" → x.id ≠ m.id → x ∈ db'.subs.rows)
    (hsome : (db'.group userId).isSome = true)
    (hgroup : db'.groupOf userId = if activeUpgrade userId m then g else db.groupOf userId) :
    Steady userId g now db' := by
  -- what is active afterwards was active before
  have hold : ∀ x ∈ db'.subs.rows, activeUpgrade userId x = true → x ∈ db.subs.rows ∧ x.id ≠ m.id := by
    intro x hx ha
    obtain ⟨hu, hact, hup⟩ := activeUpgrade_iff.mp ha
    rcases hrows x hx hu hup with hin | ⟨_, _, _, hne, _⟩
    · exact hin
    · exact absurd hact hne
  have hother : ∀ x ∈ db'.subs.rows, activeUpgrade userId x = true → activeUpgrade userId m = false := by
    intro x hx ha
    obtain ⟨hin, hne⟩ := hold x hx ha
    by_contra hma
    have := h.single x hin m hm ha (by simpa using hma)
    exact hne (by rw [this])
  refine ⟨h.clock, hsome, fun x hx hu hup => ?_, fun x hx y hy ha hb => ?_, fun x hx ha => ?_,
    fun hnone => ?_, fun x hx ha => h.ends x (hold x hx ha).1 ha, fun x hx he => ?_⟩
  · rcases hrows x hx hu hup with ⟨hin, _⟩ | ⟨hprev, hug, hmu, _⟩
    · exact h.remembers x hin hu hup
    · rw [hprev, hug]
      exact h.remembers m hm hmu (hug ▸ hup)
  · exact h.single x (hold x hx ha).1 y (hold y hy hb).1 ha hb
  · rw [hgroup, hother x hx ha]
    exact h.inGroup x (hold x hx ha).1 ha
  · rw [hgroup]
    split
    · rfl
    rename_i hma
    refine h.inBase fun x hx => ?_
    by_contra hne
    have ha : activeUpgrade userId x = true := by simpa using hne
    obtain ⟨hu, _, hup⟩ := activeUpgrade_iff.mp ha
    by_cases hid : x.id = m.id
    · have hxm : x = m := eq_of_key_eq hx hm hid
      exact hma (hxm ▸ ha)
    · rw [hnone x (hkeep x hx hu hup hid)] at ha
      cases ha
  · obtain ⟨hu, hexp, hup⟩ := expiredUpgrade_iff.mp he
    rcases hrows x hx hu hup with ⟨hin, _⟩ | ⟨_, hug, hmu, _, hpast⟩
    · obtain ⟨hle, hlt⟩ := h.past x hin he
      exact ⟨hle, fun y hy ha => hlt y (hold y hy ha).1 ha⟩
    obtain ⟨hle, hact⟩ := hpast hexp
    refine ⟨hle, fun y hy ha => ?_⟩
    have hma : activeUpgrade userId m = true := activeUpgrade_iff.mpr ⟨hmu, hact, hug ▸ hup⟩
    rw [hother y hy ha] at hma
    cases hma

theorem Steady.upgraded (hp : Purchased e db db' userId plan sub) (hnow : e.now = now) (hup : sub.upgradeGroup ≠ "")
    (hnone : ∀ m ∈ db.subs.rows, activeUpgrade userId m = false)
    (hne : db.groupOf userId ≠ sub.upgradeGroup) (htrim : trimSpace g = g) (hblank : g ≠ "") :
    Steady userId g now db' := by
  have hrows := (insert_some hp.inserted).2
  have hbase := h.inBase hnone
  obtain ⟨hprev, hgroup⟩ : sub.prevUserGroup = g ∧ db'.group = (db.setGroup userId sub.upgradeGroup).group := by
    rcases hp.group with ⟨_, _, hcase⟩ | ⟨_, _, hprev, hgroup⟩
    · rcases hcase with h1 | h1
      · exact absurd h1 hup
      · exact absurd h1 hne
    · exact ⟨hprev.trans hbase, hgroup⟩
  have hof : db'.groupOf userId = sub.upgradeGroup := by
    have := groupOf_setGroup h.user sub.upgradeGroup
    simpa only [GroupDB.groupOf, hgroup] using this
  have hact : ∀ m ∈ db'.subs.rows, activeUpgrade userId m = true → m = sub := by
    intro m hm ha
    rw [hrows] at hm
    rcases mem_append.mp hm with hm | hm
    · rw [hnone m hm] at ha; cases ha
    · exact mem_singleton.mp hm
  have hstart := hp.times
  refine ⟨h.clock, ?_, fun m hm hu hug => ?_,
    fun m hm m' hm' ha ha' => (hact m hm ha).trans (hact m' hm' ha').symm,
    fun m hm ha => by rw [hact m hm ha, hof], fun hno => ?_, fun m hm ha => ?_, fun m hm he => ?_⟩
  · rw [hgroup, setGroup_isSome]
    exact h.user
  · rw [hrows] at hm
    rcases mem_append.mp hm with hm | hm
    · exact h.remembers m hm hu hug
    · rw [mem_singleton.mp hm]
      exact ⟨hprev, fun he => hne (hbase.trans he.symm), by rw [hp.upgrade, trimSpace_trimSpace],
        htrim, hblank⟩
  · have hsub : activeUpgrade userId sub = true := activeUpgrade_iff.mpr ⟨hp.user, hp.active, hup⟩
    rw [hno sub (by rw [hrows]; simp)] at hsub
    cases hsub
  · rw [hact m hm ha]
    have := h.clock
    omega
  rw [hrows] at hm
  rcases mem_append.mp hm with hm | hm
  · obtain ⟨hle, _⟩ := h.past m hm he
    refine ⟨hle, fun m' hm' ha' => ?_⟩
    rw [hact m' hm' ha']
    omega
  · rw [mem_singleton.mp hm] at he
    have := (expiredUpgrade_iff.mp he).2.1
    rw [hp.active] at this
    cases this

end Steady

/-! ## Removal by hand -/

section Removal

variable {userId : Int} {g : String} {now : Int} {db db' dbq : GroupDB} {fault : Faults GroupStmt}
  {sub m : Membership} {target : String}

theorem getUserGroupByIdTx_ok {f : Option String} {current : String}
    (h : getUserGroupByIdTx f db userId = .ok current) : current = db.groupOf userId := by
  unfold getUserGroupByIdTx at h
  split at h
  · cases h
  split at h
  · cases h
  · cases h; rfl

section

variable (h : downgradeUserGroupForSubscriptionTx fault dbq sub now = .ok (db', target))

include h

/-- **Everything a downgrade can do**, with the reasons for doing nothing. -/
theorem downgrade_cases :
    (db' = dbq ∧ (trimSpace sub.upgradeGroup = "" ∨ dbq.groupOf sub.userId ≠ trimSpace sub.upgradeGroup ∨
      (∃ x ∈ dbq.subs.rows, activeUpgradeAt sub.userId now x = true ∧ x.id ≠ sub.id) ∨
      trimSpace sub.prevUserGroup = "" ∨ trimSpace sub.prevUserGroup = dbq.groupOf sub.userId)) ∨
    (db' = dbq.setGroup sub.userId (trimSpace sub.prevUserGroup) ∧ trimSpace sub.upgradeGroup ≠ "" ∧
      dbq.groupOf sub.userId = trimSpace sub.upgradeGroup ∧
      (fault .findActive = none →
        ∀ x ∈ dbq.subs.rows, activeUpgradeAt sub.userId now x = true → x.id = sub.id)) := by
  unfold downgradeUserGroupForSubscriptionTx at h
  simp only at h
  split at h
  · rename_i hup
    cases h
    exact .inl ⟨rfl, .inl hup⟩
  rename_i hup
  split at h
  · cases h
  rename_i current hread
  have hcur := getUserGroupByIdTx_ok hread
  subst hcur
  split at h
  · rename_i hne
    cases h
    exact .inl ⟨rfl, .inr (.inl hne)⟩
  rename_i heq
  split at h
  · rename_i hany
    cases h
    obtain ⟨x, hx, hxa⟩ := any_eq_true.mp hany.2
    simp only [and_eq_true, decide_eq_true_eq] at hxa
    exact .inl ⟨rfl, .inr (.inr (.inl ⟨x, hx, hxa⟩))⟩
  rename_i hnone
  split at h
  · rename_i hprev
    cases h
    exact .inl ⟨rfl, .inr (.inr (.inr hprev))⟩
  split at h
  · cases h
  cases h
  refine .inr ⟨rfl, hup, not_not.mp heq, fun hf x hx hxa => ?_⟩
  by_contra hid
  refine hnone ⟨hf, any_eq_true.mpr ⟨x, hx, ?_⟩⟩
  simp [hxa, hid]

theorem downgrade_elsewhere (hother : ¬ (sub.userId = userId ∧ sub.upgradeGroup ≠ "")) :
    db'.subs = dbq.subs ∧ db'.group userId = dbq.group userId := by
  rcases downgrade_cases h with ⟨rfl, _⟩ | ⟨rfl, hup, _⟩
  · exact ⟨rfl, rfl⟩
  have hgroup : sub.upgradeGroup ≠ "" := fun hblank => hup (by rw [hblank]; rfl)
  exact ⟨rfl, groupOf_setGroup_ne (fun hu => hother ⟨hu, hgroup⟩) _⟩

end

/-- A downgrade after the end of an upgrading subscription leads to the base group exactly when that
one was active.
-/
theorem Steady.downgraded (h : Steady userId g now db)
    (hd : downgradeUserGroupForSubscriptionTx fault dbq sub now = .ok (db', target))
    (hm : m ∈ db.subs.rows) (hmu : m.userId = userId) (hup : m.upgradeGroup ≠ "") (hgroup : dbq.group = db.group)
    (hothers : ∀ x : Membership, x.id ≠ m.id → (x ∈ dbq.subs.rows ↔ x ∈ db.subs.rows))
    (hsub : sub.id = m.id ∧ sub.userId = m.userId ∧ sub.upgradeGroup = m.upgradeGroup ∧
      sub.prevUserGroup = m.prevUserGroup)
    (hover : ∀ x ∈ db.subs.rows, activeUpgrade userId x = true → x.id ≠ m.id → now < x.endTime)
    (hf : fault .findActive = none) :
    db'.subs = dbq.subs ∧ (db'.group userId).isSome = true ∧
      db'.groupOf userId = if activeUpgrade userId m then g else db.groupOf userId := by
  obtain ⟨hid, hsu, hsg, hsp⟩ := hsub
  obtain ⟨hprev, hne, htrim, hgtrim, hgblank⟩ := h.remembers m hm hmu hup
  have hof : dbq.groupOf userId = db.groupOf userId := by simp only [GroupDB.groupOf, hgroup]
  have hsome : (dbq.group userId).isSome = true := by rw [hgroup]; exact h.user
  rcases downgrade_cases hd with ⟨rfl, hwhy⟩ | ⟨rfl, _, hcur, hnone⟩
  · refine ⟨rfl, hsome, ?_⟩
    rw [hof]
    split
    · -- the active one ends: none of the reasons to stay applies
      rename_i ha
      have hin := h.inGroup m hm ha
      rw [hsg, htrim, hsp, hprev, hsu, hmu, hof, hin, hgtrim] at hwhy
      rcases hwhy with h1 | h1 | ⟨x, hx, hxa, hxid⟩ | h1 | h1
      · exact absurd h1 hup
      · exact absurd rfl h1
      · simp only [activeUpgradeAt, decide_eq_true_eq] at hxa
        have hxid' : x.id ≠ m.id := fun e => hxid (e.trans hid.symm)
        have hxa' : activeUpgrade userId x = true := activeUpgrade_iff.mpr ⟨hxa.1, hxa.2.1,
          hxa.2.2.2⟩
        exact absurd (congrArg (fun y : Membership => y.id) (h.single x ((hothers x hxid').mp hx) m hm hxa' ha)) hxid'
      · exact absurd h1 hgblank
      · exact absurd h1.symm hne
    · rfl
  · have hback : (dbq.setGroup sub.userId (trimSpace sub.prevUserGroup)).groupOf userId = g := by
      rw [hsu, hmu, hsp, hprev, hgtrim]
      exact groupOf_setGroup hsome g
    refine ⟨rfl, by rw [setGroup_isSome]; exact hsome, ?_⟩
    rw [hback]
    split
    · rfl
    · -- the user is in the group of an ended subscription: another one, still running, leads there
      rename_i hma
      rw [hsg, htrim, hsu, hmu, hof] at hcur
      have hex : ¬ ∀ x ∈ db.subs.rows, activeUpgrade userId x = false := fun hno =>
        hne (hcur.symm.trans (h.inBase hno))
      push Not at hex
      obtain ⟨x, hx, hxa⟩ := hex
      have ha : activeUpgrade userId x = true := by simpa using hxa
      have hxid : x.id ≠ m.id := fun e => hma (eq_of_key_eq hx hm e ▸ ha)
      have hlate := hover x hx ha hxid
      obtain ⟨hxu, hxact, hxup⟩ := activeUpgrade_iff.mp ha
      have := hnone hf x ((hothers x hxid).mpr hx) (by simp [activeUpgradeAt, hsu, hmu, hxu, hxact, hxup, hlate])
      exact absurd (this.trans hid) hxid

/-- What `careful` says about a removal of `id`. -/
def NoneOverdue (userId now : Int) (db : GroupDB) (id : Int) : Prop :=
  ∀ x ∈ db.subs.rows, activeUpgrade userId x = true → x.id ≠ id → now < x.endTime

theorem Steady.invalidate (h : Steady userId g now db) {id : Int}
    (hover : NoneOverdue userId now db id)
    (hf : fault .findActive = none) :
    Steady userId g now (adminInvalidateUserSubscription fault id now db).1 := by
  unfold adminInvalidateUserSubscription
  split
  · exact h
  refine transaction_preserves h fun db' msg hb => ?_
  unfold invalidateBody at hb
  split at hb
  · cases hb
  · cases hb
  rename_i m _ hget
  split at hb
  · cases hb
  simp only at hb
  split at hb
  · cases hb
  rename_i db₁ target hd
  cases hb
  have hm := mem_of_get hget
  have hid : m.id = id := (key_of_get hget :)
  have hback : ∀ x ∈ db.subs.rows, x.id ≠ m.id →
      x ∈ (db.subs.save { m with status := .cancelled, endTime := now }).rows :=
    fun x hx hne => mem_save_of_ne hx hne
  by_cases hrel : m.userId = userId ∧ m.upgradeGroup ≠ ""
  · have hothers : ∀ x : Membership, x.id ≠ m.id →
        (x ∈ (db.subs.save { m with status := .cancelled, endTime := now }).rows ↔ x ∈ db.subs.rows) := by
      intro x hne
      refine ⟨fun hx => ?_, fun hx => hback x hx hne⟩
      rcases mem_save hx with rfl | ⟨hx, _⟩
      · exact absurd rfl hne
      · exact hx
    obtain ⟨hsubs, hsome, hgroup⟩ := h.downgraded hd hm hrel.1 hrel.2 rfl hothers ⟨rfl, rfl, rfl,
      rfl⟩ (hid ▸ hover) hf
    refine h.ended hm (fun x hx _ _ => ?_) (fun x hx _ _ hne => hsubs ▸ hback x hx hne) hsome hgroup
    rw [hsubs] at hx
    rcases mem_save hx with rfl | hx
    · exact .inr ⟨rfl, rfl, hrel.1, by simp, by simp⟩
    · exact .inl hx
  · obtain ⟨hsubs, hgroup⟩ := downgrade_elsewhere hd hrel
    refine h.frame (fun x hu hup => ?_) hgroup
    rw [hsubs]
    constructor
    · intro hx
      rcases mem_save hx with rfl | hx
      · exact absurd ⟨hu, hup⟩ hrel
      · exact hx.1
    · intro hx
      exact hback x hx fun e => hrel (eq_of_key_eq hx hm e ▸ ⟨hu, hup⟩)

theorem Steady.delete (h : Steady userId g now db) {id : Int} (hover : NoneOverdue userId now db id)
    (hf : fault .findActive = none) :
    Steady userId g now (adminDeleteUserSubscription fault id now db).1 := by
  unfold adminDeleteUserSubscription
  split
  · exact h
  refine transaction_preserves h fun db' msg hb => ?_
  unfold deleteBody at hb
  split at hb
  · cases hb
  · cases hb
  rename_i m _ hget
  split at hb
  · cases hb
  rename_i db₁ target hd
  split at hb
  · cases hb
  cases hb
  have hm := mem_of_get hget
  have hid : m.id = id := (key_of_get hget :)
  by_cases hrel : m.userId = userId ∧ m.upgradeGroup ≠ ""
  · obtain ⟨hsubs, hsome, hgroup⟩ := h.downgraded hd hm hrel.1 hrel.2 rfl (fun _ _ => Iff.rfl)
      ⟨rfl, rfl, rfl, rfl⟩ (hid ▸ hover) hf
    refine h.ended hm (fun x hx _ _ => .inl ?_) (fun x hx _ _ hne => ?_) hsome hgroup
    · rw [mem_delete, hsubs] at hx
      exact ⟨hx.1, by simpa [hid] using hx.2⟩
    · rw [mem_delete, hsubs]
      exact ⟨hx, by simpa [hid] using hne⟩
  · obtain ⟨hsubs, hgroup⟩ := downgrade_elsewhere hd hrel
    refine h.frame (fun x hu hup => ?_) hgroup
    rw [mem_delete, hsubs]
    refine ⟨fun hx => hx.1, fun hx => ⟨hx, ?_⟩⟩
    have hne : x.id ≠ m.id := fun e => hrel (eq_of_key_eq hx hm e ▸ ⟨hu, hup⟩)
    simpa [hid] using hne

end Removal

/-! ## Expiry and the group -/

section Sweep

variable {userId v : Int} {g : String} {now : Int} {db db' dbq : GroupDB} {fault : Faults SweepStmt} {target : String}

/-- **Everything the group part of a sweep can do**, with the reasons for doing nothing. -/
theorem restoreAfterSweep_cases (h : restoreAfterSweep fault v now dbq = .ok (db', target)) :
    (db' = dbq ∧ ((∃ x ∈ dbq.subs.rows, activeUpgradeAt v now x = true) ∨ fault .findExpired ≠ none ∨
      dbq.subs.first (expiredUpgrade v) endsLater = none ∨
      ∃ last, dbq.subs.first (expiredUpgrade v) endsLater = some last ∧
        (trimSpace last.upgradeGroup = "" ∨ trimSpace last.prevUserGroup = "" ∨
          dbq.groupOf v ≠ trimSpace last.upgradeGroup ∨
          dbq.groupOf v = trimSpace last.prevUserGroup))) ∨
    (∃ last, dbq.subs.first (expiredUpgrade v) endsLater = some last ∧
      dbq.groupOf v = trimSpace last.upgradeGroup ∧
      db' = dbq.setGroup v (trimSpace last.prevUserGroup) ∧
      (fault .findActive = none → ∀ x ∈ dbq.subs.rows, activeUpgradeAt v now x = false)) := by
  unfold restoreAfterSweep at h
  split at h
  · rename_i hany
    cases h
    exact .inl ⟨rfl, .inl (any_eq_true.mp hany.2)⟩
  rename_i hnone
  split at h
  · rename_i hf
    cases h
    exact .inl ⟨rfl, .inr (.inl (by rw [hf]; simp))⟩
  · rename_i hfirst
    cases h
    exact .inl ⟨rfl, .inr (.inr (.inl hfirst))⟩
  rename_i last _ hfirst
  simp only at h
  split at h
  · rename_i hblank
    cases h
    refine .inl ⟨rfl, .inr (.inr (.inr ⟨last, hfirst, ?_⟩))⟩
    exact hblank.imp id .inl
  split at h
  · cases h
  rename_i current hread
  have hcur := getUserGroupByIdTx_ok hread
  subst hcur
  split at h
  · rename_i hstay
    cases h
    exact .inl ⟨rfl, .inr (.inr (.inr ⟨last, hfirst, .inr (.inr hstay)⟩))⟩
  rename_i hgo
  push Not at hgo
  split at h
  · cases h
  cases h
  refine .inr ⟨last, hfirst, hgo.1, rfl, fun hf x hx => ?_⟩
  by_contra hne
  exact hnone ⟨hf, any_eq_true.mpr ⟨x, hx, by simpa using hne⟩⟩

theorem restoreAfterSweep_elsewhere (h : restoreAfterSweep fault v now dbq = .ok (db', target))
    (hv : v ≠ userId) : db'.subs = dbq.subs ∧ db'.group userId = dbq.group userId := by
  rcases restoreAfterSweep_cases h with ⟨rfl, _⟩ | ⟨_, _, _, rfl, _⟩
  · exact ⟨rfl, rfl⟩
  · exact ⟨rfl, groupOf_setGroup_ne hv _⟩

theorem Steady.nothing_due (h : Steady userId g now db)
    (hb : restoreAfterSweep fault userId now dbq = .ok (db', target))
    (hrows : ∀ m : Membership, m.userId = userId → m.upgradeGroup ≠ "" → (m ∈ dbq.subs.rows ↔ m ∈ db.subs.rows))
    (hgroup : dbq.group = db.group)
    (hlate : ∀ x ∈ db.subs.rows, activeUpgrade userId x = true → now < x.endTime)
    (hf : fault .findActive = none) : Steady userId g now db' := by
  have hq : Steady userId g now dbq := h.frame hrows (by rw [hgroup])
  rcases restoreAfterSweep_cases hb with ⟨rfl, _⟩ | ⟨last, hfirst, hcur, rfl, hnone⟩
  · exact hq
  · -- a restore needs an ended subscription of the present group, and nothing active
    obtain ⟨hlast, hexp, _⟩ := first_some hfirst
    obtain ⟨hu, _, hup⟩ := expiredUpgrade_iff.mp hexp
    obtain ⟨_, hne, htrim, _, _⟩ := hq.remembers last hlast hu hup
    have hbase : dbq.groupOf userId = g := by
      refine hq.inBase fun x hx => ?_
      by_contra hact
      have ha : activeUpgrade userId x = true := by simpa using hact
      obtain ⟨hxu, hxact, hxup⟩ := activeUpgrade_iff.mp ha
      have hlt := hlate x ((hrows x hxu hxup).mp hx) ha
      have := hnone hf x hx
      simp [activeUpgradeAt, hxu, hxact, hxup, hlt] at this
    rw [hbase, htrim] at hcur
    exact absurd hcur.symm hne

/-- The active upgrading subscription is due: it expires, it is the last that did, and the user is
back in the base group. -/
theorem Steady.due (h : Steady userId g now db) {x : Membership} (hx : x ∈ db.subs.rows)
    (ha : activeUpgrade userId x = true) (hdue : x.endTime ≤ now)
    (hf : fault .findExpired = none)
    (hb : restoreAfterSweep fault userId now { db with subs := db.subs.exec (expireUpdate userId now) } =
      .ok (db', target)) : Steady userId g now db' := by
  obtain ⟨hxu, hxact, hxup⟩ := activeUpgrade_iff.mp ha
  obtain ⟨hprev, hne, htrim, hgtrim, hgblank⟩ := h.remembers x hx hxu hxup
  have hhit : (expireUpdate userId now).hits x = true := by
    simp [expireUpdate, dueAt, hxu, hxact, hdue, h.ends x hx ha]
  have honly : ∀ y ∈ db.subs.rows, (expireUpdate userId now).hits y = true → y.upgradeGroup ≠ "" → y = x := by
    intro y hy hyh hyup
    simp only [expireUpdate, dueAt, and_eq_true, decide_eq_true_eq] at hyh
    exact h.single y hy x hx (activeUpgrade_iff.mpr ⟨hyh.1, hyh.2.1, hyup⟩) ha
  -- the upgrading rows afterwards: `x` expired, and the others
  have hrows : ∀ r ∈ (db.subs.exec (expireUpdate userId now)).rows, r.upgradeGroup ≠ "" →
      r ∈ db.subs.rows ∧ r.id ≠ x.id ∨ r = { x with status := .expired } := by
    intro r hr hup
    rcases mem_exec.mp hr with ⟨hr, hh⟩ | ⟨y, hy, hyh, rfl⟩
    · refine .inl ⟨hr, fun e => ?_⟩
      rw [eq_of_key_eq hr hx e, hhit] at hh
      cases hh
    · rw [honly y hy hyh hup]
      exact .inr rfl
  have hself : { x with status := .expired } ∈ (db.subs.exec (expireUpdate userId now)).rows :=
    mem_exec.mpr (.inr ⟨x, hx, hhit, rfl⟩)
  have hfirst : (db.subs.exec (expireUpdate userId now)).first (expiredUpgrade userId) endsLater =
      some { x with status := .expired } := by
    refine first_eq_some hself (expiredUpgrade_iff.mpr ⟨hxu, rfl, hxup⟩) (fun r hr he => ?_) (by simp [endsLater])
    rcases hrows r hr (expiredUpgrade_iff.mp he).2.2 with ⟨hr, _⟩ | rfl
    · have hlt := (h.past r hr he).2 x hx ha
      refine .inr ⟨by simp [endsLater, hlt], ?_⟩
      simp only [endsLater, decide_eq_false_iff_not]
      omega
    · exact .inl rfl
  have hin : ({ db with subs := db.subs.exec (expireUpdate userId now) } : GroupDB).groupOf userId =
      x.upgradeGroup := h.inGroup x hx ha
  rcases restoreAfterSweep_cases hb with ⟨rfl, hwhy⟩ | ⟨last, hlast, _, rfl, _⟩
  · exfalso
    rcases hwhy with ⟨y, hy, hya⟩ | hfe | hnone | ⟨last, hlast, hstay⟩
    · simp only [activeUpgradeAt, decide_eq_true_eq] at hya
      rcases hrows y hy hya.2.2.2 with ⟨hy, hid⟩ | rfl
      · exact hid (congrArg (fun m : Membership => m.id)
          (h.single y hy x hx (activeUpgrade_iff.mpr ⟨hya.1, hya.2.1, hya.2.2.2⟩) ha))
      · cases hya.2.1
    · exact hfe hf
    · rw [hfirst] at hnone
      cases hnone
    rw [hfirst] at hlast
    cases hlast
    rw [hin, htrim, hprev, hgtrim] at hstay
    rcases hstay with h1 | h1 | h1 | h1
    · exact hxup h1
    · exact hgblank h1
    · exact h1 rfl
    · exact hne h1
  · rw [hfirst] at hlast
    cases hlast
    refine h.ended hx (fun r hr _ hup => ?_) (fun r hr hu hup hid => ?_) (by rw [setGroup_isSome]; exact h.user) ?_
    · refine (hrows r hr hup).imp id ?_
      rintro rfl
      exact ⟨rfl, rfl, hxu, by simp, fun _ => ⟨hdue, hxact⟩⟩
    · refine mem_exec.mpr (.inl ⟨hr, ?_⟩)
      by_contra hh
      exact hid (congrArg (fun m : Membership => m.id) (honly r hr (by simpa using hh) hup))
    rw [if_pos ha]
    show (GroupDB.setGroup _ userId (trimSpace x.prevUserGroup)).groupOf userId = g
    rw [hprev, hgtrim]
    exact groupOf_setGroup h.user g

theorem Steady.expireUserBody (h : Steady userId g now db)
    (hf : v = userId → fault .findActive = none ∧ fault .findExpired = none)
    (hb : expireUserBody fault v now db = .ok (db', target)) : Steady userId g now db' := by
  unfold NewApi.Subscription.expireUserBody at hb
  split at hb
  · cases hb
  by_cases hv : v = userId
  · subst hv
    obtain ⟨hfa, hfe⟩ := hf rfl
    by_cases hdue : ∃ x ∈ db.subs.rows, activeUpgrade v x = true ∧ x.endTime ≤ now
    · obtain ⟨x, hx, ha, hle⟩ := hdue
      exact h.due hx ha hle hfe hb
    push Not at hdue
    refine h.nothing_due hb (fun m hu hup => ?_) rfl hdue hfa
    rw [mem_exec]
    constructor
    · rintro (⟨hm, _⟩ | ⟨x, hx, hxh, rfl⟩)
      · exact hm
      simp only [expireUpdate, dueAt, and_eq_true, decide_eq_true_eq] at hxh
      have := hdue x hx (activeUpgrade_iff.mpr ⟨hxh.1, hxh.2.1, hup⟩)
      omega
    intro hm
    refine .inl ⟨hm, ?_⟩
    by_contra hh
    simp only [expireUpdate, dueAt, not_eq_false, and_eq_true, decide_eq_true_eq] at hh
    have := hdue m hm (activeUpgrade_iff.mpr ⟨hu, hh.2.1, hup⟩)
    omega
  · obtain ⟨hsubs, hgroup⟩ := restoreAfterSweep_elsewhere hb hv
    refine h.frame (fun m hu hup => ?_) hgroup
    rw [hsubs, mem_exec]
    constructor
    · rintro (⟨hm, _⟩ | ⟨x, hx, hxh, rfl⟩)
      · exact hm
      · simp only [expireUpdate, and_eq_true, decide_eq_true_eq] at hxh
        exact absurd (hxh.1.symm.trans hu) hv
    intro hm
    refine .inl ⟨hm, ?_⟩
    have : m.userId ≠ v := fun e => hv (e.symm.trans hu)
    simp [expireUpdate, this]

variable {faults : Int → Faults SweepStmt}

theorem Steady.expireUsers (hf : faults userId .findActive = none ∧ faults userId .findExpired = none) :
    ∀ (users : List Int) {db : GroupDB}, Steady userId g now db →
      Steady userId g now (expireUsers faults now users db).1
  | [], _, h => h
  | u :: rest, db, h => by
    have hbody : Steady userId g now
        (transaction (faults u .commit) db (NewApi.Subscription.expireUserBody (faults u) u now)).1 :=
      transaction_preserves h fun db' _ hb => h.expireUserBody (fun e => e ▸ hf) hb
    unfold NewApi.Subscription.expireUsers
    split
    · rename_i ht
      rwa [ht] at hbody
    rename_i ht
    rw [ht] at hbody
    exact Steady.expireUsers hf rest hbody

theorem Steady.sweep (h : Steady userId g now db)
    (hf : faults userId .findActive = none ∧ faults userId .findExpired = none) (readFault : Option String)
    (limit : Int) (order : List Int) :
    Steady userId g now (expireDueSubscriptions readFault faults limit now order db).1 := by
  unfold expireDueSubscriptions
  split
  · exact h
  by_cases hp : order.Perm (dueUsers db (if limit ≤ 0 then 200 else limit.toNat) now)
  · rw [if_pos hp]
    exact Steady.expireUsers hf order h
  · rw [if_neg hp]
    exact h

end Sweep

/-! ## Careful runs -/

section CarefulRuns

variable {userId : Int} {g : String} {s : Chains}

/-- The invariant, together with the base group the run keeps track of. -/
def SteadyChain (userId : Int) (g : String) (s : Chains) : Prop :=
  Steady userId g s.now s.db ∧ s.base userId = g

variable {db db' : GroupDB} {buyer : Int}

theorem Steady.bought_elsewhere {now : Int} (h : Steady userId g now db)
    (hp : Purchased e db db' buyer plan sub) (hother : buyer ≠ userId ∨ sub.upgradeGroup = "") : Steady userId g now db' := by
  have hgroup : db'.group userId = db.group userId := by
    rcases hp.group with ⟨hsame, _⟩ | ⟨hup, _, _, hset⟩
    · rw [hsame]
    · rw [hset]
      exact groupOf_setGroup_ne (hother.resolve_right hup) _
  refine h.frame (fun m hu hup => ?_) hgroup
  rw [(insert_some hp.inserted).2]
  constructor
  · intro hm
    rcases mem_append.mp hm with hm | hm
    · exact hm
    have := mem_singleton.mp hm
    subst this
    rcases hother with hne | hblank
    · exact absurd (hp.user.symm.trans hu) hne
    · exact absurd hblank hup
  · exact fun hm => mem_append.mpr (.inl hm)

theorem SteadyChain.bought (h : SteadyChain userId g s) (hnow : e.now = s.now)
    (hp : Purchased e s.db db' buyer plan sub) (hcareful : (buyer ≠ userId ∨ trimSpace plan.upgradeGroup = "") ∨
      (∀ m ∈ s.db.subs.rows, activeUpgrade userId m = false) ∧
      s.db.groupOf userId ≠ trimSpace plan.upgradeGroup ∧
        trimSpace (s.db.groupOf userId) = s.db.groupOf userId ∧ s.db.groupOf userId ≠ "") :
    SteadyChain userId g (s.bought db' buyer sub) := by
  obtain ⟨hs, hbase⟩ := h
  rw [← hp.upgrade] at hcareful
  by_cases hother : buyer ≠ userId ∨ sub.upgradeGroup = ""
  · refine ⟨hs.bought_elsewhere hp hother, ?_⟩
    simp only [Chains.bought]
    split
    · rename_i hup
      rw [Function.update_of_ne (hother.resolve_right hup.1).symm]
      exact hbase
    · exact hbase
  · obtain ⟨hnone, hne, htrim, hblank⟩ := hcareful.resolve_left hother
    push Not at hother
    obtain ⟨rfl, hup⟩ := hother
    have hg := hs.inBase hnone
    rw [hg] at htrim hblank
    refine ⟨hs.upgraded hp hnow hup hnone hne htrim hblank, ?_⟩
    simp only [Chains.bought]
    split
    · rw [Function.update_self]
      exact hg
    · exact hbase

theorem not_any_activeUpgrade (h : (!db.subs.rows.any (activeUpgrade userId)) = true) :
    ∀ m ∈ db.subs.rows, activeUpgrade userId m = false := by
  intro m hm
  simp only [not_eq_true', any_eq_false] at h
  simpa using h m hm

theorem careful_removal {now id : Int} {fault : Faults GroupStmt}
    (h : (decide (fault .findActive = none) &&
      db.subs.rows.all fun m => !activeUpgrade userId m || decide (m.id = id ∨ now < m.endTime)) = true) :
    fault .findActive = none ∧ NoneOverdue userId now db id := by
  simp only [and_eq_true, decide_eq_true_eq, all_eq_true, or_eq_true, not_eq_true'] at h
  refine ⟨h.1, fun x hx ha hne => ?_⟩
  rcases h.2 x hx with h1 | h1 | h1
  · rw [ha] at h1; cases h1
  · exact absurd h1 hne
  · exact h1

theorem SteadyChain.step (h : SteadyChain userId g s) {a : GroupAct}
    (hok : careful userId s a = true) : SteadyChain userId g (s.step a) := by
  cases a with
  | tick seconds => exact ⟨h.1.tick seconds, h.2⟩
  | purchase buyer plan source cal newId fault commit =>
    simp only [Chains.step]
    split
    · rename_i db' sub ht
      have hp := createUserSubscriptionFromPlanTx_ok (transaction_ok ht).1
      refine h.bought rfl hp ?_
      simp only [careful, or_eq_true, and_eq_true, decide_eq_true_eq] at hok
      exact hok.imp id fun h1 => ⟨not_any_activeUpgrade h1.1, h1.2⟩
    · rename_i db' e ht
      rw [transaction_error ht]
      exact h
  | sweep limit order readFault fault => exact ⟨h.1.sweep (of_decide_eq_true hok) readFault limit order, h.2⟩
  | invalidate id fault =>
    obtain ⟨hf, hover⟩ := careful_removal hok
    exact ⟨h.1.invalidate hover hf, h.2⟩
  | delete id fault =>
    obtain ⟨hf, hover⟩ := careful_removal hok
    exact ⟨h.1.delete hover hf, h.2⟩

theorem SteadyChain.start {now : Int} (hnow : 0 ≤ now) (huser : (db.group userId).isSome = true)
    (hfresh : ∀ m ∈ db.subs.rows, m.userId = userId → m.upgradeGroup = "") :
    SteadyChain userId (db.groupOf userId) (Chains.start db now) := by
  have hnone : ∀ m ∈ db.subs.rows, activeUpgrade userId m = false := by
    intro m hm
    by_contra hne
    obtain ⟨hu, _, hup⟩ := activeUpgrade_iff.mp (not_eq_false _ ▸ hne)
    exact hup (hfresh m hm hu)
  have hact : ∀ m ∈ db.subs.rows, activeUpgrade userId m ≠ true := fun m hm => by simp [hnone m hm]
  refine ⟨⟨hnow, huser, fun m hm hu hup => absurd (hfresh m hm hu) hup, fun m hm _ _ ha => absurd ha (hact m hm),
    fun m hm ha => absurd ha (hact m hm), fun _ => rfl, fun m hm ha => absurd ha (hact m hm), fun m hm he => ?_⟩, rfl⟩
  obtain ⟨hu, _, hup⟩ := expiredUpgrade_iff.mp he
  exact absurd (hfresh m hm hu) hup

end CarefulRuns

/-! ## Overlap -/

end NewApi.Subscription
