import NewApi.Model.Subscription

/-!
# Buying a subscription (`CreateUserSubscriptionFromPlanTx` in `model/subscription.go`)

A purchase stores a subscription and moves the user into the plan's group. The subscription
remembers the group it found, unless the user was in the plan's group already.

* `PurchasePlan`, `Membership` — plan and subscription with the columns that a purchase uses.
* `calcPlanEndTime`, `checkPurchaseLimit`, `upgradeUserGroup` — the parts of a purchase.
* `Purchased`, `createUserSubscriptionFromPlanTx_ok` — everything a purchase changes.
-/

namespace NewApi.Subscription

open NewApi.Text

inductive DurationUnit where
  | year
  | month
  | day
  | hour
  | custom
  | other (text : String)
  deriving DecidableEq, Repr

structure PurchasePlan extends SubscriptionPlan where
  durationUnit : DurationUnit
  durationValue : Int
  customSeconds : Int
  /-- `0` means unlimited. -/
  maxPurchasePerUser : Int
  upgradeGroup : String
  totalAmount : Int
  deriving DecidableEq, Repr

/-- A subscription with the group it leads into and the group it was bought in. -/
structure Membership extends UserSubscription where
  source : String
  upgradeGroup : String
  prevUserGroup : String
  deriving DecidableEq, Repr

abbrev MembershipTable := Table Int Membership (fun m => m.id)

structure GroupDB where
  subs : MembershipTable
  /-- The `group` column of a user, by user id. -/
  group : Int → Option String

/-- The row of a user who is not there reads as an empty group. -/
def GroupDB.groupOf (db : GroupDB) (userId : Int) : String := (db.group userId).getD ""

/-- `UPDATE users SET group = ? WHERE id = ?`. -/
def GroupDB.setGroup (db : GroupDB) (userId : Int) (g : String) : GroupDB :=
  { db with group := fun id => if id = userId then (db.group id).map fun _ => g else db.group id }

/-- What a purchase needs to know about the outside. -/
structure PurchaseCalendar where
  cal : Calendar
  /-- `time.AddDate` with years and months. -/
  addDate : Int → Int → Int → Int
  lt_addDate : ∀ t years months, 0 ≤ years → 0 ≤ months → 0 < years + months → t < addDate t years months

inductive PurchaseStmt where
  | count
  | readGroup
  | writeGroup
  | create
  deriving DecidableEq, Repr

structure PurchaseEnv where
  cal : PurchaseCalendar
  /-- `GetDBTimestamp`. -/
  now : Int
  /-- The id that the database gives the new row. -/
  newId : Int
  fault : Faults PurchaseStmt

def calcPlanEndTime (cal : PurchaseCalendar) (start : Int) (plan : PurchasePlan) :
    Except String Int :=
  if plan.durationValue ≤ 0 ∧ plan.durationUnit ≠ .custom then .error "duration_value must be > 0"
  else
    match plan.durationUnit with
    | .year => .ok (cal.addDate start plan.durationValue 0)
    | .month => .ok (cal.addDate start 0 plan.durationValue)
    | .day => .ok (start + plan.durationValue * 86400)
    | .hour => .ok (start + plan.durationValue * 3600)
    | .custom =>
      if plan.customSeconds ≤ 0 then .error "custom_seconds must be > 0" else .ok (start + plan.customSeconds)
    | .other text => .error ("invalid duration_unit: " ++ text)

/-- The `MaxPurchasePerUser` check. -/
def checkPurchaseLimit (fault : Faults PurchaseStmt) (db : GroupDB) (userId : Int)
    (plan : PurchasePlan) : Except String Unit :=
  if 0 < plan.maxPurchasePerUser then
    match fault .count with
    | some e => .error e
    | none =>
      if plan.maxPurchasePerUser ≤ db.subs.count fun m => decide (m.userId = userId ∧ m.planId = plan.id) then
        .error "已达到该套餐购买上限"
      else .ok ()
  else .ok ()

def getUserGroupByIdTx (fault : Option String) (db : GroupDB) (userId : Int) :
    Except String String :=
  if userId ≤ 0 then .error "invalid userId"
  else
    match fault with
    | some e => .error e
    | none => .ok (db.groupOf userId)

/-- Move the user into the plan's group; the answer is the group to go back to. -/
def upgradeUserGroup (fault : Faults PurchaseStmt) (db : GroupDB) (userId : Int)
    (upgradeGroup : String) : Except String (GroupDB × String) :=
  if upgradeGroup = "" then .ok (db, "")
  else
    match getUserGroupByIdTx (fault .readGroup) db userId with
    | .error e => .error e
    | .ok currentGroup =>
      if currentGroup ≠ upgradeGroup then
        match fault .writeGroup with
        | some e => .error e
        | none => .ok (db.setGroup userId upgradeGroup, currentGroup)
      else .ok (db, "")

/-- The row a purchase stores. -/
def newMembership (e : PurchaseEnv) (userId : Int) (plan : PurchasePlan) (source : String)
    (endUnix : Int) (prevGroup : String) : Membership :=
  let nextReset := calcNextResetTime e.cal.cal e.now plan.toSubscriptionPlan endUnix
  { id := e.newId
    userId := userId
    planId := plan.id
    amountTotal := plan.totalAmount
    amountUsed := 0
    startTime := e.now
    endTime := endUnix
    status := .active
    lastResetTime := if 0 < nextReset then e.now else 0
    nextResetTime := nextReset
    source := source
    upgradeGroup := trimSpace plan.upgradeGroup
    prevUserGroup := prevGroup }

def createUserSubscriptionFromPlanTx (e : PurchaseEnv) (db : GroupDB) (userId : Int)
    (plan : PurchasePlan) (source : String) : Except String (GroupDB × Membership) :=
  if plan.id = 0 then .error "invalid plan"
  else if userId ≤ 0 then .error "invalid user id"
  else
    match checkPurchaseLimit e.fault db userId plan with
    | .error err => .error err
    | .ok () =>
      match calcPlanEndTime e.cal e.now plan with
      | .error err => .error err
      | .ok endUnix =>
        match upgradeUserGroup e.fault db userId (trimSpace plan.upgradeGroup) with
        | .error err => .error err
        | .ok (db, prevGroup) =>
          let sub := newMembership e userId plan source endUnix prevGroup
          match e.fault .create, db.subs.insert sub with
          | some err, _ => .error err
          | none, none => .error "duplicated key not allowed"
          | none, some subs => .ok ({ db with subs := subs }, sub)

/-! ## What a purchase changes -/

section Purchase

variable {e : PurchaseEnv} {db db' : GroupDB} {userId : Int} {plan : PurchasePlan} {source : String}

theorem calcPlanEndTime_lt {cal : PurchaseCalendar} {start endUnix : Int}
    (h : calcPlanEndTime cal start plan = .ok endUnix) : start < endUnix := by
  unfold calcPlanEndTime at h
  split at h
  · cases h
  split at h
  · have hpos : 0 < plan.durationValue := by simp_all
    cases h
    exact cal.lt_addDate _ _ _ (by omega) (by omega) (by omega)
  · have hpos : 0 < plan.durationValue := by simp_all
    cases h
    exact cal.lt_addDate _ _ _ (by omega) (by omega) (by omega)
  · have hpos : 0 < plan.durationValue := by simp_all
    cases h
    omega
  · have hpos : 0 < plan.durationValue := by simp_all
    cases h
    omega
  · split at h
    · cases h
    · cases h
      omega
  · cases h

theorem upgradeUserGroup_ok {fault : Faults PurchaseStmt} {upgradeGroup prevGroup : String}
    (h : upgradeUserGroup fault db userId upgradeGroup = .ok (db', prevGroup)) :
    (db' = db ∧ prevGroup = "" ∧ (upgradeGroup = "" ∨ db.groupOf userId = upgradeGroup)) ∨
    (upgradeGroup ≠ "" ∧ db.groupOf userId ≠ upgradeGroup ∧ prevGroup = db.groupOf userId ∧
      db' = db.setGroup userId upgradeGroup) := by
  unfold upgradeUserGroup at h
  split at h
  · rename_i hu
    cases h
    exact .inl ⟨rfl, rfl, .inl hu⟩
  rename_i hu
  unfold getUserGroupByIdTx at h
  split at h
  · cases h
  rename_i currentGroup hread
  have hcur : currentGroup = db.groupOf userId := by
    split at hread
    · cases hread
    split at hread
    · cases hread
    · cases hread; rfl
  subst hcur
  split at h
  · rename_i hne
    split at h
    · cases h
    · cases h
      exact .inr ⟨hu, hne, rfl, rfl⟩
  · rename_i heq
    cases h
    exact .inl ⟨rfl, rfl, .inr (not_not.mp heq)⟩

/-- A purchase by `userId` has added the row `sub`, and the user is in its group if it has one. -/
structure Purchased (e : PurchaseEnv) (db db' : GroupDB) (userId : Int) (plan : PurchasePlan)
    (sub : Membership) : Prop where
  inserted : db.subs.insert sub = some db'.subs
  user : sub.userId = userId
  planId : sub.planId = plan.id
  active : sub.status = .active
  times : sub.startTime = e.now ∧ e.now < sub.endTime
  upgrade : sub.upgradeGroup = trimSpace plan.upgradeGroup
  /-- Either the group stays, or it becomes the plan's and the row remembers the old one. -/
  group : (db'.group = db.group ∧ sub.prevUserGroup = "" ∧
      (sub.upgradeGroup = "" ∨ db.groupOf userId = sub.upgradeGroup)) ∨
    (sub.upgradeGroup ≠ "" ∧ db.groupOf userId ≠ sub.upgradeGroup ∧
      sub.prevUserGroup = db.groupOf userId ∧ db'.group = (db.setGroup userId sub.upgradeGroup).group)

theorem createUserSubscriptionFromPlanTx_ok {sub : Membership}
    (h : createUserSubscriptionFromPlanTx e db userId plan source = .ok (db', sub)) :
    Purchased e db db' userId plan sub := by
  unfold createUserSubscriptionFromPlanTx at h
  split at h
  · cases h
  split at h
  · cases h
  split at h
  · cases h
  split at h
  · cases h
  rename_i endUnix hend
  split at h
  · cases h
  rename_i db₁ prevGroup hup
  simp only at h
  split at h
  · cases h
  · cases h
  rename_i subs _ hins
  cases h
  have hlt := calcPlanEndTime_lt hend
  rcases upgradeUserGroup_ok hup with ⟨rfl, rfl, hg⟩ | ⟨hne, hcur, rfl, rfl⟩
  · exact ⟨hins, rfl, rfl, rfl, ⟨rfl, hlt⟩, rfl, .inl ⟨rfl, rfl, hg⟩⟩
  · exact ⟨hins, rfl, rfl, rfl, ⟨rfl, hlt⟩, rfl, .inr ⟨hne, hcur, rfl, rfl⟩⟩

end Purchase

end NewApi.Subscription
