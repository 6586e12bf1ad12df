import NewApi.Lib.Table

/-!
# Asynchronous tasks

The shared `tasks` table (`model/task.go`, `model/image_task_dispatch.go`): one row per submitted
job, rewritten by pollers, the timeout sweeper and image workers. Every write is one SQL
statement, modelled as a `Table.Update` whose `hits` is the statement's `WHERE` clause.

* `claimImageAsyncTask`, `renewImageAsyncTaskLease`, `releaseImageAsyncTaskLease` — lease columns.
-/

namespace NewApi

open List

/-- `TaskStatus`; upstreams may report any other text. -/
inductive TaskStatus where
  | notStart
  | submitted
  | queued
  | inProgress
  | failure
  | success
  | unknown
  | other (text : String)
  deriving DecidableEq, Repr

/-- `SUCCESS` and `FAILURE`. -/
def TaskStatus.terminal : TaskStatus → Bool
  | .success | .failure => true
  | _ => false

/-- `constant.TaskPlatform`: video platforms carry the channel type as their name. -/
inductive TaskPlatform where
  | suno
  | midjourney
  | image
  | other (name : String)
  deriving DecidableEq, Repr

/-- `PrivateData.BillingSource`; rows written before it existed have none. -/
inductive TaskBillingSource where
  | unrecorded
  | wallet
  | subscription
  deriving DecidableEq, Repr

def taskKindImage : String := "image"

structure Task where
  id : Int
  updatedAt : Int
  taskId : String
  platform : TaskPlatform
  userId : Int
  channelId : Int
  quota : Int
  action : String
  status : TaskStatus
  failReason : String
  submitTime : Int
  startTime : Int
  finishTime : Int
  progress : String
  leaseOwner : String
  leaseExpiresAt : Int
  attempt : Int
  -- Properties
  taskKind : String
  -- PrivateData
  upstreamTaskId : String
  resultUrl : String
  billingSource : TaskBillingSource
  subscriptionId : Int
  tokenId : Int
  perCallBilling : Bool
  data : String
  deriving DecidableEq, Repr

abbrev TaskTable := Table Int Task Task.id

abbrev TaskUpdate := Table.Update Task.id

/-- `GetUpstreamTaskID`: old rows have no upstream id, there the task id is the upstream's. -/
def Task.getUpstreamTaskID (t : Task) : String :=
  if t.upstreamTaskId ≠ "" then t.upstreamTaskId else t.taskId

/-- `taskSnapshot`: the fields whose change makes a progress write necessary. -/
structure TaskSnapshot where
  status : TaskStatus
  progress : String
  startTime : Int
  finishTime : Int
  failReason : String
  resultUrl : String
  data : String
  deriving DecidableEq

def Task.snapshot (t : Task) : TaskSnapshot where
  status := t.status
  progress := t.progress
  startTime := t.startTime
  finishTime := t.finishTime
  failReason := t.failReason
  resultUrl := t.resultUrl
  data := t.data

/-! ## Queries -/

/-- The filter shared by the polling and the timeout query. -/
def Task.unfinished (t : Task) : Bool :=
  t.progress != "100%" && t.status != .failure && t.status != .success

/-- `GetAllUnFinishSyncTasks`: unfinished rows in id order. -/
def getAllUnFinishSyncTasks (rows : TaskTable) (limit : Nat) : List Task :=
  ((rows.rows.filter Task.unfinished).insertionSort (fun a b => a.id ≤ b.id)).take limit

/-- `GetTimedOutUnfinishedTasks`: unfinished rows submitted before the cutoff, oldest first. -/
def getTimedOutUnfinishedTasks (rows : TaskTable) (cutoffUnix : Int) (limit : Nat) : List Task :=
  ((rows.rows.filter (fun t => t.unfinished && decide (t.submitTime < cutoffUnix))).insertionSort
    (fun a b => a.submitTime ≤ b.submitTime)).take limit

/-! ## Writes -/

/-- `Task.Update`: `DB.Save`, all columns, no condition but the primary key. -/
def Task.update (t : Task) (now : Int) : TaskUpdate where
  hits r := decide (r.id = t.id)
  set _ := { t with updatedAt := now }
  keeps _ h := (of_decide_eq_true h).symm

/-- `Task.UpdateWithStatus`: all columns, guarded by the status the caller last saw. -/
def Task.updateWithStatus (t : Task) (fromStatus : TaskStatus) (now : Int) : TaskUpdate where
  hits r := decide (r.id = t.id ∧ r.status = fromStatus)
  set _ := { t with updatedAt := now }
  keeps _ h := (of_decide_eq_true h).1.symm

/-- `Task.UpdateQuota`: the quota column only. -/
def Task.updateQuota (t : Task) (quota now : Int) : TaskUpdate where
  hits r := decide (r.id = t.id)
  set r := { r with quota := quota, updatedAt := now }
  keeps _ _ := rfl

/-- `TaskBulkUpdateByID` with the values its callers pass: failed and finished, and a reason where
the channel could not be read. -/
def taskBulkUpdateByID (ids : List Int) (failReason : Option String) (now : Int) : TaskUpdate where
  hits r := decide (r.id ∈ ids)
  set r := { r with
    status := .failure
    progress := "100%"
    failReason := failReason.getD r.failReason
    updatedAt := now }
  keeps _ _ := rfl

/-- `UpdateImageTaskWithLease`: all columns, while the row is in progress under this lease. -/
def updateImageTaskWithLease (t : Task) (owner : String) (now : Int) : TaskUpdate where
  hits r := decide (owner ≠ "" ∧ r.id = t.id ∧ r.status = .inProgress ∧ r.leaseOwner = owner)
  set _ := { t with updatedAt := now }
  keeps _ h := (of_decide_eq_true h).2.1.symm

/-- The channel lane of a dispatcher (`filterImageTaskChannels`). -/
def inImageLane (channelIds : List Int) (included : Bool) (t : Task) : Bool :=
  if channelIds.isEmpty then !included
  else if included then decide (t.channelId ∈ channelIds)
  else decide (t.channelId ∉ channelIds)

/-- Rows `ClaimImageAsyncTaskForChannels` may take: waiting ones, and those in progress whose
lease ran out or that never had one and stood still for ten minutes. -/
def Task.claimable (t : Task) (now : Int) : Bool :=
  decide (t.status = .submitted ∨ t.status = .queued ∨ t.status = .inProgress ∧
      (t.leaseOwner ≠ "" ∧ t.leaseExpiresAt < now ∨ t.leaseOwner = "" ∧ t.updatedAt < now - 600))

/-- The `UPDATE` of `ClaimImageAsyncTaskForChannels`. -/
def claimImageAsyncTask (taskId owner : String) (leaseDuration now : Int) (channelIds : List Int)
    (included : Bool) : TaskUpdate where
  hits r := decide (taskId ≠ "" ∧ owner ≠ "" ∧ 0 < leaseDuration ∧ r.taskId = taskId ∧
    r.platform = .image) && inImageLane channelIds included r && r.claimable now
  set r := { r with
    status := .inProgress
    progress := "30%"
    startTime := if r.startTime = 0 then now else r.startTime
    leaseOwner := owner
    leaseExpiresAt := now + leaseDuration
    attempt := r.attempt + 1
    updatedAt := now }
  keeps _ _ := rfl

/-- The read after a claim: the first row with this task id and lease. -/
def getImageTaskByLease (rows : TaskTable) (taskId owner : String) : Option Task :=
  ((rows.rows.filter (fun r => decide (r.taskId = taskId ∧ r.leaseOwner = owner))).insertionSort
    (fun a b => a.id ≤ b.id)).head?

def renewImageAsyncTaskLease (taskId owner : String) (leaseDuration now : Int) : TaskUpdate where
  hits r := decide (taskId ≠ "" ∧ owner ≠ "" ∧ 0 < leaseDuration ∧ r.taskId = taskId ∧
    r.status = .inProgress ∧ r.leaseOwner = owner)
  set r := { r with leaseExpiresAt := now + leaseDuration, updatedAt := now }
  keeps _ _ := rfl

def releaseImageAsyncTaskLease (taskId owner : String) (now : Int) : TaskUpdate where
  hits r := decide (taskId ≠ "" ∧ owner ≠ "" ∧ r.taskId = taskId ∧ r.leaseOwner = owner)
  set r := { r with leaseOwner := "", leaseExpiresAt := 0, updatedAt := now }
  keeps _ _ := rfl

/-! ## What the queries return -/

theorem mem_getAllUnFinishSyncTasks {rows : TaskTable} {limit : Nat} {t : Task}
    (h : t ∈ getAllUnFinishSyncTasks rows limit) : t ∈ rows.rows ∧ t.unfinished = true := by
  have h1 := (mem_insertionSort _).mp (mem_of_mem_take h)
  exact mem_filter.mp h1

theorem mem_getTimedOutUnfinishedTasks {rows : TaskTable} {cutoff : Int} {limit : Nat} {t : Task}
    (h : t ∈ getTimedOutUnfinishedTasks rows cutoff limit) :
    t ∈ rows.rows ∧ t.unfinished = true ∧ t.submitTime < cutoff := by
  have h1 := (mem_insertionSort _).mp (mem_of_mem_take h)
  simpa using mem_filter.mp h1

theorem nodup_getAllUnFinishSyncTasks (rows : TaskTable) (limit : Nat) :
    ((getAllUnFinishSyncTasks rows limit).map Task.id).Nodup := by
  have h1 : ((rows.rows.filter Task.unfinished).map Task.id).Nodup :=
    rows.nodup.sublist (List.Sublist.map _ filter_sublist)
  have h2 := ((perm_insertionSort (fun a b : Task => a.id ≤ b.id)
    (rows.rows.filter Task.unfinished)).map Task.id).nodup_iff.mpr h1
  exact h2.sublist (List.Sublist.map _ (take_sublist _ _))

theorem unfinished_not_terminal {t : Task} (h : t.unfinished = true) :
    t.status.terminal = false := by
  revert h
  unfold Task.unfinished TaskStatus.terminal
  cases t.status <;> simp

def sampleTask (id channelId : Int) (upstreamTaskId : String) : Task where
  id := id
  updatedAt := 0
  taskId := "task_" ++ upstreamTaskId
  platform := .other "55"
  userId := 1
  channelId := channelId
  quota := 100
  action := "generate"
  status := .inProgress
  failReason := ""
  submitTime := 1800000000
  startTime := 1800000001
  finishTime := 0
  progress := "30%"
  leaseOwner := ""
  leaseExpiresAt := 0
  attempt := 0
  taskKind := ""
  upstreamTaskId := upstreamTaskId
  resultUrl := ""
  billingSource := .wallet
  subscriptionId := 0
  tokenId := 0
  perCallBilling := false
  data := ""

end NewApi
