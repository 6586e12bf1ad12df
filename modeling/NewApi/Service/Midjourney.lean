import NewApi.Lib.Run
import NewApi.Lib.Table

/-!
# Midjourney pollers (`UpdateMidjourneyTaskBulk` in `controller/midjourney.go`)

A poller reads the unfinished tasks, asks the upstream of each channel about its tasks, and writes
what it is told about them. Several pollers may share the table. One action is at most one statement
on it; what a poller does between two statements happens on the copies in its memory.

* `updateWithStatus`, `mjBulkUpdate`, `mjBulkUpdateByTaskIds` — the three statements.
* `MjRun.statement`, `MjRun.advance`, `MjRun.due?` — the statement of an action, what it changes in
  the poller's memory, and the refund it leads to; `MjRun.step` puts them together.
-/

namespace NewApi.Midjourneys

/-! ## Rows and items -/

structure Midjourney where
  id : Int
  code : Int
  userId : Int
  mjId : String
  promptEn : String
  state : String
  submitTime : Int
  startTime : Int
  finishTime : Int
  imageUrl : String
  videoUrl : String
  videoUrls : String
  status : String
  progress : String
  failReason : String
  channelId : Int
  quota : Int
  buttons : String
  properties : String
  deriving DecidableEq, Repr

abbrev MjTable := Table Int Midjourney Midjourney.id

abbrev MjUpdate := Table.Update Midjourney.id

/-- The objects of an item are given as the text that `json.Marshal` makes of them; `none` for the
video URLs is an empty list too. -/
structure MidjourneyDto where
  mjId : String
  promptEn : String
  state : String
  submitTime : Int
  startTime : Int
  finishTime : Int
  imageUrl : String
  videoUrl : String
  videoUrls : Option String
  status : String
  progress : String
  failReason : String
  buttons : Option String
  properties : Option String
  deriving DecidableEq, Repr

/-- The comparisons in their order; the finish time is compared twice. -/
def checkMjTaskNeedUpdate (oldTask : Midjourney) (newTask : MidjourneyDto) : Bool :=
  decide (oldTask.code ≠ 1) || decide (oldTask.progress ≠ newTask.progress) ||
  decide (oldTask.promptEn ≠ newTask.promptEn) || decide (oldTask.state ≠ newTask.state) ||
  decide (oldTask.submitTime ≠ newTask.submitTime) || decide (oldTask.startTime ≠ newTask.startTime) ||
  decide (oldTask.finishTime ≠ newTask.finishTime) || decide (oldTask.imageUrl ≠ newTask.imageUrl) ||
  decide (oldTask.status ≠ newTask.status) || decide (oldTask.failReason ≠ newTask.failReason) ||
  decide (oldTask.finishTime ≠ newTask.finishTime) ||
  decide (oldTask.progress ≠ "100%" ∧ newTask.failReason ≠ "") || decide (oldTask.videoUrl ≠ newTask.videoUrl) ||
  decide (oldTask.videoUrls ≠ newTask.videoUrls.getD "")

/-- An unfinished task is given up after an hour, whatever the item says. -/
def withTimeout (now : Int) (task : Midjourney) (item : MidjourneyDto) : MidjourneyDto :=
  if now - task.submitTime > 3600000 ∧ task.progress ≠ "100%" then
    { item with failReason := "上游任务超时（超过1小时）", status := "FAILURE" }
  else item

@[simp] theorem withTimeout_mjId (now : Int) (task : Midjourney) (item : MidjourneyDto) :
    (withTimeout now task item).mjId = item.mjId := by
  unfold withTimeout
  split <;> rfl

/-- The branch in which the quota is to be returned. -/
def MidjourneyDto.failed (item : MidjourneyDto) : Bool :=
  decide (item.progress ≠ "100%" ∧ item.failReason ≠ "") || decide (item.progress = "100%" ∧ item.status = "FAILURE")

/-- The copy after an item. -/
def Midjourney.report (task : Midjourney) (item : MidjourneyDto) : Midjourney :=
  { task with
    code := 1
    progress := if item.failed then "100%" else item.progress
    promptEn := item.promptEn
    state := item.state
    submitTime := item.submitTime
    startTime := item.startTime
    finishTime := item.finishTime
    imageUrl := item.imageUrl
    status := item.status
    failReason := item.failReason
    properties := item.properties.getD task.properties
    buttons := item.buttons.getD task.buttons
    videoUrl := item.videoUrl
    videoUrls := item.videoUrls.getD "" }

/-! ## Statements -/

/-- The conditional `UPDATE` of a whole row. -/
def updateWithStatus (midjourney : Midjourney) (fromStatus : String) : MjUpdate where
  hits r := decide (r.id = midjourney.id ∧ r.status = fromStatus)
  set _ := midjourney
  keeps _ h := (of_decide_eq_true h).1.symm

/-- The bulk update of the tasks of a channel that cannot be found, by their upstream ids. -/
def mjBulkUpdate (mjIds : List String) (channelId : Int) : MjUpdate where
  hits r := decide (r.mjId ∈ mjIds)
  set r := { r with
    failReason := "获取渠道信息失败，请联系管理员，渠道ID：" ++ toString channelId
    status := "FAILURE"
    progress := "100%" }
  keeps _ _ := rfl

def mjBulkUpdateByTaskIds (taskIds : List Int) : MjUpdate where
  hits r := decide (r.id ∈ taskIds)
  set r := { r with status := "FAILURE", progress := "100%" }
  keeps _ _ := rfl

/-! ## Pollers -/

/-- What a round has read and still has to do. -/
structure Poller where
  nullTaskIds : List Int
  taskM : String → Option Midjourney
  /-- The keys of `taskChannelM` that are still to be visited, in any order. -/
  channels : List Int
  taskChannelM : Int → List String
  /-- The answer that is being worked through, with the channel it is from. -/
  answer : Int × List MidjourneyDto
  /-- The poller has dereferenced a nil pointer. -/
  crashed : Bool

def Poller.idle : Poller := ⟨[], fun _ => none, [], fun _ => [], (0, []), false⟩

/-- The body of the first loop. -/
def Poller.collect (p : Poller) (task : Midjourney) : Poller :=
  if task.mjId = "" then { p with nullTaskIds := p.nullTaskIds ++ [task.id] }
  else
    { p with
      taskM := Function.update p.taskM task.mjId (some task)
      channels := if task.channelId ∈ p.channels then p.channels else p.channels ++ [task.channelId]
      taskChannelM := Function.update p.taskChannelM task.channelId (p.taskChannelM task.channelId ++ [task.mjId]) }

/-- A round over the rows of `GetAllUnFinishTasks`. -/
def Poller.plan (tasks : List Midjourney) : Poller := tasks.foldl Poller.collect .idle

/-- `CacheGetChannel` and what follows it. -/
inductive Lookup where
  | missing (fault : Bool)
  /-- The channel, by its `BaseURL`, and the items of its answer; `none` where the request or the answer fails. -/
  | found (baseURL : Option String) (answer : Option (List MidjourneyDto))
  deriving DecidableEq, Repr

/-- A poller after its look at a channel. -/
def Poller.visited (x : Poller) (channelId : Int) : Lookup → Poller
  | .missing _ => { x with channels := x.channels.erase channelId }
  | .found none _ => { x with crashed := true }
  | .found (some _) none => { x with channels := x.channels.erase channelId }
  | .found (some _) (some items) => { x with channels := x.channels.erase channelId, answer := (channelId, items) }

/-- A poller after the next item of its answer; an id that is not in `taskM` gives a nil pointer. -/
def Poller.itemDone (x : Poller) (now : Int) : Poller :=
  match x.answer.2 with
  | [] => x
  | item :: rest =>
    let x := { x with answer := (x.answer.1, rest) }
    match x.taskM item.mjId with
    | none => { x with crashed := true }
    | some task =>
      let item := withTimeout now task item
      if checkMjTaskNeedUpdate task item then
        { x with taskM := Function.update x.taskM item.mjId (some (task.report item)) }
      else x

/-- `IncreaseUserQuota` for a task. -/
structure Refund where
  taskId : Int
  userId : Int
  quota : Int
  deriving DecidableEq, Repr

/-- Why a statement is made. -/
inductive Cause where
  | nullTask
  | missingChannel (channelId : Int)
  | answered (channelId : Int) (mjId : String)
  deriving DecidableEq, Repr

/-- A row that a statement has hit, as it was before. -/
structure Write where
  cause : Cause
  row : Midjourney
  deriving DecidableEq, Repr

structure MjRun where
  tasks : MjTable
  poller : Nat → Poller
  /-- The refunds that a poller has to do next. -/
  refunds : List (Nat × Refund)
  credited : List Refund
  writes : List Write

def MjRun.start (tasks : MjTable) : MjRun := ⟨tasks, fun _ => .idle, [], [], []⟩

/-- `fault` is a failing statement. -/
inductive MjAct where
  /-- The start of a round; what an earlier round has left is given up. -/
  | read (p : Nat) (fault : Bool)
  | fixNull (p : Nat) (fault : Bool)
  | visit (p : Nat) (channelId : Int) (lookup : Lookup)
  /-- The next item of the answer, at a time in milliseconds. -/
  | item (p : Nat) (now : Int) (fault : Bool)
  | refund (p : Nat) (fault : Bool)
  deriving DecidableEq, Repr

namespace MjRun

/-- A poller runs, and has no refund to do first. -/
def ready (s : MjRun) (p : Nat) : Bool :=
  !(s.poller p).crashed && s.refunds.all fun r => decide (r.1 ≠ p)

/-- A poller is at a channel of its round. -/
def visiting (s : MjRun) (p : Nat) (channelId : Int) : Bool :=
  s.ready p && (s.poller p).nullTaskIds.isEmpty && (s.poller p).answer.2.isEmpty &&
    decide (channelId ∈ (s.poller p).channels)

/-- The next item of a poller, and the copy it stands for. -/
def next? (s : MjRun) (p : Nat) : Option (MidjourneyDto × Option Midjourney) :=
  if s.ready p then (s.poller p).answer.2.head?.map fun item => (item, (s.poller p).taskM item.mjId) else none

/-- The copy and the item of a report that needs an update. -/
def report? (s : MjRun) (p : Nat) (now : Int) : Option (Midjourney × MidjourneyDto) :=
  match s.next? p with
  | some (item, some task) =>
    let item := withTimeout now task item
    if checkMjTaskNeedUpdate task item then some (task, item) else none
  | _ => none

/-- The row of a copy still has the status of the copy. -/
def current (s : MjRun) (task : Midjourney) : Bool :=
  match s.tasks.get task.id with
  | some row => decide (row.status = task.status)
  | none => false

def statement (s : MjRun) : MjAct → Option (Cause × MjUpdate)
  | .fixNull p false =>
    if s.ready p && !(s.poller p).nullTaskIds.isEmpty then
      some (.nullTask, mjBulkUpdateByTaskIds (s.poller p).nullTaskIds)
    else none
  | .visit p channelId (.missing false) =>
    if s.visiting p channelId then
      some (.missingChannel channelId, mjBulkUpdate ((s.poller p).taskChannelM channelId) channelId)
    else none
  | .item p now false =>
    (s.report? p now).map fun (task, item) =>
      (.answered (s.poller p).answer.1 item.mjId, updateWithStatus (task.report item) task.status)
  | _ => none

/-- The refund of a report whose statement affects the row. -/
def due? (s : MjRun) : MjAct → Option (Nat × Refund)
  | .item p now false =>
    match s.report? p now with
    | some (task, item) =>
      if item.failed && decide (task.quota ≠ 0) && s.tasks.affected (updateWithStatus (task.report item) task.status)
      then some (p, ⟨task.id, task.userId, task.quota⟩) else none
    | none => none
  | _ => none

def setPoller (s : MjRun) (p : Nat) (x : Poller) : MjRun :=
  { s with poller := Function.update s.poller p x }

/-- What an action changes in the memory of its poller. -/
def advance (s : MjRun) : MjAct → MjRun
  | .read p fault =>
    if s.ready p then
      -- on an error `GetAllUnFinishTasks` returns no tasks
      s.setPoller p (.plan (if fault then [] else s.tasks.rows.filter fun t => decide (t.progress ≠ "100%")))
    else s
  | .fixNull p _ => if s.ready p then s.setPoller p { s.poller p with nullTaskIds := [] } else s
  | .visit p channelId lookup =>
    if s.visiting p channelId then s.setPoller p ((s.poller p).visited channelId lookup) else s
  | .item p now _ => if s.ready p then s.setPoller p ((s.poller p).itemDone now) else s
  | .refund p fault =>
    match s.refunds.find? fun r => decide (r.1 = p) with
    | none => s
    | some (_, r) =>
      { s with
        refunds := s.refunds.eraseP fun r => decide (r.1 = p)
        -- `IncreaseUserQuota` refuses a negative quota, and its error is only logged
        credited := if fault || decide (r.quota < 0) then s.credited else s.credited ++ [r] }

/-- One `UPDATE`, with the rows it hits. -/
def exec (s : MjRun) (cause : Cause) (u : MjUpdate) : MjRun :=
  { s with
    tasks := s.tasks.exec u
    writes := s.writes ++ (s.tasks.rows.filter u.hits).map (⟨cause, ·⟩) }

def step (s : MjRun) (a : MjAct) : MjRun :=
  let s' := s.advance a
  match s.statement a with
  | none => s'
  | some (cause, u) =>
    let s' := s'.exec cause u
    { s' with refunds := s'.refunds ++ (s.due? a).toList }

def run (s : MjRun) (acts : List MjAct) : MjRun := acts.foldl step s

/-! ## Single steps -/

variable {s : MjRun} {a : MjAct}

theorem affected_eq_current (s : MjRun) (task : Midjourney) (item : MidjourneyDto) :
    s.tasks.affected (updateWithStatus (task.report item) task.status) = s.current task := by
  rw [Bool.eq_iff_iff, Table.affected_iff (k := task.id) fun r hr => (of_decide_eq_true hr).1]
  cases hget : s.tasks.get task.id with
  | none => simp [current, hget]
  | some row =>
    have hid : row.id = task.id := Table.key_of_get hget
    have hid' : (task.report item).id = task.id := rfl
    simp [current, hget, updateWithStatus, hid, hid']

theorem advance_tasks (s : MjRun) (a : MjAct) : (s.advance a).tasks = s.tasks := by
  cases a <;> simp only [advance] <;> split <;> rfl

theorem advance_writes (s : MjRun) (a : MjAct) : (s.advance a).writes = s.writes := by
  cases a <;> simp only [advance] <;> split <;> rfl

theorem step_of_none (h : s.statement a = none) : s.step a = s.advance a := by
  simp only [step, h]

theorem step_of_some {cause : Cause} {u : MjUpdate} (h : s.statement a = some (cause, u)) :
    s.step a = { (s.advance a).exec cause u with refunds := (s.advance a).refunds ++ (s.due? a).toList } := by
  simp only [step, h]
  rfl

theorem step_tasks (s : MjRun) (a : MjAct) :
    (s.step a).tasks = ((s.statement a).map fun x => s.tasks.exec x.2).getD s.tasks := by
  cases h : s.statement a with
  | none => rw [step_of_none h, advance_tasks]; rfl
  | some x => rw [step_of_some h, Option.map_some, Option.getD_some, ← advance_tasks s a]; rfl

theorem step_writes (s : MjRun) (a : MjAct) : (s.step a).writes =
      s.writes ++ ((s.statement a).map fun x => (s.tasks.rows.filter x.2.hits).map (Write.mk x.1)).getD [] := by
  cases h : s.statement a with
  | none => rw [step_of_none h, advance_writes, Option.map_none, Option.getD_none, List.append_nil]
  | some x =>
    rw [step_of_some h, Option.map_some, Option.getD_some]
    show (s.advance a).writes ++ ((s.advance a).tasks.rows.filter x.2.hits).map (Write.mk x.1) = _
    rw [advance_writes, advance_tasks]

theorem step_poller (s : MjRun) (a : MjAct) : (s.step a).poller = (s.advance a).poller := by
  cases h : s.statement a with
  | none => rw [step_of_none h]
  | some x => rw [step_of_some h]; rfl

end MjRun

end NewApi.Midjourneys
