import NewApi.Service.TaskBilling
import NewApi.Service.TaskPolling

/-!
# Pollers, sweepers and image workers on one table

Any number of polling loops (`service/task_polling.go`), timeout sweepers and image workers
(`relay/image/worker.go`) share the `tasks` table. One action is at most one statement on it;
what a party does between two of its statements happens in its own memory, on copies that may be
stale. Go ranges over maps in any order, so a round works through its plan in any order.

* `Work`, `Poller`, `Sweeper`, `Worker` — what each party has read and still has to do.
* `World.step` — one action.
-/

namespace NewApi.Tasks

open NewApi.Billing

/-- What stays the same over a run. -/
structure Config where
  /-- `shouldKeepChargeForWhitelistUpstreamReview`, by user, action, reason and response body. -/
  keepsCharge : Int → String → String → String → Bool
  tokenKey : Int → String
  /-- `system_setting.ServerAddress`. -/
  serverAddress : String
  /-- The lease owner of a worker's dispatcher; workers of one dispatcher share it. -/
  owner : Nat → String
  leaseDuration : Int
  maxAttempts : Int

def Config.taskEnv (cfg : Config) (e : Env) : TaskEnv := ⟨e, cfg.keepsCharge, cfg.tokenKey⟩

/-- `ShouldRefundTaskOnFailure` for a task and a reason. -/
def Config.refundable (cfg : Config) (t : Task) (reason body : String) : Bool :=
  !cfg.keepsCharge t.userId t.action reason body

/-- The sweeper's `legacyTaskCutoff`. -/
def legacyTaskCutoff : Int := 1740182400

def isLegacy (t : Task) : Bool := decide (0 < t.submitTime ∧ t.submitTime < legacyTaskCutoff)

/-- The quota of a row that has just failed is owed back: it is not zero, the task is not a legacy
one, and the policy keeps the charge neither on the response body nor without it. -/
def Config.due (cfg : Config) (t : Task) (body : String) : Bool :=
  decide (t.status = .failure) && !isLegacy t && decide (t.quota ≠ 0) &&
    cfg.refundable t t.failReason body && cfg.refundable t t.failReason ""

/-! ## Parties -/

inductive Party where
  | poller (n : Nat)
  | sweeper (n : Nat)
  | worker (n : Nat)
  /-- Any other writer of the table. -/
  | other
  deriving DecidableEq, Repr

/-- The polling loop runs the sweeper and the updates. -/
def Party.isLoop : Party → Bool
  | .poller _ | .sweeper _ => true
  | _ => false

/-- One entry of a Suno answer. -/
structure SunoItem where
  taskId : String
  status : TaskStatus
  failReason : String
  submitTime : Int
  startTime : Int
  finishTime : Int
  data : String
  deriving DecidableEq, Repr

/-- What a poller's round still has to do. `taskM` gives the id of the copy an upstream id stands
for. -/
inductive Work where
  /-- `TaskBulkUpdateByID` on the tasks without an upstream id. -/
  | repair (ids : List Int)
  | channel (platform : TaskPlatform) (channelId : Int) (taskIds : List String) (taskM : List (String × Int))
  /-- `updateVideoSingleTask`; `taskM` may lack the id. -/
  | single (obj : Option Int)
  /-- One pass of the loop over a Suno answer. -/
  | item (obj : Option Int) (item : SunoItem)
  deriving DecidableEq, Repr

/-- What a party must do before anything else. -/
inductive Pending where
  /-- `RefundTaskQuota`. -/
  | refund (task : Task) (reason : String)
  /-- `settleTaskBillingOnComplete`. -/
  | settle (task : Task) (adaptorQuota : Int) (byTokens : Option Int)
  /-- `RecalculateTaskQuota` at the task's own quota. -/
  | recalculate (task : Task)
  /-- `task.Update()` of a Suno task; `returned` is what `RefundTaskQuota` gave back just before. -/
  | save (task : Task) (returned : Option Int)
  deriving DecidableEq, Repr

def Pending.task : Pending → Task
  | .refund t _ | .settle t _ _ | .recalculate t | .save t _ => t

structure Poller where
  /-- The copies of the round, by id. -/
  mem : Int → Option Task
  todo : List Work

structure Sweeper where
  todo : List Task
  minutes : Int
  now : Int

inductive Worker where
  | idle
  | claimed (taskId : String)
  /-- The claimed row is not an image task. -/
  | releasing (taskId : String)
  | working (task : Task)
  deriving DecidableEq, Repr

inductive Event where
  /-- A write by `party` moved a row from status `old` into or out of a terminal status. -/
  | moved (party : Party) (old : TaskStatus) (row : Task) (due : Bool)
  /-- A billing action of `party` was executed, giving `returned` back. -/
  | billed (party : Party) (id : Int) (returned : Option Int)
  deriving DecidableEq, Repr

def Event.id : Event → Int
  | .moved _ _ row _ => row.id
  | .billed _ id _ => id

structure World where
  rows : TaskTable
  ledger : Ledger
  poller : Nat → Poller
  sweeper : Nat → Sweeper
  worker : Nat → Worker
  pending : List (Party × Pending)
  log : List Event

/-- Nobody has read anything yet. -/
def World.start (rows : TaskTable) (ledger : Ledger) : World where
  rows := rows
  ledger := ledger
  poller := fun _ => ⟨fun _ => none, []⟩
  sweeper := fun _ => ⟨[], 0, 0⟩
  worker := fun _ => .idle
  pending := []
  log := []

/-! ## Copies in memory -/

/-- `TaskInfo`, as far as the poller reads it, with what rehosting the result gave. -/
structure VideoResult where
  status : TaskStatus
  reason : String
  url : String
  progress : String
  /-- The new URL and data of `RehostVideoTaskResult`; nothing when it failed. -/
  rehosted : Option (String × String)
  adaptorQuota : Int
  byTokens : Option Int
  deriving DecidableEq, Repr

inductive VideoAnswer where
  /-- The fetch, the read of the body or the parse failed. -/
  | failed
  | tooManyRequests (data : String)
  | result (r : VideoResult) (data body : String)
  deriving DecidableEq, Repr

def buildProxyURL (cfg : Config) (taskId : String) : String :=
  cfg.serverAddress ++ "/v1/videos/" ++ taskId ++ "/content"

/-- Result URL and data of a video that succeeded. -/
def videoResultUrl (cfg : Config) (t : Task) (r : VideoResult) : String × String :=
  if r.url.startsWith "data:" then (buildProxyURL cfg t.taskId, t.data)
  else if r.url ≠ "" then
    match r.rehosted with
    | none => (r.url, t.data)
    | some (url, data) => (url, if data ≠ "" then data else t.data)
  else (buildProxyURL cfg t.taskId, t.data)

/-- The `switch` of `updateVideoSingleTask` on its copy: the copy afterwards, or, for a status it
does not know, the copy it leaves behind with the error. -/
def applyVideoResult (cfg : Config) (now : Int) (task : Task) (r : VideoResult) (data : String) :
    Except Task Task :=
  let t := { task with data := data, status := r.status }
  let progress := fun (p : String) => if r.progress ≠ "" then r.progress else p
  match r.status with
  | .submitted => .ok { t with progress := progress "10%" }
  | .queued => .ok { t with progress := progress "20%" }
  | .inProgress =>
    .ok { t with
      progress := progress "30%"
      startTime := if t.startTime = 0 then now else t.startTime }
  | .success =>
    let (url, data) := videoResultUrl cfg t r
    .ok { t with
      progress := progress "100%"
      finishTime := if t.finishTime = 0 then now else t.finishTime
      resultUrl := url
      data := data }
  | .failure =>
    .ok { t with
      progress := "100%"
      finishTime := if t.finishTime = 0 then now else t.finishTime
      failReason := r.reason }
  | _ => .error t

/-- `shouldSettle` and `shouldRefund`. -/
def videoBill (cfg : Config) (t : Task) (r : VideoResult) (body : String) : Option Pending :=
  match t.status with
  | .success => some (.settle t r.adaptorQuota r.byTokens)
  | .failure =>
    if t.quota ≠ 0 && cfg.refundable t t.failReason body then some (.refund t t.failReason) else none
  | _ => none

/-- The bytes of a text in order: `taskNeedsUpdate` sorts before it compares. -/
def sortedBytes (s : String) : List UInt8 := s.toUTF8.data.toList.insertionSort (· ≤ ·)

def taskNeedsUpdate (old : Task) (new : SunoItem) : Bool :=
  decide (old.submitTime ≠ new.submitTime) || decide (old.startTime ≠ new.startTime) ||
  decide (old.finishTime ≠ new.finishTime) || decide (old.status ≠ new.status) ||
  decide (old.failReason ≠ new.failReason) || (old.status.terminal && decide (old.progress ≠ "100%")) ||
  decide (sortedBytes old.data ≠ sortedBytes new.data)

/-- The body of the loop over a Suno answer, without its billing: the copy to be saved, and whether
`RefundTaskQuota` is called on the way. -/
def applySunoItem (task : Task) (item : SunoItem) : Task × Bool :=
  let status := if item.status ≠ .other "" then item.status else task.status
  let failed := decide (item.failReason ≠ "") || decide (status = .failure)
  ({ task with
    status := status
    failReason := if item.failReason ≠ "" then item.failReason else task.failReason
    submitTime := if item.submitTime ≠ 0 then item.submitTime else task.submitTime
    startTime := if item.startTime ≠ 0 then item.startTime else task.startTime
    finishTime := if item.finishTime ≠ 0 then item.finishTime else task.finishTime
    progress := if failed || decide (item.status = .success) then "100%" else task.progress
    data := item.data }, failed)

def timeoutReason (minutes : Int) : String := "任务超时（" ++ toString minutes ++ "分钟）"

/-- The sweeper's copy of a timed-out task. -/
def timedOut (t : Task) (minutes now : Int) : Task :=
  { t with
    status := .failure
    progress := "100%"
    finishTime := now
    failReason := if isLegacy t then "任务超时（旧系统遗留任务，不进行退款，请联系管理员）"
      else timeoutReason minutes }

/-- How an image job ends: the (redacted) reason of its failure, or its data and first URL. -/
inductive ImageResult where
  | failed (reason : String)
  | done (data : String) (url : Option String)
  deriving DecidableEq, Repr

/-- `processImageAsyncTask` and `failImageAsyncTask` on the worker's copy, with the billing that
follows a won write. -/
def finishImage (cfg : Config) (t : Task) (r : ImageResult) (now : Int) : Task × Pending :=
  let fail := fun (reason : String) =>
    let t' := { t with
      status := TaskStatus.failure
      progress := "100%"
      failReason := reason
      finishTime := now
      leaseOwner := ""
      leaseExpiresAt := 0 }
    (t', Pending.refund t' reason)
  if cfg.maxAttempts < t.attempt then fail "image task exceeded maximum attempts"
  else
    match r with
    | .failed reason => fail reason
    | .done data url =>
      let t' := { t with
        status := TaskStatus.success
        progress := "100%"
        data := data
        resultUrl := url.getD t.resultUrl
        finishTime := now
        leaseOwner := ""
        leaseExpiresAt := 0 }
      (t', .recalculate t')

/-- The copy of a finished attempt, and the bill it leaves. -/
structure Finished (t t' : Task) (b : Pending) : Prop where
  id : t'.id = t.id
  platform : t'.platform = t.platform
  taskKind : t'.taskKind = t.taskKind
  taskId : t'.taskId = t.taskId
  upstreamTaskId : t'.upstreamTaskId = t.upstreamTaskId
  leaseOwner : t'.leaseOwner = ""
  terminal : t'.status.terminal = true
  bill : (∃ reason, b = .refund t' reason) ∨ b = .recalculate t'

theorem finishImage_finished (cfg : Config) (t : Task) (r : ImageResult) (now : Int) :
    Finished t (finishImage cfg t r now).1 (finishImage cfg t r now).2 := by
  unfold finishImage
  split
  · exact ⟨rfl, rfl, rfl, rfl, rfl, rfl, rfl, .inl ⟨_, rfl⟩⟩
  cases r with
  | failed reason => exact ⟨rfl, rfl, rfl, rfl, rfl, rfl, rfl, .inl ⟨_, rfl⟩⟩
  | done data url => exact ⟨rfl, rfl, rfl, rfl, rfl, rfl, rfl, .inr rfl⟩

/-! ## Statements and billing -/

/-- The log entry of a row that a write of `p` changes from `old` to `new`. -/
def move (cfg : Config) (p : Party) (body : String) (old new : Task) : Option Event :=
  if old.status ≠ new.status ∧ (old.status.terminal = true ∨ new.status.terminal = true) then
    some (.moved p old.status new (cfg.due new body))
  else none

/-- One `UPDATE` of the tasks table. -/
def World.exec (cfg : Config) (s : World) (p : Party) (u : TaskUpdate) (body : String) : World :=
  { s with
    rows := s.rows.exec u
    log := s.log ++ s.rows.rows.filterMap fun r => if u.hits r then move cfg p body r (u.set r) else none }

def World.hold (s : World) (p : Party) (b : Option Pending) : World :=
  { s with pending := s.pending ++ (b.map fun x => (p, x)).toList }

/-- A write that bills only when it has affected a row. -/
def World.cas (cfg : Config) (s : World) (p : Party) (u : TaskUpdate) (body : String) (ok : Bool)
    (b : Option Pending) : World :=
  if ok && s.rows.affected u then (s.exec cfg p u body).hold p b else s

/-- What `RefundTaskQuota` gives back when its writes succeed. -/
def Config.returns (cfg : Config) : Pending → Option Int
  | .refund t reason => if t.quota ≠ 0 && cfg.refundable t reason "" then some t.quota else none
  | _ => none

/-- `RefundTaskQuota` and what it has given back. -/
def World.refund (cfg : Config) (s : World) (e : Env) (t : Task) (reason : String) :
    Ledger × Option Int :=
  let (l, outcome) := refundTaskQuota (cfg.taskEnv e) s.ledger t reason
  (l, if outcome = .returned then some t.quota else none)

/-- Do what is pending for `p`. -/
def World.proceed (cfg : Config) (s : World) (p : Party) (e : Env) (ok : Bool) : World :=
  match findKey p s.pending with
  | none => s
  | some b =>
    let s := { s with pending := s.pending.filter fun x => decide (x.1 ≠ p) }
    match b with
    | .save t _ => if ok then s.exec cfg p (t.update e.now) "" else s
    | .refund t reason =>
      let (l, returned) := s.refund cfg e t reason
      { s with ledger := l, log := s.log ++ [.billed p t.id returned] }
    | .settle t adaptorQuota byTokens =>
      let (l, _, updates, _) := settleTaskBillingOnComplete (cfg.taskEnv e) s.ledger t adaptorQuota byTokens
      { s with ledger := l, rows := updates.foldl Table.exec s.rows, log := s.log ++ [.billed p t.id none] }
    | .recalculate t =>
      let (l, _, updates, _) := recalculateTaskQuota (cfg.taskEnv e) s.ledger t t.quota
      { s with ledger := l, rows := updates.foldl Table.exec s.rows, log := s.log ++ [.billed p t.id none] }

/-! ## Actions -/

/-- What a poller's next step meets. -/
structure PollEnv where
  env : Env
  /-- The statement on the tasks table succeeds. -/
  writeOk : Bool
  /-- `CacheGetChannel` succeeds. -/
  channelOk : Bool
  /-- `GetTaskAdaptorFunc` knows the platform. -/
  adaptorOk : Bool
  /-- The Suno answer, unless fetching or parsing it failed. -/
  suno : Option (List SunoItem)
  video : VideoAnswer

inductive Act where
  /-- The query of `taskPollingOnce`; `round` is the order the maps are ranged over. -/
  | load (n : Nat) (limit : Nat) (round : List Work)
  | poll (n : Nat) (e : PollEnv)
  /-- The query of `sweepTimedOutTasks` for a timeout of `minutes`. -/
  | sweep (n : Nat) (minutes now : Int)
  /-- The sweeper's write for the next task of its list. -/
  | expire (n : Nat) (now : Int) (ok : Bool)
  | claim (n : Nat) (taskId : String) (now : Int) (ok : Bool)
  /-- The read after a claim. -/
  | select (n : Nat)
  | release (n : Nat) (now : Int) (ok : Bool)
  /-- The lease heartbeat. -/
  | renew (n : Nat) (now : Int) (ok : Bool)
  | finish (n : Nat) (r : ImageResult) (now : Int) (ok : Bool)
  /-- The pending billing or save of a party. -/
  | proceed (p : Party) (e : Env) (ok : Bool)
  /-- Some other writer replaces a row. -/
  | foreign (row : Task)

/-- The work of a round in the order of first occurrence; the reserved platform has none. -/
def plan (tasks : List Task) : List Work :=
  (groupKey Task.platform tasks).flatMap fun e =>
    let g := groupPlatform e.2
    (if g.nullTaskIds.isEmpty then [] else [.repair g.nullTaskIds]) ++
      (if dispatchPlatformUpdate e.1 = .reserved then []
       else g.taskChannelM.map fun c => .channel e.1 c.1 c.2 (g.taskM.map fun x => (x.1, x.2.id)))

def sunoChannelReason (channelId : Int) : String :=
  "获取渠道信息失败，请联系管理员，渠道ID：" ++ toString channelId

def videoChannelReason (channelId : Int) : String :=
  "Failed to get channel info, channel ID: " ++ toString channelId

namespace World

def setPoller (s : World) (n : Nat) (x : Poller) : World :=
  { s with poller := Function.update s.poller n x }

def setMem (s : World) (n : Nat) (t : Task) : World :=
  s.setPoller n { s.poller n with mem := Function.update (s.poller n).mem t.id (some t) }

/-- `updateVideoSingleTask` on the copy `task`. -/
def pollVideo (cfg : Config) (s : World) (n : Nat) (e : PollEnv) (task : Task) : World :=
  match e.video with
  | .failed => s
  | .tooManyRequests data => s.setMem n { task with data := data }
  | .result r data body =>
    match applyVideoResult cfg e.env.now task r data with
    | .error t => s.setMem n t
    | .ok t =>
      let s := s.setMem n t
      let u := t.updateWithStatus task.status e.env.now
      if t.status.terminal = true ∧ task.status ≠ t.status then
        s.cas cfg (.poller n) u body e.writeOk (videoBill cfg t r body)
      else
        -- no write decides on the billing here
        (if task.snapshot ≠ t.snapshot then s.cas cfg (.poller n) u body e.writeOk none else s).hold
          (.poller n) (videoBill cfg t r body)

/-- One entry of a Suno answer on the copy `task`: the refund comes first, the save is pending. -/
def pollSuno (cfg : Config) (s : World) (n : Nat) (e : PollEnv) (task : Task) (item : SunoItem) :
    World :=
  if taskNeedsUpdate task item then
    let (t, failed) := applySunoItem task item
    let s := s.setMem n t
    if failed then
      let (l, returned) := s.refund cfg e.env t t.failReason
      World.hold { s with ledger := l, log := s.log ++ [.billed (.poller n) t.id returned] } (.poller n)
        (some (.save t returned))
    else s.hold (.poller n) (some (.save t none))
  else s

/-- `updateSunoTasks` and `updateVideoTasks` up to their loops. -/
def pollChannel (cfg : Config) (s : World) (n : Nat) (e : PollEnv) (platform : TaskPlatform)
    (channelId : Int) (taskIds : List String) (taskM : List (String × Int)) : World :=
  if e.channelOk then
    let more := match platform with
      | .suno => (e.suno.getD []).map fun it => Work.item (findKey it.taskId taskM) it
      | _ => if e.adaptorOk then taskIds.map fun id => Work.single (findKey id taskM) else []
    s.setPoller n { s.poller n with todo := more ++ (s.poller n).todo }
  else
    let reason := if platform = .suno then sunoChannelReason channelId else videoChannelReason channelId
    let ids := taskIds.filterMap fun id => findKey id taskM
    if e.writeOk then s.exec cfg (.poller n) (taskBulkUpdateByID ids (some reason) e.env.now) "" else s

/-- The next piece of a poller's round. -/
def poll (cfg : Config) (s : World) (n : Nat) (e : PollEnv) : World :=
  match (s.poller n).todo with
  | [] => s
  | w :: rest =>
    let s := s.setPoller n { s.poller n with todo := rest }
    match w with
    | .repair ids =>
      if e.writeOk then s.exec cfg (.poller n) (taskBulkUpdateByID ids none e.env.now) "" else s
    | .channel platform channelId taskIds taskM => s.pollChannel cfg n e platform channelId taskIds taskM
    | .single obj =>
      match obj.bind (s.poller n).mem with
      | some task => s.pollVideo cfg n e task
      | none => s
    | .item obj item =>
      match obj.bind (s.poller n).mem with
      | some task => s.pollSuno cfg n e task item
      -- a nil task: the loop recovers from the panic and gives the round up
      | none => s.setPoller n { s.poller n with todo := [] }

def idle (s : World) (p : Party) : Bool := (findKey p s.pending).isNone

def setSweeper (s : World) (n : Nat) (x : Sweeper) : World :=
  { s with sweeper := Function.update s.sweeper n x }

def expire (cfg : Config) (s : World) (n : Nat) (now : Int) (ok : Bool) : World :=
  match (s.sweeper n).todo with
  | [] => s
  | t :: rest =>
    let t' := timedOut t (s.sweeper n).minutes (s.sweeper n).now
    let b := if !isLegacy t && decide (t.quota ≠ 0) then
        some (.refund t' (timeoutReason (s.sweeper n).minutes)) else none
    (s.setSweeper n { s.sweeper n with todo := rest }).cas cfg (.sweeper n) (t'.updateWithStatus t.status now) "" ok b

def setWorker (s : World) (n : Nat) (x : Worker) : World :=
  { s with worker := Function.update s.worker n x }

/-- A lease statement runs for its effect on the row only. -/
def lease (cfg : Config) (s : World) (n : Nat) (u : TaskUpdate) (ok : Bool) : World :=
  if ok then s.exec cfg (.worker n) u "" else s

def step (cfg : Config) (s : World) : Act → World
  | .load n limit round =>
    let tasks := getAllUnFinishSyncTasks s.rows limit
    if s.idle (.poller n) && (s.poller n).todo.isEmpty && decide (round.Perm (plan tasks)) then
      s.setPoller n ⟨fun id => tasks.find? fun t => decide (t.id = id), round⟩
    else s
  | .poll n e => if s.idle (.poller n) then s.poll cfg n e else s
  | .sweep n minutes now =>
    if s.idle (.sweeper n) && (s.sweeper n).todo.isEmpty && decide (0 < minutes) then
      s.setSweeper n ⟨getTimedOutUnfinishedTasks s.rows (now - minutes * 60) 100, minutes, now⟩
    else s
  | .expire n now ok => if s.idle (.sweeper n) then s.expire cfg n now ok else s
  | .claim n taskId now ok =>
    if s.idle (.worker n) && decide (s.worker n = .idle) then
      let u := claimImageAsyncTask taskId (cfg.owner n) cfg.leaseDuration now [] false
      let won := ok && s.rows.affected u
      (s.lease cfg n u ok).setWorker n (if won then .claimed taskId else .idle)
    else s
  | .select n =>
    match s.worker n with
    | .claimed taskId =>
      s.setWorker n <| match getImageTaskByLease s.rows taskId (cfg.owner n) with
        | none => .idle
        | some t => if t.taskKind ≠ taskKindImage then .releasing taskId else .working t
    | _ => s
  | .release n now ok =>
    match s.worker n with
    | .releasing taskId =>
      (s.lease cfg n (releaseImageAsyncTaskLease taskId (cfg.owner n) now) ok).setWorker n .idle
    | _ => s
  | .renew n now ok =>
    match s.worker n with
    | .working t => s.lease cfg n (renewImageAsyncTaskLease t.taskId (cfg.owner n) cfg.leaseDuration now) ok
    | _ => s
  | .finish n r now ok =>
    match s.worker n with
    | .working t =>
      if s.idle (.worker n) then
        let (t', b) := finishImage cfg t r now
        (s.setWorker n .idle).cas cfg (.worker n) (updateImageTaskWithLease t' (cfg.owner n) now) "" ok (some b)
      else s
    | _ => s
  | .proceed p e ok => s.proceed cfg p e ok
  | .foreign row =>
    match s.rows.get row.id with
    | some old =>
      -- other writers keep what identifies a task
      if (row.platform, row.taskKind, row.taskId, row.upstreamTaskId) =
          (old.platform, old.taskKind, old.taskId, old.upstreamTaskId) then
        s.exec cfg .other (row.update row.updatedAt) ""
      else s
    | none => s

def run (cfg : Config) (s : World) (acts : List Act) : World := acts.foldl (World.step cfg) s

end World

/-- Every failure is refunded. -/
def refundingConfig : Config where
  keepsCharge _ _ _ _ := false
  tokenKey _ := "key"
  serverAddress := ""
  owner _ := "dispatcher"
  leaseDuration := 60
  maxAttempts := 3

end NewApi.Tasks
