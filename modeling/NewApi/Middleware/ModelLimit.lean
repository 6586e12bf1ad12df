import NewApi.Middleware.Distribute
import NewApi.Relay.ModelMapped

/-!
# The model limits of a token (`router/`, `controller/relay.go`, `relay/relay_task.go`)

A token may be limited to a set of models. The check is made in `Distribute`, on the name that
`getModelRequest` finds and only if a channel is to be selected; the handler behind it decides what
is submitted and billed.

* `klingRequestConvert`, `jimengRequestConvert` — the converters that rewrite a request before it is
  distributed.

## Results

* `relay_unselected`, `relayTask_unselected` — a request without a channel leads to no submission.
-/

namespace NewApi.Middleware

open NewApi.Text NewApi.Route NewApi.Relay NewApi.Channels List

/-! ## Routes -/

inductive RelayFormat where
  | openAI
  | claude
  | gemini
  | openAIResponses
  | openAIResponsesCompaction
  | openAIAudio
  | openAIImage
  | openAIRealtime
  | rerank
  | embedding
deriving DecidableEq, Repr

/-- The handlers. Images, and chats that ask for one, may go through the queue of image tasks, which
    has the same retry loop. -/
inductive Handler where
  | relay (format : RelayFormat)
  | relayMidjourney
  | relayTask
  | relayTaskFetch
  | relayImageTaskFetch
  | relayNotImplemented
deriving DecidableEq, Repr

/-- The middleware that rewrites requests of other vendors. -/
inductive Converter where
  | none
  | kling
  | jimeng
deriving DecidableEq, Repr

structure Route where
  method : String
  pieces : List Piece
  converter : Converter
  handler : Handler

/-- The endpoints of `Relay` with a fixed path. -/
def relayEndpoints : List (String × List String × RelayFormat) :=
  [("POST", ["", "pg", "chat", "completions"], .openAI), ("GET", ["", "v1", "realtime"], .openAIRealtime),
    ("POST", ["", "v1", "messages"], .claude),
    ("POST", ["", "v1", "completions"], .openAI),
    ("POST", ["", "v1", "chat", "completions"], .openAI),
    ("POST", ["", "v1", "responses"], .openAIResponses),
    ("POST", ["", "v1", "responses", "compact"], .openAIResponsesCompaction),
    ("POST", ["", "v1", "edits"], .openAIImage),
    ("POST", ["", "v1", "images", "generations"], .openAIImage),
    ("POST", ["", "v1", "images", "edits"], .openAIImage),
    ("POST", ["", "v1", "embeddings"], .embedding),
    ("POST", ["", "v1", "audio", "transcriptions"], .openAIAudio),
    ("POST", ["", "v1", "audio", "translations"], .openAIAudio),
    ("POST", ["", "v1", "audio", "speech"], .openAIAudio),
    ("POST", ["", "v1", "rerank"], .rerank),
    ("POST", ["", "v1", "moderations"], .openAI)]

def relayRoutes : List Route :=
  relayEndpoints.map fun e => ⟨e.1, e.2.1.map .lit, .none, .relay e.2.2⟩

/-- The Gemini routes, whose path holds the model. -/
def geminiRoutes : List Route :=
  [⟨"POST", [.lit "", .lit "v1", .lit "engines", .param "model", .lit "embeddings"], .none, .relay .gemini⟩,
    ⟨"POST", [.lit "", .lit "v1", .lit "models", .rest "path"], .none, .relay .gemini⟩,
    ⟨"POST", [.lit "", .lit "v1beta", .lit "models", .rest "path"], .none, .relay .gemini⟩]

/-- The endpoints of `registerMjRouterGroup`. -/
def mjEndpoints : List (String × List Piece) :=
  [("POST", [.lit "submit", .lit "action"]), ("POST", [.lit "submit", .lit "shorten"]),
    ("POST", [.lit "submit", .lit "modal"]),
    ("POST", [.lit "submit", .lit "imagine"]),
    ("POST", [.lit "submit", .lit "change"]),
    ("POST", [.lit "submit", .lit "simple-change"]),
    ("POST", [.lit "submit", .lit "describe"]),
    ("POST", [.lit "submit", .lit "blend"]),
    ("POST", [.lit "submit", .lit "edits"]),
    ("POST", [.lit "submit", .lit "video"]),
    ("GET", [.lit "task", .param "id", .lit "fetch"]),
    ("GET", [.lit "task", .param "id", .lit "image-seed"]),
    ("POST", [.lit "task", .lit "list-by-condition"]),
    ("POST", [.lit "insight-face", .lit "swap"]),
    ("POST", [.lit "submit", .lit "upload-discord-images"])]

/-- They are registered under `/mj` and under `/:mode/mj`. -/
def mjRoutes : List Route :=
  (mjEndpoints.map fun e => ⟨e.1, .lit "" :: .lit "mj" :: e.2, .none, .relayMidjourney⟩) ++
    mjEndpoints.map fun e => ⟨e.1, .lit "" :: .param "mode" :: .lit "mj" :: e.2, .none, .relayMidjourney⟩

def taskRoutes : List Route :=
  [⟨"POST", [.lit "", .lit "suno", .lit "submit", .param "action"], .none, .relayTask⟩,
    ⟨"POST", [.lit "", .lit "suno", .lit "fetch"], .none, .relayTaskFetch⟩,
    ⟨"GET", [.lit "", .lit "suno", .lit "fetch", .param "id"], .none, .relayTaskFetch⟩,
    ⟨"POST", [.lit "", .lit "v1", .lit "videos", .param "video_id", .lit "remix"], .none, .relayTask⟩,
    ⟨"POST", [.lit "", .lit "v1", .lit "videos"], .none, .relayTask⟩,
    ⟨"GET", [.lit "", .lit "v1", .lit "videos", .param "task_id"], .none, .relayTaskFetch⟩,
    ⟨"POST", [.lit "", .lit "kling", .lit "v1", .lit "videos", .lit "text2video"], .kling, .relayTask⟩,
    ⟨"POST", [.lit "", .lit "kling", .lit "v1", .lit "videos", .lit "image2video"], .kling, .relayTask⟩,
    ⟨"GET", [.lit "", .lit "kling", .lit "v1", .lit "videos", .lit "text2video", .param "task_id"], .kling,
      .relayTaskFetch⟩,
    ⟨"GET", [.lit "", .lit "kling", .lit "v1", .lit "videos", .lit "image2video", .param "task_id"], .kling,
      .relayTaskFetch⟩,
    ⟨"POST", [.lit "", .lit "jimeng", .lit ""], .jimeng, .relayTask⟩,
    ⟨"GET", [.lit "", .lit "v1", .lit "images", .lit "generations", .param "task_id"], .none, .relayImageTaskFetch⟩,
    ⟨"GET", [.lit "", .lit "v1", .lit "images", .lit "edits", .param "task_id"], .none, .relayImageTaskFetch⟩]

def notImplementedRoutes : List Route :=
  [⟨"POST", [.lit "", .lit "v1", .lit "images", .lit "variations"], .none, .relayNotImplemented⟩,
    ⟨"GET", [.lit "", .lit "v1", .lit "files"], .none, .relayNotImplemented⟩,
    ⟨"POST", [.lit "", .lit "v1", .lit "files"], .none, .relayNotImplemented⟩,
    ⟨"DELETE", [.lit "", .lit "v1", .lit "files", .param "id"], .none, .relayNotImplemented⟩,
    ⟨"GET", [.lit "", .lit "v1", .lit "files", .param "id"], .none, .relayNotImplemented⟩,
    ⟨"GET", [.lit "", .lit "v1", .lit "files", .param "id", .lit "content"], .none, .relayNotImplemented⟩,
    ⟨"POST", [.lit "", .lit "v1", .lit "fine-tunes"], .none, .relayNotImplemented⟩,
    ⟨"GET", [.lit "", .lit "v1", .lit "fine-tunes"], .none, .relayNotImplemented⟩,
    ⟨"GET", [.lit "", .lit "v1", .lit "fine-tunes", .param "id"], .none, .relayNotImplemented⟩,
    ⟨"POST", [.lit "", .lit "v1", .lit "fine-tunes", .param "id", .lit "cancel"], .none, .relayNotImplemented⟩,
    ⟨"GET", [.lit "", .lit "v1", .lit "fine-tunes", .param "id", .lit "events"], .none, .relayNotImplemented⟩,
    ⟨"DELETE", [.lit "", .lit "v1", .lit "models", .param "model"], .none, .relayNotImplemented⟩]

/-- The routes behind `Distribute`; a path takes the first that matches. -/
def routes : List Route :=
  relayRoutes ++ geminiRoutes ++ taskRoutes ++ notImplementedRoutes ++ mjRoutes

def findRoute (method path : String) : Option (Route × Params) :=
  routes.findSome? fun route =>
    if route.method = method then (matchPieces route.pieces (segments path)).map fun params => (route, params)
    else none

/-! ## Converters -/

/-- What the converters read of a body that is an object, and how the body they write is read. -/
structure ConvertedBody where
  /-- The field `task_id`, if it is a text. -/
  taskId : Option String
  bodyModel : Except String (String × String)
  midjourney : Except String MidjourneyRequest

/-- A request as it arrives. -/
structure Incoming where
  request : Request
  /-- The query parameter `Action`. -/
  queryAction : String
  convertedBody : Option ConvertedBody
  /-- The field `prompt` of the body as a Suno request, if it is one. -/
  sunoPrompt : Option String
  /-- The thinking budget of the body as a Gemini request. -/
  thinkingBudget : Option Int

/-- The body written by a converter. -/
def Request.withBody (c : Request) (body : ConvertedBody) : Request :=
  { c with bodyModel := body.bodyModel, midjourney := body.midjourney }

def klingRequestConvert (i : Incoming) : Request :=
  match i.convertedBody with
  | none => i.request
  | some body => { i.request.withBody body with path := "/v1/videos" }

def jimengRequestConvert (i : Incoming) : Except Rejection Request :=
  if i.queryAction = "" then .error (.aborted 400 "Action query parameter is required")
  else
    match i.convertedBody with
    | none => .error (.aborted 400 "Invalid request body")
    | some body =>
      let c := { i.request.withBody body with path := "/v1/videos" }
      if i.queryAction = "CVSync2AsyncGetResult" then
        match body.taskId.filter fun taskId => decide (taskId ≠ "") with
        | none => .error (.aborted 400 "task_id is required for CVSync2AsyncGetResult")
        | some taskId => .ok { c with path := "/v1/videos/" ++ taskId, method := "GET", taskId := taskId }
      else .ok c

/-- The request that `Distribute` sees. -/
def convert (i : Incoming) (params : Params) : Converter → Except Rejection Request
  | .none => .ok { i.request with params := params }
  | .kling => .ok { klingRequestConvert i with params := params }
  | .jimeng => (jimengRequestConvert i).map fun c => { c with params := params }

/-! ## Submissions -/

structure Channel where
  type : Int
  modelMapping : Option (List (String × String))

/-- A paid submission. -/
structure Submission where
  /-- The model that the price data of the charge are computed for. -/
  billedModel : String
  /-- The model asked of the channel. -/
  upstreamModel : String
deriving DecidableEq, Repr

/-- How an attempt ends: with a paid submission, with an error that is retried, or with one that is
not. -/
inductive Outcome where
  | served
  | retried
  | failed
deriving DecidableEq, Repr

/-- An attempt, and the channel that is found for a model name when it is retried. -/
structure Attempt where
  outcome : Outcome
  next : String → Option Channel

/-- What happens to a request behind `Distribute`. -/
structure Course where
  attempts : List Attempt
  /-- The channel found for an image request, which selects one anew before its first attempt. -/
  imageChannel : String → Option Channel

/-- What `ModelMappedHelper` and the handlers make of a format. -/
def RelayFormat.mode : RelayFormat → RelayMode
  | .openAIResponsesCompaction => .responsesCompact
  | .openAIResponses => .responses
  | .gemini => .gemini
  | _ => .chatCompletions

section Handlers

variable (s : MappingSetting) (r : MappedRequest)

/-- The retry loop of `Relay`. The first attempt has the channel of the context, without which it
fails before it is sent; a retry asks for a channel for the model the loop started with. A
compaction is priced again after the attempt, everything else when the loop starts. -/
def relay (asked : String) : Option Channel → String → List Attempt → Option Submission
  | _, _, [] => none
  | none, originModelName, attempt :: rest =>
    match attempt.outcome with
    | .retried => (attempt.next asked).bind fun channel => relay asked (some channel) originModelName rest
    | .served | .failed => none
  | some channel, originModelName, attempt :: rest =>
    match attemptNames s r originModelName channel.modelMapping with
    | .error _ => none
    | .ok names =>
      match attempt.outcome with
      | .served =>
        some ⟨if r.mode = .responsesCompact then names.originModelName else asked, names.upstreamModelName⟩
      | .retried => (attempt.next asked).bind fun channel => relay asked (some channel) names.originModelName rest
      | .failed => none

end Handlers

/-- `RelayMidjourney`. `Path2RelayMode` has the relay mode for paths that start with `/mj`; for
`/:mode/mj` it is the one `Distribute` put into the context. -/
def relayMidjourney (path asked : String) : List Attempt → Option Submission
  | [] => none
  | attempt :: _ =>
    if (path2RelayModeMidjourney path).isQuery then none
    else if attempt.outcome = .served then some ⟨asked, asked⟩
    else none

/-! ## Tasks -/

/-- What a remix reads of the task it starts from. -/
structure OriginTask where
  channelId : Int
  originModelName : String
  upstreamModelName : String
  dataModel : String

structure TaskServices where
  /-- `GetByTaskIdForFetch`. -/
  originTask : String → Except String (Option OriginTask)
  /-- `GetChannelById`, and whether the channel is enabled. -/
  channel : Int → Option (Channel × Bool)
  /-- Whether `GetNextEnabledKey` finds a key. -/
  hasEnabledKey : Int → Bool

/-- How `ResolveOriginTask` ends. -/
inductive Resolved where
  | taskError (code : String) (statusCode : Nat)
  | panicked
  | goOn (originModelName : String) (lockedChannel : Option Channel)

/-- The model of a remix: the request's, or that of the task. -/
def OriginTask.model (task : OriginTask) (originModelName : String) : String :=
  if originModelName ≠ "" then originModelName
  else if task.originModelName ≠ "" then task.originModelName
  else if task.upstreamModelName ≠ "" then task.upstreamModelName
  else task.dataModel

/-- `ResolveOriginTask`. `channelId` is that of `info.ChannelMeta`, if the relay info has one:
    without, reading `info.ChannelId` panics. -/
def resolveOriginTask (t : TaskServices) (path videoId originModelName : String)
    (channelId : Option Int) : Resolved :=
  if isRemixPath path then
    if isBlank videoId then .taskError "invalid_request" 400
    else
      match t.originTask videoId with
      | .error _ => .taskError "get_origin_task_failed" 500
      | .ok none => .taskError "task_not_exist" 400
      | .ok (some task) =>
        match t.channel task.channelId with
        | none => .taskError "channel_not_found" 400
        | some (_, false) => .taskError "task_channel_disable" 400
        | some (channel, true) =>
          match channelId with
          | none => .panicked
          | some channelId =>
            if task.channelId ≠ channelId ∧ t.hasEnabledKey task.channelId = false then
              .taskError "channel_no_available_key" 500
            else .goOn (task.model originModelName) (some channel)
  else .goOn originModelName none

/-- The types of channels that have a task adaptor. -/
def taskChannelTypes : List Int := [1, 8, 17, 24, 35, 41, 45, 50, 51, 52, 54, 55]

inductive TaskAdaptor where
  | suno
  | ofType (channelType : Int)
deriving DecidableEq, Repr

/-- The adaptor of `GetTaskAdaptor`, by the platform of the context or by the type of the channel.
    No other platform than Suno is put into the context. -/
def getTaskAdaptor (platform : String) (channelType : Int) : Option TaskAdaptor :=
  if platform = "suno" then some .suno
  else if channelType ∈ taskChannelTypes then some (.ofType channelType)
  else none

/-- Whether the adaptor lets the request pass. Only the check of Suno is looked into: it refuses
with a 400, which is not retried; errors of the others are part of the attempt's outcome. -/
def TaskAdaptor.accepts (adaptor : TaskAdaptor) (action : String) (sunoPrompt : Option String) :
    Bool :=
  match adaptor with
  | .suno =>
    match sunoPrompt with
    | none => false
    | some prompt =>
      if action.toUpper = "MUSIC" then true
      else if action.toUpper = "LYRICS" then decide (prompt ≠ "")
      else false
  | .ofType _ => true

section Task

variable (s : MappingSetting) (platform action : String) (sunoPrompt : Option String)

/-- The retry loop of `RelayTask` around `RelayTaskSubmit`. -/
def relayTaskSubmit (asked : String) : Option Channel → String → List Attempt → Option Submission
  | _, _, [] => none
  | channel, originModelName, attempt :: rest =>
    match getTaskAdaptor platform ((channel.map Channel.type).getD 0) with
    | none => none
    | some adaptor =>
      if adaptor.accepts action sunoPrompt then
        let modelName := if originModelName = "" then coverTaskActionToModelName platform action else originModelName
        match attemptNames s ⟨.taskSubmit, modelName, none⟩ modelName ((channel.map Channel.modelMapping).getD (some [])) with
        | .error _ => none
        | .ok names =>
          match attempt.outcome with
          | .served => some ⟨modelName, names.upstreamModelName⟩
          | .retried => (attempt.next asked).bind fun channel => relayTaskSubmit asked (some channel) modelName rest
          | .failed => none
      else none

/-- A locked channel stays for all attempts. -/
def Attempt.lock (lockedChannel : Option Channel) (attempt : Attempt) : Attempt :=
  match lockedChannel with
  | none => attempt
  | some channel => { attempt with next := fun _ => some channel }

/-- `RelayTask`. The relay info of a task gets its channel data in `RelayTaskSubmit`, so that it has
    none yet when the origin task is resolved. -/
def relayTask (t : TaskServices) (c : Request) (passed : Passed Channel) (attempts : List Attempt) :
    Option Submission :=
  match resolveOriginTask t c.path (c.param "video_id") passed.originalModel none with
  | .taskError _ _ | .panicked => none
  | .goOn originModelName lockedChannel =>
    relayTaskSubmit s passed.platform (c.param "action") sunoPrompt originModelName (lockedChannel.or passed.channel)
      originModelName (attempts.map (Attempt.lock lockedChannel))

end Task

/-! ## From the route to the submission -/

/-- What the program is configured with, and what it stores. -/
structure System where
  services : Services Channel
  tasks : TaskServices
  mapping : MappingSetting

/-- The channel of the first attempt of `Relay`: that of the context. An image request has its
    channel data by then, and `getChannel` selects a channel for it. -/
def firstChannel (passed : Passed Channel) (course : Course) (format : RelayFormat) :
    Option (Option Channel) :=
  if format = .openAIImage then (course.imageChannel passed.originalModel).map some else some passed.channel

/-- The handler of a request that got past `Distribute`. -/
def handle (sys : System) (i : Incoming) (c : Request) (passed : Passed Channel) (course : Course) :
    Handler → Option Submission
  | .relay format =>
    (firstChannel passed course format).bind fun channel =>
      relay sys.mapping ⟨format.mode, passed.originalModel, i.thinkingBudget⟩ passed.originalModel channel
        passed.originalModel course.attempts
  | .relayMidjourney => relayMidjourney c.path passed.originalModel course.attempts
  | .relayTask => relayTask sys.mapping i.sunoPrompt sys.tasks c passed course.attempts
  | .relayTaskFetch | .relayImageTaskFetch | .relayNotImplemented => none

/-- A request from its route to `Distribute`. -/
def enter (sys : System) (token : TokenContext) (i : Incoming) :
    Option (Route × Request × Passed Channel) :=
  match findRoute i.request.method i.request.path with
  | none => none
  | some (route, params) =>
    match convert i params route.converter with
    | .error _ => none
    | .ok c =>
      match distribute sys.services token c with
      | .error _ => none
      | .ok passed => some (route, c, passed)

/-- A request from its route to its submission. -/
def serve (sys : System) (token : TokenContext) (i : Incoming) (course : Course) :
    Option Submission :=
  (enter sys token i).bind fun entered => handle sys i entered.2.1 entered.2.2 course entered.1.handler

/-- No channel is found for the empty model name. -/
def Course.NoUnnamed (course : Course) : Prop :=
  (∀ attempt ∈ course.attempts, attempt.next "" = none) ∧ course.imageChannel "" = none

/-! ## The names of a retry loop -/

section Names

variable {s : MappingSetting} {r : MappedRequest} {asked originModelName : String} {channel : Option Channel}
  {attempts : List Attempt} {submission : Submission}

theorem compaction_names {modelMapping : Option (List (String × String))} {names : ModelNames}
    (hmode : r.mode = .responsesCompact) (hsuffix : hasCompactSuffix originModelName = true)
    (h : attemptNames s r originModelName modelMapping = .ok names) :
    names.originModelName = withCompactModelSuffix names.upstreamModelName := by
  unfold attemptNames at h
  rcases modelMapping with _ | modelMap
  · simp [modelMappedHelper] at h
  rcases hmap : modelMappedHelper r.mode (some modelMap) (initChannelMeta originModelName) with err | names'
  · rw [hmap] at h
    cases h
  have hgemini : r.mode ≠ .gemini := by
    rw [hmode]
    decide
  simp only [hmap, if_neg hgemini] at h
  cases h
  have hspec := (modelMappedHelper_spec (fun _ => hsuffix) hmap).2
  rwa [if_pos hmode] at hspec

theorem relay_billed (hsuffix : r.mode = .responsesCompact → hasCompactSuffix originModelName = true)
    (h : relay s r asked channel originModelName attempts = some submission) :
    submission.billedModel =
      if r.mode = .responsesCompact then withCompactModelSuffix submission.upstreamModel else asked := by
  induction attempts generalizing channel originModelName with
  | nil =>
    cases h
  | cons attempt rest ih =>
    cases channel with
    | none =>
      simp only [relay] at h
      cases houtcome : attempt.outcome with
      | retried =>
        simp only [houtcome] at h
        obtain ⟨channel, _, hrest⟩ := Option.bind_eq_some_iff.mp h
        exact ih hsuffix hrest
      | served | failed =>
        simp only [houtcome] at h
        cases h
    | some channel =>
      rcases hnames : attemptNames s r originModelName channel.modelMapping with err | names
      · simp only [relay, hnames] at h
        cases h
      cases houtcome : attempt.outcome with
      | served =>
        simp only [relay, hnames, houtcome] at h
        cases h
        by_cases hmode : r.mode = .responsesCompact
        · simp only [hmode, if_true]
          exact compaction_names hmode (hsuffix hmode) hnames
        · simp [hmode]
      | retried =>
        simp only [relay, hnames, houtcome] at h
        obtain ⟨channel', _, hrest⟩ := Option.bind_eq_some_iff.mp h
        refine ih ?_ hrest
        intro hmode
        rw [compaction_names hmode (hsuffix hmode) hnames]
        exact hasCompactSuffix_withCompactModelSuffix _
      | failed =>
        simp only [relay, hnames, houtcome] at h
        cases h

theorem relay_unselected (hnext : ∀ attempt ∈ attempts, attempt.next asked = none) :
    relay s r asked none originModelName attempts = none := by
  rcases attempts with _ | ⟨attempt, rest⟩
  · rfl
  simp only [relay]
  cases attempt.outcome with
  | retried => rw [hnext attempt mem_cons_self, Option.bind_none]
  | served | failed => rfl

end Names

section TaskNames

variable {s : MappingSetting} {t : TaskServices} {platform action asked originModelName : String}
  {sunoPrompt : Option String} {channel : Option Channel} {c : Request} {passed : Passed Channel}
  {attempts : List Attempt} {submission : Submission}

theorem relayTaskSubmit_billed (hmodel : originModelName ≠ "")
    (h : relayTaskSubmit s platform action sunoPrompt asked channel originModelName attempts = some submission) :
    submission.billedModel = originModelName := by
  induction attempts generalizing channel with
  | nil => cases h
  | cons attempt rest ih =>
    simp only [relayTaskSubmit, if_neg hmodel] at h
    split at h
    · cases h
    split at h
    case isFalse => cases h
    case isTrue =>
      split at h
      · cases h
      split at h
      · cases h
        rfl
      · obtain ⟨channel', _, hrest⟩ := Option.bind_eq_some_iff.mp h
        exact ih hrest
      · cases h

theorem relayTaskSubmit_refused
    (h : ∀ adaptor, getTaskAdaptor platform ((channel.map Channel.type).getD 0) = some adaptor →
      adaptor.accepts action sunoPrompt = false) :
    relayTaskSubmit s platform action sunoPrompt asked channel originModelName attempts = none := by
  rcases attempts with _ | ⟨attempt, rest⟩
  · rfl
  simp only [relayTaskSubmit]
  cases hadaptor : getTaskAdaptor platform ((channel.map Channel.type).getD 0) with
  | none => rfl
  | some adaptor => simp [h adaptor hadaptor]

/-- Without channel data to compare the task's channel with, a remix never gets past its origin
task. -/
theorem resolveOriginTask_of_remix {path videoId originModelName : String}
    (h : isRemixPath path = true) (name : String) (channel : Option Channel) :
    resolveOriginTask t path videoId originModelName none ≠ .goOn name channel := by
  unfold resolveOriginTask
  rw [if_pos h]
  split_ifs
  · exact Resolved.noConfusion
  split
  · exact Resolved.noConfusion
  · exact Resolved.noConfusion
  split
  · exact Resolved.noConfusion
  · exact Resolved.noConfusion
  · exact Resolved.noConfusion

theorem relayTask_of_remix (h : isRemixPath c.path = true) :
    relayTask s sunoPrompt t c passed attempts = none := by
  unfold relayTask
  split
  · rfl
  · rfl
  · rename_i hresolved
    exact (resolveOriginTask_of_remix h _ _ hresolved).elim

theorem relayTask_of_not_remix (h : isRemixPath c.path = false) :
    relayTask s sunoPrompt t c passed attempts =
      relayTaskSubmit s passed.platform (c.param "action") sunoPrompt passed.originalModel passed.channel
        passed.originalModel attempts := by
  have hlock : attempts.map (Attempt.lock none) = attempts := map_id attempts
  simp [relayTask, resolveOriginTask, h, hlock]

theorem relayTask_billed (hmodel : passed.originalModel ≠ "")
    (h : relayTask s sunoPrompt t c passed attempts = some submission) :
    submission.billedModel = passed.originalModel := by
  by_cases hremix : isRemixPath c.path = true
  · rw [relayTask_of_remix hremix] at h
    cases h
  · rw [relayTask_of_not_remix (Bool.not_eq_true _ ▸ hremix)] at h
    exact relayTaskSubmit_billed hmodel h

/-- Nor is a task submitted without a channel: there is no adaptor for it, or Suno refuses the
action. -/
theorem relayTask_unselected (hchannel : passed.channel = none)
    (hplatform : passed.platform = "" ∨ passed.platform = "suno" ∧
      (c.param "action").toUpper ≠ "MUSIC" ∧ (c.param "action").toUpper ≠ "LYRICS") :
    relayTask s sunoPrompt t c passed attempts = none := by
  by_cases hremix : isRemixPath c.path = true
  · exact relayTask_of_remix hremix
  rw [relayTask_of_not_remix (Bool.not_eq_true _ ▸ hremix), hchannel]
  refine relayTaskSubmit_refused ?_
  intro adaptor hadaptor
  rcases hplatform with hplatform | ⟨hplatform, hmusic, hlyrics⟩
  · rw [hplatform] at hadaptor
    cases hadaptor
  rw [hplatform] at hadaptor
  cases hadaptor
  unfold TaskAdaptor.accepts
  cases sunoPrompt with
  | none => rfl
  | some prompt => simp [hmusic, hlyrics]

end TaskNames

/-! ## Routes and paths -/

def Handler.isRelay : Handler → Bool
  | .relay _ => true
  | _ => false

section Paths

variable {method path : String} {route : Route} {params : Params}

theorem findRoute_eq_some (h : findRoute method path = some (route, params)) :
    route ∈ routes ∧ route.method = method ∧
      matchPieces route.pieces (segments path) = some params := by
  obtain ⟨route', hmem, hfound⟩ := exists_of_findSome?_eq_some h
  split at hfound
  case isFalse => cases hfound
  case isTrue hmethod =>
    obtain ⟨params', hmatch, heq⟩ := Option.map_eq_some_iff.mp hfound
    cases heq
    exact ⟨hmem, hmethod, hmatch⟩

theorem mem_routes (h : route ∈ routes) :
    route ∈ relayRoutes ∨ route ∈ geminiRoutes ∨ route ∈ taskRoutes ∨ route ∈ notImplementedRoutes ∨
      route ∈ mjRoutes := by
  simpa only [routes, mem_append, or_assoc] using h

theorem getLast_of_hasQueryEnding (h : hasQueryEnding path = true) :
    ∃ last ∈ ["fetch", "image-seed", "list-by-condition", "notify", "remix"],
      (segments path).getLast? = some last := by
  obtain ⟨ending, hmem, hsuffix⟩ := any_eq_true.mp h
  have hlast : ∀ ending ∈ queryEndings, ∃ last ∈ ["fetch", "image-seed", "list-by-condition", "notify", "remix"],
      hasSuffix ending ("/" ++ last) = true ∧ '/' ∉ last.toList := by decide +kernel
  obtain ⟨last, hlastMem, hending, hslash⟩ := hlast ending hmem
  refine ⟨last, hlastMem, getLast_of_hasSuffix ?_ hslash⟩
  rw [hasSuffix, isSuffixOf_iff_suffix] at hending hsuffix ⊢
  exact hending.trans hsuffix

theorem relay_route (hroute : route ∈ routes) (hrelay : route.handler.isRelay = true) :
    route.converter = .none ∧
      ((∃ e ∈ relayEndpoints, route = ⟨e.1, e.2.1.map .lit, .none, .relay e.2.2⟩) ∨ route ∈ geminiRoutes) := by
  have hconverter : ∀ route ∈ geminiRoutes, route.converter = .none := by decide
  have hothers : ∀ route ∈ taskRoutes ++ notImplementedRoutes ++ mjRoutes, route.handler.isRelay = false := by decide
  rcases mem_routes hroute with hmem | hmem | hmem
  · obtain ⟨e, he, rfl⟩ := mem_map.mp hmem
    exact ⟨rfl, .inl ⟨e, he, rfl⟩⟩
  · exact ⟨hconverter route hmem, .inr hmem⟩
  have hmem' : route ∈ taskRoutes ++ notImplementedRoutes ++ mjRoutes := by
    simpa only [mem_append, or_assoc] using hmem
  rw [hothers route hmem'] at hrelay
  cases hrelay

theorem gemini_query_path (hroute : route ∈ geminiRoutes)
    (hmatch : matchPieces route.pieces (segments path) = some params)
    (hquery : hasQueryEnding path = true) :
    hasPrefix path "/v1/models/" = true ∨ hasPrefix path "/v1beta/models/" = true := by
  have hmem : route = ⟨"POST", [.lit "", .lit "v1", .lit "engines", .param "model", .lit "embeddings"], .none,
        .relay .gemini⟩ ∨
      route = ⟨"POST", [.lit "", .lit "v1", .lit "models", .rest "path"], .none, .relay .gemini⟩ ∨
      route = ⟨"POST", [.lit "", .lit "v1beta", .lit "models", .rest "path"], .none, .relay .gemini⟩ := by
    simpa [geminiRoutes] using hroute
  rcases hmem with rfl | rfl | rfl
  · -- the path of an engine ends with `embeddings`
    obtain ⟨tail, hsegs, htail⟩ := matchPieces_lits_append ["", "v1", "engines"] hmatch
    obtain ⟨model, last, _, rfl, hlast, _⟩ := matchPieces_param htail
    obtain ⟨rfl, _⟩ := @matchPieces_lits _ _ ["embeddings"] hlast
    obtain ⟨ending, hending, hget⟩ := getLast_of_hasQueryEnding hquery
    rw [hsegs] at hget
    have hlast : ending = "embeddings" := (Option.some.inj hget).symm
    exact absurd (hlast ▸ hending) (by decide)
  · left
    obtain ⟨after, hsegs, hafter⟩ := matchPieces_lits_append ["", "v1", "models"] hmatch
    exact hasPrefix_of_segments hsegs (by simp) (ne_nil_of_matchPieces hafter (by simp))
  · right
    obtain ⟨after, hsegs, hafter⟩ := matchPieces_lits_append ["", "v1beta", "models"] hmatch
    exact hasPrefix_of_segments hsegs (by simp) (ne_nil_of_matchPieces hafter (by simp))

theorem endpointModel_of_gemini {c : Request} (hquery : hasQueryEnding c.path = true)
    (hgemini : hasPrefix c.path "/v1/models/" = true ∨ hasPrefix c.path "/v1beta/models/" = true) :
    endpointModel c "" = "" ∧ playgroundModel c "" = .ok "" := by
  have hprefix : ∀ start ∈ ["/v1/realtime", "/v1/moderations", "/v1/images/generations", "/v1/images/edits",
      "/v1/audio", "/pg/chat/completions"], hasPrefix c.path start = false := by
    have hapart : ∀ start ∈ ["/v1/realtime", "/v1/moderations", "/v1/images/generations", "/v1/images/edits",
        "/v1/audio", "/pg/chat/completions"], ∀ models ∈ ["/v1/models/", "/v1beta/models/"],
        hasPrefix models start = false ∧ hasPrefix start models = false := by decide +kernel
    intro start hstart
    rcases hgemini with hmodels | hmodels
    · obtain ⟨hab, hba⟩ := hapart start hstart "/v1/models/" (by simp)
      exact not_hasPrefix_of_hasPrefix hmodels hab hba
    · obtain ⟨hab, hba⟩ := hapart start hstart "/v1beta/models/" (by simp)
      exact not_hasPrefix_of_hasPrefix hmodels hab hba
  have hembeddings : hasSuffix c.path "embeddings" = false := by
    have hapart : ∀ ending ∈ queryEndings,
        hasSuffix ending "embeddings" = false ∧ hasSuffix "embeddings" ending = false := by decide +kernel
    obtain ⟨ending, hmem, hsuffix⟩ := any_eq_true.mp hquery
    obtain ⟨hab, hba⟩ := hapart ending hmem
    exact not_hasSuffix_of_hasSuffix hsuffix hab hba
  have hrealtime := hprefix "/v1/realtime" (by simp)
  have hmoderations := hprefix "/v1/moderations" (by simp)
  have hgenerations := hprefix "/v1/images/generations" (by simp)
  have hedits := hprefix "/v1/images/edits" (by simp)
  have haudio := hprefix "/v1/audio" (by simp)
  have hplayground := hprefix "/pg/chat/completions" (by simp)
  refine ⟨?_, ?_⟩
  · simp [endpointModel, audioModel, imageModel, hrealtime, hmoderations, hgenerations, hedits,
      haudio, hembeddings]
  · simp [playgroundModel, hplayground]

end Paths

variable {i : Incoming} {sys : System} {course : Course}

section Unselected

variable {v : Services Channel} {token : TokenContext} {c : Request} {route : Route} {params : Params}
  {found : ModelRequest}

theorem relay_unselected_model (hroute : route ∈ routes) (hrelay : route.handler.isRelay = true)
    (hmethod : route.method = c.method)
    (hmatch : matchPieces route.pieces (segments c.path) = some params)
    (h : getModelRequest v token c = .ok found) (hs : found.shouldSelectChannel = false) : found.model = "" := by
  obtain ⟨start, model, hstart, hmodel, rfl⟩ := getModelRequest_eq_ok h
  obtain ⟨hpolls, _, _⟩ := pathRequest_unselected hstart hs
  have hendpoints : ∀ e ∈ relayEndpoints, hasQueryEnding (pathOf e.2.1) = false ∧
      (e.1 = "GET" → isFetchPath (pathOf e.2.1) = false) := by decide +kernel
  have hpost : ∀ route ∈ geminiRoutes, route.method = "POST" := by decide
  rcases (relay_route hroute hrelay).2 with ⟨e, he, rfl⟩ | hgemini
  · -- the fixed paths are neither those of queries nor those of fetches
    obtain ⟨hquery, hfetch⟩ := hendpoints e he
    have hpath : c.path = pathOf e.2.1 := eq_pathOf (matchPieces_lits hmatch).1
    rw [← hpath] at hquery hfetch
    rcases hpolls with ⟨hget, hfetched⟩ | ⟨_, hqueried⟩
    · rw [hfetch (hmethod.trans hget)] at hfetched
      cases hfetched
    · rw [hquery] at hqueried
      cases hqueried
  · rcases hpolls with ⟨hget, _⟩ | ⟨hempty, hquery⟩
    · rw [hmethod.symm.trans (hpost route hgemini)] at hget
      exact absurd hget (by decide)
    obtain ⟨hendpoint, hplayground⟩ :=
      endpointModel_of_gemini hquery (gemini_query_path hgemini hmatch hquery)
    rw [hempty, hendpoint, hplayground] at hmodel
    cases hmodel
    simp [compactModel]

theorem params_convert {converter : Converter} (h : convert i params converter = .ok c) :
    c.params = params := by
  cases converter with
  | none | kling =>
    cases h
    rfl
  | jimeng =>
    cases hjimeng : jimengRequestConvert i with
    | error rejection =>
      simp only [convert, hjimeng, Except.map] at h
      cases h
    | ok c' =>
      simp only [convert, hjimeng, Except.map] at h
      cases h
      rfl

theorem convert_none (h : convert i params .none = .ok c) :
    c.method = i.request.method ∧ c.path = i.request.path := by
  cases h
  exact ⟨rfl, rfl⟩

def sunoSubmitRoute : Route :=
  ⟨"POST", [.lit "", .lit "suno", .lit "submit", .param "action"], .none, .relayTask⟩

section

variable (hroute : route ∈ routes)

include hroute

theorem task_action {path : String} (htask : route.handler = .relayTask)
    (hmatch : matchPieces route.pieces (segments path) = some params) :
    findKey "action" params = none ∨ route = sunoSubmitRoute := by
  have hothers : ∀ route ∈ relayRoutes ++ geminiRoutes ++ notImplementedRoutes ++ mjRoutes,
      route.handler ≠ .relayTask := by decide
  have htasks : ∀ route ∈ taskRoutes.tail, "action" ∉ paramNames route.pieces := by decide
  have hmem : route ∈ taskRoutes := by
    by_contra hnot
    refine hothers route ?_ htask
    have hcases := mem_routes hroute
    simp only [mem_append]
    tauto
  rcases mem_cons.mp (show route ∈ sunoSubmitRoute :: taskRoutes.tail from hmem) with heq | htail
  · exact .inr heq
  left
  cases hfind : findKey "action" params with
  | none => rfl
  | some action =>
    have hkey : "action" ∈ params.map Prod.fst := mem_map_of_mem (mem_of_findKey hfind)
    rw [keys_matchPieces hmatch] at hkey
    exact absurd hkey (htasks route htail)

theorem suno_unselected_action (htask : route.handler = .relayTask)
    (hmethod : route.method = i.request.method)
    (hmatch : matchPieces route.pieces (segments i.request.path) = some params)
    (hconvert : convert i params route.converter = .ok c)
    (hpoll : c.method = "GET" ∨ hasSuffix c.path "/fetch" = true) :
    (c.param "action").toUpper ≠ "MUSIC" ∧ (c.param "action").toUpper ≠ "LYRICS" := by
  have hparams : c.params = params := params_convert hconvert
  rcases task_action hroute htask hmatch with hnone | rfl
  · have haction : c.param "action" = "" := by
      rw [Request.param, hparams, hnone]
      rfl
    rw [haction]
    decide +kernel
  cases hconvert
  obtain ⟨tail, hsegs, htail⟩ := matchPieces_lits_append ["", "suno", "submit"] hmatch
  obtain ⟨action, rest, _, rfl, hrest, rfl⟩ := matchPieces_param htail
  obtain ⟨rfl, rfl⟩ := @matchPieces_lits _ _ [] hrest
  rcases hpoll with hget | hfetch
  · exact absurd (hmethod.trans hget) (by decide)
  have hlast := @getLast_of_hasSuffix i.request.path "fetch" hfetch (by decide)
  rw [hsegs] at hlast
  have haction : action = "fetch" := Option.some.inj hlast
  subst haction
  show ("fetch" : String).toUpper ≠ "MUSIC" ∧ ("fetch" : String).toUpper ≠ "LYRICS"
  decide +kernel

theorem contains_mj {path : String} (hmj : route.handler = .relayMidjourney)
    (hmatch : matchPieces route.pieces (segments path) = some params) :
    contains path "/mj/" = true ∧ route.converter = .none := by
  have hothers : ∀ route ∈ relayRoutes ++ geminiRoutes ++ taskRoutes ++ notImplementedRoutes,
      route.handler ≠ .relayMidjourney := by decide
  have hends : ∀ e ∈ mjEndpoints, e.2 ≠ [] := by decide
  have hslashes : "/" ++ "mj" ++ "/" = "/mj/" := by decide
  have hmem : route ∈ mjRoutes := by
    by_contra hnot
    refine hothers route ?_ hmj
    have hcases := mem_routes hroute
    simp only [mem_append]
    tauto
  rcases mem_append.mp hmem with hmem | hmem
  · obtain ⟨e, he, rfl⟩ := mem_map.mp hmem
    obtain ⟨after, hsegs, hafter⟩ := matchPieces_lits_append ["", "mj"] hmatch
    have hafter' : after ≠ [] := ne_nil_of_matchPieces hafter (hends e he)
    exact ⟨hslashes ▸ @contains_of_segments _ _ [""] _ hsegs (cons_ne_nil _ _) hafter', rfl⟩
  obtain ⟨e, he, rfl⟩ := mem_map.mp hmem
  obtain ⟨tail, hsegs, htail⟩ := matchPieces_lits_append [""] hmatch
  obtain ⟨mode, rest, _, rfl, hrest, _⟩ := matchPieces_param htail
  obtain ⟨after, rfl, hafter⟩ := matchPieces_lits_append ["mj"] hrest
  have hafter' : after ≠ [] := ne_nil_of_matchPieces hafter (hends e he)
  exact ⟨hslashes ▸ @contains_of_segments _ _ ["", mode] _ hsegs (cons_ne_nil _ _) hafter', rfl⟩

/-- A request that needs no channel leads to no submission, if no channel is found for the empty
model name. -/
theorem handle_unselected (hmethod : route.method = i.request.method)
    (hmatch : matchPieces route.pieces (segments i.request.path) = some params)
    (hconvert : convert i params route.converter = .ok c)
    (h : getModelRequest sys.services token c = .ok found) (hs : found.shouldSelectChannel = false)
    (hunnamed : course.NoUnnamed) :
    handle sys i c ⟨found.model, none, found.platform⟩ course route.handler = none := by
  obtain ⟨start, model, hstart, _, hfound⟩ := getModelRequest_eq_ok h
  have hstartSelect : start.shouldSelectChannel = false := by
    rw [hfound] at hs
    exact hs
  obtain ⟨_, hplatform, hmidjourney⟩ := pathRequest_unselected hstart hstartSelect
  cases hhandler : route.handler with
  | relay format =>
    have hrelay : route.handler.isRelay = true := by rw [hhandler]; rfl
    obtain ⟨hsameMethod, hsamePath⟩ := convert_none ((relay_route hroute hrelay).1 ▸ hconvert)
    rw [← hsameMethod] at hmethod
    rw [← hsamePath] at hmatch
    have hempty : found.model = "" := relay_unselected_model hroute hrelay hmethod hmatch h hs
    simp only [handle, firstChannel, hempty]
    split
    · rw [hunnamed.2]
      rfl
    · exact relay_unselected hunnamed.1
  | relayMidjourney =>
    obtain ⟨hcontains, hnone⟩ := contains_mj hroute hhandler hmatch
    have hsamePath := (convert_none (hnone ▸ hconvert)).2
    rw [← hsamePath] at hcontains
    have hquery := hmidjourney hcontains
    cases hattempts : course.attempts with
    | nil => simp only [handle, hattempts, relayMidjourney]
    | cons attempt rest => simp [handle, hattempts, relayMidjourney, hquery]
  | relayTask =>
    refine relayTask_unselected rfl ?_
    rw [hfound]
    rcases hplatform with hnone | ⟨hsuno, hpoll⟩
    · exact .inl hnone
    · exact .inr ⟨hsuno, suno_unselected_action hroute hhandler hmethod hmatch hconvert hpoll⟩
  | relayTaskFetch | relayImageTaskFetch | relayNotImplemented => rfl

end

end Unselected

/-! ## What is billed -/

section Billed

variable {v : Services Channel} {token : TokenContext} {c : Request} {route : Route} {params : Params}
  {found : ModelRequest}

theorem hasCompactSuffix_of_compaction (hroute : route ∈ routes)
    (hcompaction : route.handler = .relay .openAIResponsesCompaction)
    (hmatch : matchPieces route.pieces (segments c.path) = some params)
    (h : getModelRequest v token c = .ok found) (hmodel : found.model ≠ "") :
    hasCompactSuffix found.model = true := by
  have hendpoints : ∀ e ∈ relayEndpoints, e.2.2 = .openAIResponsesCompaction →
      hasPrefix (pathOf e.2.1) "/v1/responses/compact" = true := by decide +kernel
  have hgemini : ∀ route ∈ geminiRoutes, route.handler ≠ .relay .openAIResponsesCompaction := by decide
  have hrelay : route.handler.isRelay = true := by
    rw [hcompaction]
    rfl
  rcases (relay_route hroute hrelay).2 with ⟨e, he, rfl⟩ | hmem
  · have hformat : e.2.2 = .openAIResponsesCompaction := Handler.relay.inj hcompaction
    have hcompact := hendpoints e he hformat
    rw [← eq_pathOf (matchPieces_lits hmatch).1] at hcompact
    obtain ⟨start, model, _, _, rfl⟩ := getModelRequest_eq_ok h
    unfold compactModel at hmodel ⊢
    by_cases hempty : model = ""
    · simp [hempty] at hmodel
    · rw [if_pos ⟨hcompact, hempty⟩]
      exact hasCompactSuffix_withCompactModelSuffix model
  · exact absurd hcompaction (hgemini route hmem)

theorem handle_billed {channel : Channel} {submission : Submission} (hmodel : found.model ≠ "")
    (hcompact : route.handler = .relay .openAIResponsesCompaction → hasCompactSuffix found.model = true)
    (h : handle sys i c ⟨found.model, some channel, found.platform⟩ course route.handler = some submission) :
    submission.billedModel = found.model ∨ route.handler = .relay .openAIResponsesCompaction ∧
        submission.billedModel = withCompactModelSuffix submission.upstreamModel := by
  cases hhandler : route.handler with
  | relay format =>
    rw [hhandler] at h
    obtain ⟨first, _, hrelay⟩ := Option.bind_eq_some_iff.mp h
    have hmode : format.mode = .responsesCompact → format = .openAIResponsesCompaction := by cases format <;> decide
    have hbilled := relay_billed (fun hcompaction => hcompact (by rw [hhandler, hmode hcompaction])) hrelay
    by_cases hcompaction : format.mode = .responsesCompact
    · right
      refine ⟨by rw [hmode hcompaction], ?_⟩
      rwa [if_pos hcompaction] at hbilled
    · left
      rwa [if_neg hcompaction] at hbilled
  | relayMidjourney =>
    left
    rw [hhandler] at h
    simp only [handle] at h
    rcases hattempts : course.attempts with _ | ⟨attempt, rest⟩
    · rw [hattempts] at h
      cases h
    simp only [hattempts, relayMidjourney] at h
    split at h
    · cases h
    split at h
    · cases h
      rfl
    · cases h
  | relayTask =>
    left
    rw [hhandler] at h
    exact @relayTask_billed sys.mapping sys.tasks i.sunoPrompt c ⟨found.model, some channel,
      found.platform⟩
      course.attempts submission hmodel h
  | relayTaskFetch | relayImageTaskFetch | relayNotImplemented =>
    rw [hhandler] at h
    cases h

end Billed

theorem enter_eq_some {token : TokenContext} {route : Route} {c : Request}
    {passed : Passed Channel} (h : enter sys token i = some (route, c, passed)) :
    ∃ params, findRoute i.request.method i.request.path = some (route, params) ∧
      convert i params route.converter = .ok c ∧ distribute sys.services token c = .ok passed := by
  unfold enter at h
  split at h
  · cases h
  rename_i route' params hroute
  split at h
  · cases h
  rename_i c' hconvert
  split at h
  · cases h
  rename_i passed' hpassed
  cases h
  exact ⟨params, hroute, hconvert, hpassed⟩

/-- With a limited token, every paid submission is for a model within the limits and is billed under
that model, or under its compaction name if it is a compaction. -/
theorem billed_within_limits (sys : System) (token : TokenContext) (i : Incoming) (course : Course)
    (submission : Submission) (hspecific : token.specificChannelId = none)
    (hlimit : token.modelLimitEnabled = true) (hunnamed : course.NoUnnamed)
    (h : serve sys token i course = some submission) :
    ∃ route c passed limit, enter sys token i = some (route, c, passed) ∧
      token.modelLimit = some limit ∧
      formatMatchingModelName passed.originalModel ∈ limit ∧
      (submission.billedModel = passed.originalModel ∨ route.handler = .relay .openAIResponsesCompaction ∧
          submission.billedModel = withCompactModelSuffix submission.upstreamModel) := by
  obtain ⟨⟨route, c, passed⟩, henter, hhandle⟩ := Option.bind_eq_some_iff.mp h
  obtain ⟨params, hfind, hconvert, hpassed⟩ := enter_eq_some henter
  obtain ⟨hroute, hmethod, hmatch⟩ := findRoute_eq_some hfind
  obtain ⟨found, hfound, ⟨channel, limit, rfl, hmodel, hset, hmem⟩ | ⟨hselect, rfl⟩⟩ :=
    distribute_ok hspecific hlimit hpassed
  · refine ⟨route, c, _, limit, henter, hset, hmem, ?_⟩
    refine handle_billed hmodel ?_ hhandle
    intro hcompaction
    have hrelay : route.handler.isRelay = true := by
      rw [hcompaction]
      rfl
    have hsamePath := (convert_none ((relay_route hroute hrelay).1 ▸ hconvert)).2
    rw [← hsamePath] at hmatch
    exact hasCompactSuffix_of_compaction hroute hcompaction hmatch hfound hmodel
  · -- nothing is submitted for a request that needs no channel
    rw [handle_unselected hroute hmethod hmatch hconvert hfound hselect hunnamed] at hhandle
    cases hhandle

/-- A system in which one channel serves every model, with these redirects. -/
def oneChannelSystem (modelMapping : List (String × String)) : System where
  services :=
    { taskOriginModel := fun _ => ""
      isOmniVideoModel := fun _ => false
      specificChannel := fun _ => none
      preferredChannel := fun _ _ => none
      satisfiedChannel := fun _ _ => .ok (some ⟨1, some modelMapping⟩)
      groupUsable := fun _ _ => true }
  tasks := ⟨fun _ => .ok none, fun _ => none, fun _ => false⟩
  mapping := ⟨.unset, false⟩

def postRequest (path model : String) : Incoming where
  request :=
    { method := "POST"
      path := path
      contentType := "application/json"
      mime := "application/json"
      params := []
      queryModel := ""
      taskId := ""
      bodyModel := .ok (model, "")
      midjourney := .ok ⟨"", ""⟩
      playgroundGroup := .ok "" }
  queryAction := ""
  convertedBody := none
  sunoPrompt := none
  thinkingBudget := none

def limitedToken (limit : List String) : TokenContext := ⟨none, true, some limit, "default"⟩

def servedAtOnce : Course := ⟨[⟨.served, fun _ => none⟩], fun _ => none⟩

theorem servedAtOnce_noUnnamed : servedAtOnce.NoUnnamed := by
  refine ⟨?_, rfl⟩
  intro attempt hmem
  cases mem_singleton.mp hmem
  rfl

/-- A chat request for a model within the limits. -/
theorem chat_billed_within_limits : ∃ submission route c passed limit,
      serve (oneChannelSystem []) (limitedToken ["gpt-4o"]) (postRequest "/v1/chat/completions" "gpt-4o") servedAtOnce =
        some submission ∧
      enter (oneChannelSystem []) (limitedToken ["gpt-4o"]) (postRequest "/v1/chat/completions" "gpt-4o") =
        some (route, c, passed) ∧
      (limitedToken ["gpt-4o"]).modelLimit = some limit ∧ formatMatchingModelName passed.originalModel ∈ limit ∧
      (submission.billedModel = passed.originalModel ∨ route.handler = .relay .openAIResponsesCompaction ∧
          submission.billedModel = withCompactModelSuffix submission.upstreamModel) := by
  have hserve : serve (oneChannelSystem []) (limitedToken ["gpt-4o"]) (postRequest "/v1/chat/completions" "gpt-4o")
      servedAtOnce = some ⟨"gpt-4o", "gpt-4o"⟩ := by decide +kernel
  obtain ⟨route, c, passed, limit, hresult⟩ := billed_within_limits (oneChannelSystem []) (limitedToken ["gpt-4o"])
    (postRequest "/v1/chat/completions" "gpt-4o") servedAtOnce ⟨"gpt-4o", "gpt-4o"⟩ rfl rfl servedAtOnce_noUnnamed hserve
  exact ⟨⟨"gpt-4o", "gpt-4o"⟩, route, c, passed, limit, hserve, hresult⟩

/-- A compaction on a channel that redirects its model to another one is submitted and billed under
names outside the limits. -/
theorem compaction_billed_outside_limits :
    serve (oneChannelSystem [("gpt-5", "gpt-5-mini")]) (limitedToken ["gpt-5-openai-compact"])
        (postRequest "/v1/responses/compact" "gpt-5") servedAtOnce =
      some ⟨"gpt-5-mini-openai-compact", "gpt-5-mini"⟩ ∧
    formatMatchingModelName "gpt-5-mini-openai-compact" ∉ ["gpt-5-openai-compact"] ∧
    formatMatchingModelName "gpt-5-mini" ∉ ["gpt-5-openai-compact"] := by
  decide +kernel

end NewApi.Middleware
