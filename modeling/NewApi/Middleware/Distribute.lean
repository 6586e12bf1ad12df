import NewApi.Lib.Route
import NewApi.Relay.Price

/-!
# Distribution of requests to channels (`middleware/distributor.go`)

`getModelRequest` finds the model of a request and whether a channel is to be selected for it. It
decides by path, method and content type, in a chain of cases. `Distribute` then checks the name
against the model limits of the token, but only if a channel is to be selected, and selects a
channel.

* `path2RelayModeMidjourney`, `path2RelaySuno`, `getMjRequestModel` — the parts of the chain for
  task platforms.
* `getModelRequest`, `distribute`.

## Results

* `pathRequest_unselected` — a request that needs no channel has no model, and its path ends like
  that of a query or of a remix; or it is a `GET` for a task.
-/

namespace NewApi.Middleware

open NewApi.Text NewApi.Route NewApi.Channels

/-! ## Requests -/

/-- What `MidjourneyRequest` tells about the action. -/
structure MidjourneyRequest where
  action : String
  customId : String
deriving DecidableEq, Repr

/-- A request as `Distribute` sees it. -/
structure Request where
  method : String
  path : String
  /-- The header `Content-Type`. -/
  contentType : String
  /-- `c.ContentType()`. -/
  mime : String
  /-- The parameters of the route. -/
  params : Params
  /-- The query parameter `model`. -/
  queryModel : String
  /-- The key `task_id` of the context. -/
  taskId : String
  /-- What `getModelFromRequest` reads of the body: model and group. -/
  bodyModel : Except String (String × String)
  /-- The body as a Midjourney request. -/
  midjourney : Except String MidjourneyRequest
  /-- The group of the body as a playground request. -/
  playgroundGroup : Except String String

def Request.param (c : Request) (name : String) : String := (findKey name c.params).getD ""

/-! ## Midjourney -/

inductive MidjourneyMode where
  | unknown
  | action
  | modal
  | shorten
  | swapFace
  | upload
  | imagine
  | video
  | edits
  | blend
  | describe
  | notify
  | change
  | taskFetch
  | taskImageSeed
  | taskFetchByCondition
deriving DecidableEq, Repr

/-- The cases of `Path2RelayModeMidjourney`, in their order: what the path ends with. -/
def midjourneyEndings : List (String × MidjourneyMode) :=
  [("/mj/submit/action", .action), ("/mj/submit/modal", .modal), ("/mj/submit/shorten", .shorten),
    ("/mj/insight-face/swap", .swapFace),
    ("/submit/upload-discord-images", .upload),
    ("/mj/submit/imagine", .imagine),
    ("/mj/submit/video", .video),
    ("/mj/submit/edits", .edits),
    ("/mj/submit/blend", .blend),
    ("/mj/submit/describe", .describe),
    ("/mj/notify", .notify),
    ("/mj/submit/change", .change),
    ("/mj/submit/simple-change", .change),
    ("/fetch", .taskFetch),
    ("/image-seed", .taskImageSeed),
    ("/list-by-condition", .taskFetchByCondition)]

def path2RelayModeMidjourney (path : String) : MidjourneyMode :=
  ((midjourneyEndings.find? fun e => hasSuffix path e.1).map Prod.snd).getD .unknown

/-- The modes for which no channel is selected. -/
def MidjourneyMode.isQuery : MidjourneyMode → Bool
  | .taskFetch | .taskFetchByCondition | .notify | .taskImageSeed => true
  | _ => false

/-- How reading a request can fail: with an error, or with a panic. -/
inductive Failure where
  | invalid (message : String)
  | panicked
deriving DecidableEq, Repr

/-- `strings.Split(s, "::")`. -/
def splitDoubleColon : List Char → List (List Char)
  | [] => [[]]
  | ':' :: ':' :: rest => [] :: splitDoubleColon rest
  | c :: rest =>
    match splitDoubleColon rest with
    | [] => [[c]]
    | first :: more => (c :: first) :: more

/-- Whether `strconv.Atoi` reads the text. -/
def isAtoi (text : List Char) : Bool :=
  let digits := match text with
    | '-' :: rest | '+' :: rest => rest
    | _ => text
  !digits.isEmpty && digits.all Char.isDigit && decide (digits.foldl (fun n c => 10 * n + (c.toNat - '0'.toNat)) 0 <
      2 ^ 63 + if text.head? = some '-' then 1 else 0)

/-- The index of `splits[3]`; its value does not matter for the model. -/
def checkIndex (splits : List (List Char)) : Except Failure Unit :=
  match splits[3]? with
  | none => .error .panicked
  | some index => if isAtoi index then .ok () else .error (.invalid "index_parse_failed")

/-- The action in the custom id. -/
def customAction (splits : List (List Char)) : Except Failure String :=
  match splits[1]? with
  | none => .error .panicked
  | some second =>
    if second = "JOB".toList then
      match splits[2]? with
      | none => .error .panicked
      | some third => .ok (String.ofList third)
    else .ok (String.ofList second)

/-- `CoverPlusActionToNormalAction`, as far as the action goes. -/
def coverPlusActionToNormalAction (r : MidjourneyRequest) : Except Failure String :=
  if r.customId = "" then .error (.invalid "custom_id_is_required")
  else do
    let splits := splitDoubleColon r.customId.toList
    let action ← customAction splits
    if action = "" then .error (.invalid "unknown_action")
    else if contains action "upsample" then
      checkIndex splits
      return "UPSCALE"
    else if contains action "variation" then
      if action = "variation" then
        checkIndex splits
        return "VARIATION"
      else if action = "low_variation" then return "LOW_VARIATION"
      else if action = "high_variation" then return "HIGH_VARIATION"
      else return r.action
    else if contains action "pan" then return "PAN"
    else if contains action "reroll" then return "REROLL"
    else if action = "Outpaint" then return "ZOOM"
    else if action = "CustomZoom" then return "CUSTOM_ZOOM"
    else if action = "Inpaint" then return "INPAINT"
    else .error (.invalid ("unknown_action:" ++ r.customId))

def covertMjpActionToModelName (mjAction : String) : String :=
  if mjAction = "SWAP_FACE" then "swap_face" else "mj_" ++ mjAction.toLower

/-- `GetMjRequestModel`. `none` is a request without a model that is no error. -/
def getMjRequestModel (relayMode : MidjourneyMode) (r : MidjourneyRequest) :
    Except Failure (Option String) :=
  match relayMode with
  | .action => (coverPlusActionToNormalAction r).map fun action => some (covertMjpActionToModelName action)
  | .imagine => .ok (some (covertMjpActionToModelName "IMAGINE"))
  | .video => .ok (some (covertMjpActionToModelName "VIDEO"))
  | .edits => .ok (some (covertMjpActionToModelName "EDITS"))
  | .describe => .ok (some (covertMjpActionToModelName "DESCRIBE"))
  | .blend => .ok (some (covertMjpActionToModelName "BLEND"))
  | .shorten => .ok (some (covertMjpActionToModelName "SHORTEN"))
  | .change => .ok (some (covertMjpActionToModelName r.action))
  | .modal => .ok (some (covertMjpActionToModelName "MODAL"))
  | .swapFace => .ok (some (covertMjpActionToModelName "SWAP_FACE"))
  | .upload => .ok (some (covertMjpActionToModelName "UPLOAD"))
  | .taskFetch | .taskFetchByCondition | .notify => .ok none
  | .taskImageSeed | .unknown => .error (.invalid "unknown_relay_action")

/-! ## The model of a request -/

inductive SunoMode where
  | unknown
  | fetch
  | fetchByID
  | submit
deriving DecidableEq, Repr

def path2RelaySuno (method path : String) : SunoMode :=
  if method = "POST" ∧ hasSuffix path "/fetch" = true then .fetch
  else if method = "GET" ∧ contains path "/fetch/" = true then .fetchByID
  else if contains path "/submit/" then .submit
  else .unknown

def coverTaskActionToModelName (platform action : String) : String := platform.toLower ++ "_" ++ action.toLower

def extractGeminiPathModel (path : String) : String :=
  match cutFirst "/models/".toList path.toList with
  | none => ""
  | some (_, rest) =>
    match cutFirst [':'] rest with
    | none => String.ofList rest
    | some (model, _) => String.ofList model

/-- What `getModelRequest` finds: the model, whether a channel is to be selected, and the platform
    it puts into the context. -/
structure ModelRequest where
  model : String
  shouldSelectChannel : Bool
  platform : String
deriving DecidableEq, Repr

/-- What the middleware asks of the rest of the program. -/
structure Services (Channel : Type) where
  /-- The origin model of the task with this id, as `getTaskOriginModelName` finds it. -/
  taskOriginModel : String → String
  isOmniVideoModel : String → Bool
  /-- The channel of a token that is bound to one: found, and whether it is enabled. -/
  specificChannel : String → Option (Channel × Bool)
  /-- The channel of `GetPreferredChannelByAffinity`, if it is usable for the group and model. -/
  preferredChannel : String → String → Option Channel
  /-- `CacheGetRandomSatisfiedChannel`. -/
  satisfiedChannel : String → String → Except String (Option Channel)
  /-- `GroupInUserUsableGroups`. -/
  groupUsable : String → String → Bool

/-- What the token puts into the context. -/
structure TokenContext where
  specificChannelId : Option String
  modelLimitEnabled : Bool
  modelLimit : Option (List String)
  usingGroup : String

section ModelRequest

variable {Channel : Type} (v : Services Channel) (token : TokenContext) (c : Request)

def getTaskOriginModelName : String :=
  if token.modelLimitEnabled then
    let taskId := if c.param "task_id" ≠ "" then c.param "task_id" else c.taskId
    if taskId = "" then "" else v.taskOriginModel taskId
  else ""

def Request.getModelFromRequest (c : Request) : Except Failure (String × String) :=
  match c.bodyModel with
  | .ok found => .ok found
  | .error _ => .error (.invalid "distributor.invalid_request")

def midjourneyRequest : Except Failure ModelRequest :=
  let relayMode := path2RelayModeMidjourney c.path
  if relayMode.isQuery then .ok ⟨"", false, ""⟩
  else
    match c.midjourney with
    | .error _ => .error (.invalid "distributor.invalid_midjourney_request")
    | .ok r =>
      match getMjRequestModel relayMode r with
      | .error failure => .error failure
      | .ok none => .ok ⟨"", false, ""⟩
      | .ok (some model) => .ok ⟨model, true, ""⟩

def sunoRequest : ModelRequest :=
  match path2RelaySuno c.method c.path with
  | .fetch | .fetchByID => ⟨"", false, "suno"⟩
  | .submit | .unknown => ⟨coverTaskActionToModelName "suno" (c.param "action"), true, "suno"⟩

def isRemixPath (path : String) : Bool := contains path "/v1/videos/" && hasSuffix path "/remix"

/-- The chain of cases by path. -/
def pathRequest : Except Failure ModelRequest :=
  if contains c.path "/mj/" then midjourneyRequest c
  else if contains c.path "/suno/" then .ok (sunoRequest c)
  else if isRemixPath c.path then .ok ⟨"", false, ""⟩
  else if contains c.path "/v1/videos" then
    if c.method = "POST" then c.getModelFromRequest.map fun found => ⟨found.1, true, ""⟩
    else if c.method = "GET" then .ok ⟨getTaskOriginModelName v token c, false, ""⟩
    else .ok ⟨"", true, ""⟩
  else if hasPrefix c.path "/v1/images/edits/" && decide (c.method = "GET") then
    .ok ⟨getTaskOriginModelName v token c, false, ""⟩
  else if hasPrefix c.path "/v1/images/generations/" && decide (c.method = "GET") then
    .ok ⟨getTaskOriginModelName v token c, false, ""⟩
  else if hasPrefix c.path "/v1beta/models/" || hasPrefix c.path "/v1/models/" then
    .ok ⟨extractGeminiPathModel c.path, true, ""⟩
  else if !hasPrefix c.path "/v1/audio/transcriptions" && !contains c.contentType "multipart/form-data" then
    c.getModelFromRequest.map fun found => ⟨found.1, true, ""⟩
  else .ok ⟨"", true, ""⟩

/-- `GetStringIfEmpty`. -/
def orDefault (model default : String) : String := if model = "" then default else model

/-- The model of the body, if it can be read and is not empty. -/
def Request.bodyModelOr (c : Request) (model : String) : String :=
  match c.bodyModel with
  | .ok found => orDefault found.1 model
  | .error _ => model

def imageModel (model : String) : String :=
  if hasPrefix c.path "/v1/images/generations" then orDefault model "dall-e"
  else if hasPrefix c.path "/v1/images/edits" then
    if c.mime = "application/x-www-form-urlencoded" ∨ c.mime = "multipart/form-data" then c.bodyModelOr model
    else model
  else model

def audioModel (model : String) : String :=
  if hasPrefix c.path "/v1/audio" then
    if hasPrefix c.path "/v1/audio/speech" then orDefault model "tts-1"
    else if hasPrefix c.path "/v1/audio/translations" then orDefault (c.bodyModelOr model) "whisper-1"
    else if hasPrefix c.path "/v1/audio/transcriptions" then orDefault (c.bodyModelOr model) "whisper-1"
    else model
  else model

/-- The cases after the chain that do not fail. -/
def endpointModel (model : String) : String :=
  let model := if hasPrefix c.path "/v1/realtime" then c.queryModel else model
  let model := if hasPrefix c.path "/v1/moderations" then orDefault model "text-moderation-stable" else model
  let model := if hasSuffix c.path "embeddings" then orDefault model (c.param "model") else model
  audioModel c (imageModel c model)

def validateOmniVideoEndpoint (modelName : String) : Except Failure Unit :=
  let modelName := trimSpace modelName
  if modelName = "" then .ok ()
  else if hasPrefix c.path "/v1/videos" then .ok ()
  else if !v.isOmniVideoModel modelName then .ok ()
  else if hasPrefix c.path "/v1/responses" || decide (c.path = "/v1/chat/completions") ||
      hasPrefix c.path "/pg/chat/completions" then
    .error (.invalid ("模型 " ++ modelName ++ " 为 Omni 异步视频，请使用 POST /v1/videos 提交任务"))
  else .ok ()

/-- The model of a playground request is read again. -/
def playgroundModel (model : String) : Except Failure String :=
  if hasPrefix c.path "/pg/chat/completions" then c.getModelFromRequest.map Prod.fst else .ok model

/-- A compaction has a name of its own. -/
def compactModel (model : String) : String :=
  if hasPrefix c.path "/v1/responses/compact" ∧ model ≠ "" then Relay.withCompactModelSuffix model else model

def getModelRequest : Except Failure ModelRequest := do
  let found ← pathRequest v token c
  let model ← playgroundModel c (endpointModel c found.model)
  let model := compactModel c model
  validateOmniVideoEndpoint v c model
  return { found with model := model }

end ModelRequest

/-! ## Distribution -/

/-- How `Distribute` turns a request down. -/
inductive Rejection where
  | aborted (status : Nat) (message : String)
  | panicked
deriving DecidableEq, Repr

/-- A request that gets past `Distribute`: the key `original_model`, the channel in the context and
the platform. -/
structure Passed (Channel : Type) where
  originalModel : String
  channel : Option Channel
  platform : String

section Distribute

variable {Channel : Type} (v : Services Channel) (token : TokenContext) (c : Request)

def checkModelLimit (model : String) : Except Rejection Unit :=
  if token.modelLimitEnabled then
    match token.modelLimit with
    | none => .error (.aborted 403 "distributor.token_no_model_access")
    | some limit =>
      if formatMatchingModelName model ∈ limit then .ok ()
      else .error (.aborted 403 "distributor.token_model_forbidden")
  else .ok ()

def selectionGroup : Except Rejection String :=
  if hasPrefix c.path "/pg/chat/completions" then
    match c.playgroundGroup with
    | .error _ => .error (.aborted 400 "distributor.invalid_playground_request")
    | .ok group =>
      if group = "" then .ok token.usingGroup
      else if !v.groupUsable token.usingGroup group && decide (group ≠ token.usingGroup) then
        .error (.aborted 403 "distributor.group_access_denied")
      else .ok group
  else .ok token.usingGroup

/-- The channel of the request's affinity, or one of those that serve the model. -/
def selectChannel (group model : String) : Except Rejection Channel :=
  match v.preferredChannel group model with
  | some channel => .ok channel
  | none =>
    match v.satisfiedChannel group model with
    | .error _ => .error (.aborted 503 "distributor.get_channel_failed")
    | .ok none => .error (.aborted 503 "distributor.no_available_channel")
    | .ok (some channel) => .ok channel

/-- A model is needed to select a channel. -/
def requireModel (model : String) : Except Rejection Unit :=
  if model = "" then .error (.aborted 400 "distributor.model_name_required") else .ok ()

/-- `Distribute` for a token that is not bound to a channel. -/
def selectForModel (found : ModelRequest) : Except Rejection (Passed Channel) :=
  if found.shouldSelectChannel then do
    checkModelLimit token found.model
    requireModel found.model
    let group ← selectionGroup v token c
    let channel ← selectChannel v group found.model
    return ⟨found.model, some channel, found.platform⟩
  else .ok ⟨found.model, none, found.platform⟩

def distribute : Except Rejection (Passed Channel) :=
  match getModelRequest v token c with
  | .error .panicked => .error .panicked
  | .error (.invalid message) => .error (.aborted 400 message)
  | .ok found =>
    match token.specificChannelId with
    | some id =>
      match v.specificChannel id with
      | none => .error (.aborted 400 "distributor.invalid_channel_id")
      | some (_, false) => .error (.aborted 403 "distributor.channel_disabled")
      | some (channel, true) => .ok ⟨found.model, some channel, found.platform⟩
    | none => selectForModel v token c found

end Distribute

/-! ## Requests that need no channel -/

def queryEndings : List String := ["/fetch", "/image-seed", "/list-by-condition", "/mj/notify", "/remix"]

def hasQueryEnding (path : String) : Bool := queryEndings.any fun ending => hasSuffix path ending

section Unselected

variable {Channel : Type} {v : Services Channel} {token : TokenContext} {c : Request} {found : ModelRequest}

theorem hasQueryEnding_of_hasSuffix {path ending : String} (h : hasSuffix path ending = true)
    (hending : ending ∈ queryEndings) : hasQueryEnding path = true :=
  List.any_eq_true.mpr ⟨ending, hending, h⟩

theorem hasQueryEnding_of_isQuery {path : String}
    (h : (path2RelayModeMidjourney path).isQuery = true) : hasQueryEnding path = true := by
  have hqueries : ∀ e ∈ midjourneyEndings, e.2.isQuery = true → e.1 ∈ queryEndings := by decide
  cases hfind : midjourneyEndings.find? fun e => hasSuffix path e.1 with
  | none =>
    rw [path2RelayModeMidjourney, hfind] at h
    cases h
  | some e =>
    rw [path2RelayModeMidjourney, hfind] at h
    have hsuffix : hasSuffix path e.1 = true :=
      List.find?_some (p := fun e : String × MidjourneyMode => hasSuffix path e.1) hfind
    exact hasQueryEnding_of_hasSuffix hsuffix (hqueries e (List.mem_of_find?_eq_some hfind) h)

theorem isQuery_of_getMjRequestModel {relayMode : MidjourneyMode} {r : MidjourneyRequest}
    (h : getMjRequestModel relayMode r = .ok none) : relayMode.isQuery = true := by
  cases relayMode with
  | action =>
    simp only [getMjRequestModel] at h
    cases hcover : coverPlusActionToNormalAction r with
    | error failure | ok action =>
      rw [hcover] at h
      cases h
  | taskFetch => rfl
  | taskFetchByCondition => rfl
  | notify => rfl
  | _ => cases h

theorem midjourneyRequest_unselected (h : midjourneyRequest c = .ok found)
    (hs : found.shouldSelectChannel = false) :
    (path2RelayModeMidjourney c.path).isQuery = true ∧ found = ⟨"", false, ""⟩ := by
  simp only [midjourneyRequest] at h
  split at h
  case isTrue hquery => exact ⟨hquery, (Except.ok.inj h).symm⟩
  case isFalse hquery =>
    split at h
    · cases h
    split at h
    · cases h
    · rename_i hmodel
      exact absurd (isQuery_of_getMjRequestModel hmodel) hquery
    · cases h
      cases hs

theorem sunoRequest_unselected (hs : (sunoRequest c).shouldSelectChannel = false) :
    sunoRequest c = ⟨"", false, "suno"⟩ ∧
      (c.method = "GET" ∨ c.method = "POST" ∧ hasSuffix c.path "/fetch" = true) := by
  have hmode : path2RelaySuno c.method c.path = .fetch ∨ path2RelaySuno c.method c.path = .fetchByID := by
    cases hmode : path2RelaySuno c.method c.path with
    | fetch => exact .inl rfl
    | fetchByID => exact .inr rfl
    | submit | unknown =>
      rw [sunoRequest, hmode] at hs
      cases hs
  refine ⟨?_, ?_⟩
  · unfold sunoRequest
    rcases hmode with hmode | hmode <;> rw [hmode]
  unfold path2RelaySuno at hmode
  split_ifs at hmode with hpost hget
  · exact .inr hpost
  · exact .inl hget.1
  all_goals rcases hmode with hmode | hmode <;> cases hmode

/-- The paths on which a `GET` asks for a task. -/
def isFetchPath (path : String) : Bool :=
  contains path "/suno/" || contains path "/v1/videos" || hasPrefix path "/v1/images/edits/" ||
    hasPrefix path "/v1/images/generations/"

/-- What the chain says of a request that needs no channel. -/
structure Unselected (c : Request) (found : ModelRequest) : Prop where
  /-- It is a `GET` for a task, or it has no model and its path tells. -/
  polls : (c.method = "GET" ∧ isFetchPath c.path = true) ∨ (found.model = "" ∧ hasQueryEnding c.path = true)
  /-- The platform is set for Suno only. -/
  platform : found.platform = "" ∨ found.platform = "suno" ∧ (c.method = "GET" ∨ hasSuffix c.path "/fetch" = true)
  /-- On a `/mj/` path it is a query. -/
  midjourney : contains c.path "/mj/" = true → (path2RelayModeMidjourney c.path).isQuery = true

attribute [local simp] isFetchPath

theorem pathRequest_unselected (h : pathRequest v token c = .ok found)
    (hs : found.shouldSelectChannel = false) : Unselected c found := by
  unfold pathRequest at h
  -- a body is read only for requests that need a channel
  have hbody : ∀ found', c.getModelFromRequest.map (fun m => (⟨m.1, true, ""⟩ : ModelRequest)) = .ok found' →
      found'.shouldSelectChannel = true := by
    intro found' hfound
    cases hread : c.getModelFromRequest with
    | error failure =>
      rw [hread] at hfound
      cases hfound
    | ok m =>
      rw [hread] at hfound
      cases hfound
      rfl
  split_ifs at h with hmj hsuno hremix hvideos hpost hget hedits hgenerations hgemini hread
  · obtain ⟨hquery, rfl⟩ := midjourneyRequest_unselected h hs
    exact ⟨.inr ⟨rfl, hasQueryEnding_of_isQuery hquery⟩, .inl rfl, fun _ => hquery⟩
  · cases h
    obtain ⟨heq, hmethod⟩ := sunoRequest_unselected hs
    rw [heq]
    refine ⟨?_, .inr ⟨rfl, hmethod.imp_right And.right⟩, fun h => absurd h hmj⟩
    rcases hmethod with hget | hpost
    · exact .inl ⟨hget, by simp [hsuno]⟩
    · exact .inr ⟨rfl, hasQueryEnding_of_hasSuffix hpost.2 (by decide)⟩
  · cases h
    refine ⟨.inr ⟨rfl, ?_⟩, .inl rfl, fun h => absurd h hmj⟩
    exact hasQueryEnding_of_hasSuffix (Bool.and_eq_true_iff.mp hremix).2 (by decide)
  · exact absurd (hbody found h) (by rw [hs]; decide)
  · cases h
    exact ⟨.inl ⟨hget, by simp [hvideos]⟩, .inl rfl, fun h => absurd h hmj⟩
  · cases h
    cases hs
  · cases h
    obtain ⟨hpath, hget⟩ := Bool.and_eq_true_iff.mp hedits
    exact ⟨.inl ⟨of_decide_eq_true hget, by simp [hpath]⟩, .inl rfl, fun h => absurd h hmj⟩
  · cases h
    obtain ⟨hpath, hget⟩ := Bool.and_eq_true_iff.mp hgenerations
    exact ⟨.inl ⟨of_decide_eq_true hget, by simp [hpath]⟩, .inl rfl, fun h => absurd h hmj⟩
  · cases h
    cases hs
  · exact absurd (hbody found h) (by rw [hs]; decide)
  · cases h
    cases hs

theorem getModelRequest_eq_ok (h : getModelRequest v token c = .ok found) :
    ∃ start model, pathRequest v token c = .ok start ∧
      playgroundModel c (endpointModel c start.model) = .ok model ∧
      found = { start with model := compactModel c model } := by
  obtain ⟨start, hstart, h⟩ := bind_eq_ok h
  obtain ⟨model, hmodel, h⟩ := bind_eq_ok h
  obtain ⟨_, _, h⟩ := bind_eq_ok h
  exact ⟨start, model, hstart, hmodel, (Except.ok.inj h).symm⟩

end Unselected

/-! ## Requests with a channel -/

section Selected

variable {Channel : Type} {v : Services Channel} {token : TokenContext} {c : Request} {passed : Passed Channel}

theorem mem_of_checkModelLimit {model : String} (hlimit : token.modelLimitEnabled = true)
    (h : checkModelLimit token model = .ok ()) :
    ∃ limit, token.modelLimit = some limit ∧ formatMatchingModelName model ∈ limit := by
  unfold checkModelLimit at h
  rw [if_pos hlimit] at h
  rcases hset : token.modelLimit with _ | limit
  · rw [hset] at h
    cases h
  simp only [hset] at h
  split at h
  case isTrue hmem => exact ⟨limit, rfl, hmem⟩
  case isFalse => cases h

/-- A request that gets past `Distribute` with a limited token has a channel and a model within the
limits, or needs no channel. -/
theorem distribute_ok (hspecific : token.specificChannelId = none)
    (hlimit : token.modelLimitEnabled = true) (h : distribute v token c = .ok passed) :
    ∃ found, getModelRequest v token c = .ok found ∧
      ((∃ channel limit, passed = ⟨found.model, some channel, found.platform⟩ ∧ found.model ≠ "" ∧
          token.modelLimit = some limit ∧ formatMatchingModelName found.model ∈ limit) ∨
        (found.shouldSelectChannel = false ∧ passed = ⟨found.model, none, found.platform⟩)) := by
  unfold distribute at h
  rcases hfound : getModelRequest v token c with failure | found
  · rw [hfound] at h
    cases failure <;> cases h
  simp only [hfound, hspecific, selectForModel] at h
  split at h
  case isFalse hs =>
    cases h
    exact ⟨found, rfl, .inr ⟨Bool.not_eq_true _ ▸ hs, rfl⟩⟩
  case isTrue hs =>
    refine ⟨found, rfl, .inl ?_⟩
    obtain ⟨_, hcheck, h⟩ := bind_eq_ok h
    obtain ⟨_, hmodel, h⟩ := bind_eq_ok h
    obtain ⟨group, _, h⟩ := bind_eq_ok h
    obtain ⟨channel, _, h⟩ := bind_eq_ok h
    cases h
    obtain ⟨limit, hset, hmem⟩ := mem_of_checkModelLimit hlimit hcheck
    refine ⟨channel, limit, rfl, ?_, hset, hmem⟩
    intro hempty
    rw [requireModel, if_pos hempty] at hmodel
    cases hmodel

end Selected

end NewApi.Middleware
