import NewApi.Relay.HeaderOverride
import NewApi.Relay.ModelMapped

/-!
# What an attempt sends besides the body

The data of the channel in use travel in the request's context and in its relay info, which all
attempts of the request share. `SetupContextForSelectedChannel` writes the keys of a selected
channel, some of them only when the channel has a value or is of a certain type; `InitChannelMeta`
reads them; the handlers apply the channel's parameter override, whose headers stay in the relay
info.

* `RequestState.getEffectiveHeaderOverride`, `RequestState.sent` — what goes upstream: header
  overrides, and organisation, API version, region, plugin or bot id as the channel's type takes
  them.
-/

namespace NewApi.Relay

open NewApi.Text

/-! ## Channels -/

def channelTypeOpenAI : Int := 1

def channelTypeAzure : Int := 3

def channelTypeAli : Int := 17

def channelTypeXunfei : Int := 18

def channelTypeGemini : Int := 24

def channelCloudflare : Int := 39

def channelTypeVertexAi : Int := 41

def channelTypeMokaAI : Int := 44

def channelTypeCoze : Int := 49

/-- What a channel contributes. The parameter override is the one after the affinity rule of the
    request, which is the same for all attempts, has been merged into it. -/
structure ChannelConfig (Field Condition BodyOp : Type) where
  type : Int
  other : String
  openAIOrganization : Option String
  headerOverride : HeaderMap
  paramOverride : ParamOverride Field Condition BodyOp
  modelMapping : Option (List (String × String))

/-- The keys of the context that `SetupContextForSelectedChannel` writes. -/
structure ChannelKeys (Field Condition BodyOp : Type) where
  type : Int
  headerOverride : HeaderMap
  paramOverride : ParamOverride Field Condition BodyOp
  modelMapping : Option (List (String × String))
  organization : String
  apiVersion : String
  region : String
  plugin : String
  botId : String

variable {Body Field Condition BodyOp : Type}

/-- A context in which no channel has been selected. -/
def ChannelKeys.unset : ChannelKeys Field Condition BodyOp where
  type := 0
  headerOverride := []
  paramOverride := ⟨[], none⟩
  modelMapping := some []
  organization := ""
  apiVersion := ""
  region := ""
  plugin := ""
  botId := ""

/-- The key a channel's type keeps its other setting under. -/
def ChannelKeys.setOther (keys : ChannelKeys Field Condition BodyOp) (type : Int) (other : String) :
    ChannelKeys Field Condition BodyOp :=
  if type = channelTypeAzure then { keys with apiVersion := other }
  else if type = channelTypeVertexAi then { keys with region := other }
  else if type = channelTypeXunfei then { keys with apiVersion := other }
  else if type = channelTypeGemini then { keys with apiVersion := other }
  else if type = channelTypeAli then { keys with plugin := other }
  else if type = channelCloudflare then { keys with apiVersion := other }
  else if type = channelTypeMokaAI then { keys with apiVersion := other }
  else if type = channelTypeCoze then { keys with botId := other }
  else keys

/-- The keys that are written for every channel; the organisation only if the channel has one. -/
def ChannelKeys.setChannel (keys : ChannelKeys Field Condition BodyOp)
    (channel : ChannelConfig Field Condition BodyOp) : ChannelKeys Field Condition BodyOp :=
  { keys with
    type := channel.type
    headerOverride := channel.headerOverride
    paramOverride := channel.paramOverride
    modelMapping := channel.modelMapping
    organization := (channel.openAIOrganization.filter fun org => decide (org ≠ "")).getD keys.organization }

/-- `SetupContextForSelectedChannel`; without a key it returns before the other setting. -/
def setupContextForSelectedChannel (keys : ChannelKeys Field Condition BodyOp)
    (channel : ChannelConfig Field Condition BodyOp) (keyFound : Bool) :
    ChannelKeys Field Condition BodyOp :=
  if keyFound then (keys.setChannel channel).setOther channel.type channel.other else keys.setChannel channel

/-! ## Requests -/

/-- What the client sent. -/
structure ClientRequest where
  mapped : MappedRequest
  path : String
  headers : HeaderMap
  /-- The query parameter `api-version`. -/
  apiVersionQuery : String

/-- The shared state of a request: context keys, and the fields of the relay info that outlive an
attempt. -/
structure RequestState (Field Condition BodyOp : Type) where
  keys : ChannelKeys Field Condition BodyOp
  /-- A channel has been selected before. -/
  selected : Bool
  runtimeHeadersOverride : HeaderMap
  useRuntimeHeadersOverride : Bool
  lastError : Option LastError
  originModelName : String

/-- A request to which nothing has happened, for a model and after an error. -/
def RequestState.fresh (originModelName : String) (lastError : Option LastError) :
    RequestState Field Condition BodyOp :=
  ⟨.unset, false, [], false, lastError, originModelName⟩

/-- An attempt of the relay loop: its retry index, the converted body unless the client's is passed
    through, and the error it ends with. -/
structure Tried (Body : Type) where
  retryIndex : Nat
  body : Option Body
  error : LastError

def RequestState.getEffectiveHeaderOverride (st : RequestState Field Condition BodyOp) :
    HeaderMap :=
  if st.useRuntimeHeadersOverride then sanitizeHeaderOverrideMap st.runtimeHeadersOverride
  else sanitizeHeaderOverrideMap st.keys.headerOverride

def RequestState.buildParamOverrideContext (st : RequestState Field Condition BodyOp)
    (r : ClientRequest) (names : ModelNames) (retryIndex : Nat) : OverrideContext where
  upstreamModel := names.upstreamModelName
  originalModel := names.originModelName
  requestPath := r.path
  requestHeaders := buildRequestHeadersContext r.headers
  headerOverride := sanitizeHeaderOverrideMap st.getEffectiveHeaderOverride
  retryIndex := retryIndex
  lastError := st.lastError
  isChannelTest := false

/-- `ApplyParamOverrideWithRelayInfo`, where the handlers call it: not for an empty override or a
body that is passed through. The headers stay in the relay info. -/
def applyParamOverrideWithRelayInfo (env : BodyEnv Body Field Condition BodyOp) (r : ClientRequest)
    (names : ModelNames) (a : Tried Body) (st : RequestState Field Condition BodyOp) :
    Except String (RequestState Field Condition BodyOp) :=
  match a.body with
  | none => .ok st
  | some body =>
    if st.keys.paramOverride.isEmpty then .ok st
    else
      match applyParamOverride env st.keys.paramOverride body
        (st.buildParamOverrideContext r names a.retryIndex) with
      | .error err => .error err
      | .ok (_, context) =>
        .ok { st with
          runtimeHeadersOverride := sanitizeHeaderOverrideMap context.headerOverride
          useRuntimeHeadersOverride := true }

/-- What goes upstream besides the body. -/
structure Sent where
  headerOverride : HeaderMap
  organization : Option String
  apiVersion : Option String
  region : Option String
  plugin : Option String
  botId : Option String
deriving DecidableEq, Repr

/-- `getAPIVersion` of the Xunfei adaptor. -/
def xunfeiAPIVersion (query modelName apiVersion : String) : String :=
  if query ≠ "" then query
  else
    match split modelName '-' with
    | [_, version] => version
    | _ => if apiVersion ≠ "" then apiVersion else "v1.1"

/-- The API version, for the adaptors that read one; those of Gemini and MokaAI do not. -/
def ChannelKeys.sentAPIVersion (keys : ChannelKeys Field Condition BodyOp) (r : ClientRequest)
    (upstreamModelName : String) : Option String :=
  if keys.type = channelTypeAzure then
    some (if r.apiVersionQuery = "" then keys.apiVersion else r.apiVersionQuery)
  else if keys.type = channelTypeXunfei then
    some (xunfeiAPIVersion r.apiVersionQuery upstreamModelName keys.apiVersion)
  else if keys.type = channelCloudflare then some keys.apiVersion
  else none

/-- A value that the adaptor of one type of channel takes. -/
def takenBy (wanted type : Int) (value : String) : Option String :=
  if type = wanted then some value else none

/-- What the adaptor of the channel's type sends. -/
def RequestState.sent (st : RequestState Field Condition BodyOp) (r : ClientRequest)
    (names : ModelNames) : Sent where
  headerOverride := st.getEffectiveHeaderOverride
  organization := (takenBy channelTypeOpenAI st.keys.type st.keys.organization).filter fun org => decide (org ≠ "")
  apiVersion := st.keys.sentAPIVersion r names.upstreamModelName
  region := takenBy channelTypeVertexAi st.keys.type st.keys.region
  plugin := (takenBy channelTypeAli st.keys.type st.keys.plugin).filter fun plugin => decide (plugin ≠ "")
  botId := takenBy channelTypeCoze st.keys.type st.keys.botId

/-- An attempt up to the upstream request: the names, the override, and what is sent. -/
def attempt (env : BodyEnv Body Field Condition BodyOp) (s : MappingSetting) (r : ClientRequest)
    (a : Tried Body) (st : RequestState Field Condition BodyOp) :
    Except String (RequestState Field Condition BodyOp × Sent) := do
  let names ← attemptNames s r.mapped st.originModelName st.keys.modelMapping
  let st ← applyParamOverrideWithRelayInfo env r names a { st with originModelName := names.originModelName }
  return (st, st.sent r names)

/-! ## Histories -/

/-- What happens to a request: a channel is selected, or an attempt is made on the channel in
use. -/
inductive Step (Body Field Condition BodyOp : Type) where
  | selected (channel : ChannelConfig Field Condition BodyOp) (keyFound : Bool)
  | tried (a : Tried Body)

/-- One step. Only the first selection may go on without a key. An attempt that is not sent may be
retried if the override says so; the headers are left as they were. -/
def runStep (env : BodyEnv Body Field Condition BodyOp) (s : MappingSetting) (r : ClientRequest)
    (st : RequestState Field Condition BodyOp) :
    Step Body Field Condition BodyOp → Option (RequestState Field Condition BodyOp)
  | .selected channel keyFound =>
    if keyFound || !st.selected then
      some { st with keys := setupContextForSelectedChannel st.keys channel keyFound, selected := true }
    else none
  | .tried a =>
    match attempt env s r a st with
    | .ok (st, _) => some { st with lastError := some a.error }
    | .error _ =>
      match attemptNames s r.mapped st.originModelName st.keys.modelMapping with
      | .error _ => none
      | .ok names => some { st with originModelName := names.originModelName, lastError := some a.error }

def run (env : BodyEnv Body Field Condition BodyOp) (s : MappingSetting) (r : ClientRequest) :
    List (Step Body Field Condition BodyOp) → RequestState Field Condition BodyOp →
    Option (RequestState Field Condition BodyOp)
  | [], st => some st
  | step :: rest, st => (runStep env s r st step).bind (run env s r rest)

def RequestState.start (r : ClientRequest) : RequestState Field Condition BodyOp :=
  .fresh r.mapped.originModel none

/-! ## What an attempt reads -/

/-- Two contexts agree on what the adaptor of their channel's type reads. -/
structure KeysAgree (keys keys' : ChannelKeys Field Condition BodyOp) : Prop where
  type : keys.type = keys'.type
  headerOverride : keys.headerOverride = keys'.headerOverride
  paramOverride : keys.paramOverride = keys'.paramOverride
  modelMapping : keys.modelMapping = keys'.modelMapping
  organization : keys.type = channelTypeOpenAI → keys.organization = keys'.organization
  apiVersion : keys.type = channelTypeAzure ∨ keys.type = channelTypeXunfei ∨ keys.type = channelTypeGemini ∨
    keys.type = channelCloudflare ∨ keys.type = channelTypeMokaAI → keys.apiVersion = keys'.apiVersion
  region : keys.type = channelTypeVertexAi → keys.region = keys'.region
  plugin : keys.type = channelTypeAli → keys.plugin = keys'.plugin
  botId : keys.type = channelTypeCoze → keys.botId = keys'.botId

theorem KeysAgree.refl (keys : ChannelKeys Field Condition BodyOp) : KeysAgree keys keys :=
  ⟨rfl, rfl, rfl, rfl, fun _ => rfl, fun _ => rfl, fun _ => rfl, fun _ => rfl, fun _ => rfl⟩

section Agree

variable {env : BodyEnv Body Field Condition BodyOp} {s : MappingSetting} {r : ClientRequest}
  {st st' : RequestState Field Condition BodyOp}

theorem KeysAgree.sentAPIVersion {keys keys' : ChannelKeys Field Condition BodyOp}
    (h : KeysAgree keys keys') (upstreamModelName : String) :
    keys.sentAPIVersion r upstreamModelName = keys'.sentAPIVersion r upstreamModelName := by
  unfold ChannelKeys.sentAPIVersion
  rw [← h.type]
  split
  case isTrue hazure => rw [h.apiVersion (.inl hazure)]
  case isFalse =>
    split
    case isTrue hxunfei => rw [h.apiVersion (.inr (.inl hxunfei))]
    case isFalse =>
      split
      case isTrue hcloudflare => rw [h.apiVersion (.inr (.inr (.inr (.inl hcloudflare))))]
      case isFalse => rfl

theorem takenBy_congr {wanted type : Int} {value value' : String}
    (h : type = wanted → value = value') :
    takenBy wanted type value = takenBy wanted type value' := by
  unfold takenBy
  split
  case isTrue htype => rw [h htype]
  case isFalse => rfl

theorem KeysAgree.sent (h : KeysAgree st.keys st'.keys)
    (hheaders : st.getEffectiveHeaderOverride = st'.getEffectiveHeaderOverride)
    (names : ModelNames) : st.sent r names = st'.sent r names := by
  unfold RequestState.sent
  rw [hheaders, h.sentAPIVersion, ← h.type, takenBy_congr h.organization, takenBy_congr h.region,
    takenBy_congr h.plugin, takenBy_congr h.botId]

/-- Two states in which an attempt reads the same: no override has been applied in either. -/
structure ReadsSame (st st' : RequestState Field Condition BodyOp) : Prop where
  keys : KeysAgree st.keys st'.keys
  lastError : st.lastError = st'.lastError
  unused : st.useRuntimeHeadersOverride = false
  unused' : st'.useRuntimeHeadersOverride = false

variable (h : ReadsSame st st')

include h

theorem ReadsSame.getEffectiveHeaderOverride :
    st.getEffectiveHeaderOverride = st'.getEffectiveHeaderOverride := by
  simp [RequestState.getEffectiveHeaderOverride, h.unused, h.unused', h.keys.headerOverride]

theorem ReadsSame.buildParamOverrideContext (names : ModelNames) (retryIndex : Nat) :
    st.buildParamOverrideContext r names retryIndex = st'.buildParamOverrideContext r names retryIndex := by
  simp only [RequestState.buildParamOverrideContext, h.getEffectiveHeaderOverride, h.lastError]

theorem ReadsSame.sent (names : ModelNames) (a : Tried Body) :
    (applyParamOverrideWithRelayInfo env r names a st).map (fun st => st.sent r names) =
      (applyParamOverrideWithRelayInfo env r names a st').map (fun st => st.sent r names) := by
  have hplain : st.sent r names = st'.sent r names := h.keys.sent h.getEffectiveHeaderOverride names
  unfold applyParamOverrideWithRelayInfo
  rw [h.keys.paramOverride, h.buildParamOverrideContext]
  rcases a.body with _ | body
  · exact congrArg Except.ok hplain
  by_cases hempty : st'.keys.paramOverride.isEmpty = true
  · simp only [hempty, if_true]
    exact congrArg Except.ok hplain
  simp only [hempty]
  cases applyParamOverride env st'.keys.paramOverride body
      (st'.buildParamOverrideContext r names a.retryIndex) with
  | error err => rfl
  | ok result =>
    -- both now have the headers the override left
    refine congrArg Except.ok ?_
    exact @KeysAgree.sent Field Condition BodyOp r
      { st with
        runtimeHeadersOverride := sanitizeHeaderOverrideMap result.2.headerOverride
        useRuntimeHeadersOverride := true }
      { st' with
        runtimeHeadersOverride := sanitizeHeaderOverrideMap result.2.headerOverride
        useRuntimeHeadersOverride := true } h.keys rfl names

/-- An attempt reads no more of the history than the keys of its channel, the model and the error
before. -/
theorem ReadsSame.attempt (hmodel : st.originModelName = st'.originModelName) (a : Tried Body) :
    (attempt env s r a st).map Prod.snd = (attempt env s r a st').map Prod.snd := by
  have hmap : ∀ (st : RequestState Field Condition BodyOp) (names : ModelNames),
      attemptNames s r.mapped st.originModelName st.keys.modelMapping = .ok names →
      (Relay.attempt env s r a st).map Prod.snd =
        (applyParamOverrideWithRelayInfo env r names a { st with originModelName := names.originModelName }).map
          (fun st => st.sent r names) := by
    intro st names hnames
    simp only [Relay.attempt, hnames, bind, Except.bind]
    cases applyParamOverrideWithRelayInfo env r names a { st with originModelName := names.originModelName } with
    | error err => rfl
    | ok st => rfl
  have hsame : attemptNames s r.mapped st.originModelName st.keys.modelMapping =
      attemptNames s r.mapped st'.originModelName st'.keys.modelMapping := by
    rw [hmodel, h.keys.modelMapping]
  cases hnames : attemptNames s r.mapped st.originModelName st.keys.modelMapping with
  | error err =>
    have hnames' := hsame.symm.trans hnames
    simp only [Relay.attempt, hnames, hnames', bind, Except.bind, Except.map]
  | ok names =>
    rw [hmap st names hnames, hmap st' names (hsame.symm.trans hnames)]
    exact @ReadsSame.sent Body Field Condition BodyOp env r
      { st with originModelName := names.originModelName } { st' with originModelName := names.originModelName }
      ⟨h.keys, h.lastError, h.unused, h.unused'⟩ names a

end Agree

/-! ## The history of a request -/

section History

variable {env : BodyEnv Body Field Condition BodyOp} {s : MappingSetting} {r : ClientRequest}
  {st st' : RequestState Field Condition BodyOp} {step : Step Body Field Condition BodyOp}
  {steps : List (Step Body Field Condition BodyOp)}

/-- The channel's organisation, if it has one. -/
def ChannelConfig.organization (channel : ChannelConfig Field Condition BodyOp) : Option String :=
  channel.openAIOrganization.filter fun org => decide (org ≠ "")

def NoOrganization (steps : List (Step Body Field Condition BodyOp)) : Prop :=
  ∀ channel keyFound, .selected channel keyFound ∈ steps → channel.organization = none

/-- The attempt applies a parameter override: its channel has one, the body is converted, and no
operation fails. -/
def AppliesOverride (env : BodyEnv Body Field Condition BodyOp) (s : MappingSetting)
    (r : ClientRequest) (a : Tried Body) (st : RequestState Field Condition BodyOp) : Prop :=
  a.body.isSome = true ∧ st.keys.paramOverride.isEmpty = false ∧ ∃ result, attempt env s r a st = .ok result

def NoOverride (env : BodyEnv Body Field Condition BodyOp) (s : MappingSetting)
    (r : ClientRequest) :
    List (Step Body Field Condition BodyOp) → RequestState Field Condition BodyOp → Prop
  | [], _ => True
  | step :: rest, st =>
    (∀ a, step = .tried a → ¬ AppliesOverride env s r a st) ∧
    ∀ st', runStep env s r st step = some st' → NoOverride env s r rest st'

/-- What an attempt sends that follows a history. -/
def sentAfter (env : BodyEnv Body Field Condition BodyOp) (s : MappingSetting) (r : ClientRequest)
    (steps : List (Step Body Field Condition BodyOp)) (a : Tried Body) : Option Sent :=
  (run env s r steps (.start r)).bind fun st => (attempt env s r a st).toOption.map Prod.snd

theorem run_append (steps rest : List (Step Body Field Condition BodyOp))
    (st : RequestState Field Condition BodyOp) :
    run env s r (steps ++ rest) st = (run env s r steps st).bind (run env s r rest) := by
  induction steps generalizing st with
  | nil => rfl
  | cons step steps ih =>
    simp only [List.cons_append, run, Option.bind_assoc]
    exact congrArg _ (funext ih)

theorem applyParamOverrideWithRelayInfo_skipped {names : ModelNames} {a : Tried Body}
    (h : a.body = none ∨ st.keys.paramOverride.isEmpty = true) :
    applyParamOverrideWithRelayInfo env r names a st = .ok st := by
  unfold applyParamOverrideWithRelayInfo
  rcases h with h | h
  · rw [h]
  cases a.body with
  | none => rfl
  | some body => simp [h]

theorem runStep_tried {a : Tried Body} (h : runStep env s r st (.tried a) = some st')
    (hnone : ¬ AppliesOverride env s r a st) :
    st'.keys = st.keys ∧ st'.selected = st.selected ∧
    st'.useRuntimeHeadersOverride = st.useRuntimeHeadersOverride := by
  rcases hnames : attemptNames s r.mapped st.originModelName st.keys.modelMapping with err | names
  · simp only [runStep, Relay.attempt, hnames, bind, Except.bind] at h
    cases h
  rcases hattempt : Relay.attempt env s r a st with err | result
  · simp only [runStep, hattempt, hnames] at h
    cases h
    exact ⟨rfl, rfl, rfl⟩
  have hskipped : a.body = none ∨ st.keys.paramOverride.isEmpty = true := by
    by_contra hboth
    rw [not_or] at hboth
    exact hnone ⟨Option.isSome_iff_ne_none.mpr hboth.1, Bool.not_eq_true _ ▸ hboth.2, result,
      hattempt⟩
  have happly := @applyParamOverrideWithRelayInfo_skipped Body Field Condition BodyOp env r
    { st with originModelName := names.originModelName } names a hskipped
  simp only [runStep, Relay.attempt, hnames, bind, Except.bind, happly, pure, Except.pure] at h
  cases h
  exact ⟨rfl, rfl, rfl⟩

theorem runStep_selected {channel : ChannelConfig Field Condition BodyOp} {keyFound : Bool}
    (h : runStep env s r st (.selected channel keyFound) = some st') :
    (keyFound || !st.selected) = true ∧
    st' = { st with keys := setupContextForSelectedChannel st.keys channel keyFound, selected := true } := by
  simp only [runStep] at h
  split at h
  case isTrue hkey => exact ⟨hkey, (Option.some.inj h).symm⟩
  case isFalse => cases h

/-- What is known of a request at every point of a history without overrides. -/
structure Untouched (st : RequestState Field Condition BodyOp) : Prop where
  unused : st.useRuntimeHeadersOverride = false
  keys : st.selected = false → st.keys = .unset

theorem run_untouched (hst : Untouched st) (hover : NoOverride env s r steps st)
    (h : run env s r steps st = some st') : Untouched st' := by
  induction steps generalizing st with
  | nil =>
    cases h
    exact hst
  | cons step rest ih =>
    obtain ⟨st₁, hstep, hrest⟩ := Option.bind_eq_some_iff.mp h
    refine ih ?_ (hover.2 st₁ hstep) hrest
    rcases step with ⟨channel, keyFound⟩ | a
    · obtain ⟨_, rfl⟩ := runStep_selected hstep
      exact ⟨hst.unused, fun hselected => Bool.noConfusion hselected⟩
    obtain ⟨hkeys, hselected, hunused⟩ := runStep_tried hstep (hover.1 a rfl)
    refine ⟨hunused.trans hst.unused, ?_⟩
    intro hnot
    rw [hkeys]
    exact hst.keys (hselected ▸ hnot)

/-! ## Setting up a channel -/

section Setup

variable (keys : ChannelKeys Field Condition BodyOp) (channel : ChannelConfig Field Condition BodyOp)
  (type : Int) (other : String)

theorem setOther_frame : (keys.setOther type other).type = keys.type ∧
    (keys.setOther type other).headerOverride = keys.headerOverride ∧
    (keys.setOther type other).paramOverride = keys.paramOverride ∧
    (keys.setOther type other).modelMapping = keys.modelMapping ∧
    (keys.setOther type other).organization = keys.organization := by
  unfold ChannelKeys.setOther
  split_ifs <;> exact ⟨rfl, rfl, rfl, rfl, rfl⟩

theorem setOther_read :
    (type = channelTypeAzure ∨ type = channelTypeXunfei ∨ type = channelTypeGemini ∨ type = channelCloudflare ∨
      type = channelTypeMokaAI → (keys.setOther type other).apiVersion = other) ∧
    (type = channelTypeVertexAi → (keys.setOther type other).region = other) ∧
    (type = channelTypeAli → (keys.setOther type other).plugin = other) ∧
    (type = channelTypeCoze → (keys.setOther type other).botId = other) := by
  refine ⟨?_, ?_, ?_, ?_⟩
  · rintro (rfl | rfl | rfl | rfl | rfl) <;> rfl
  · rintro rfl
    rfl
  · rintro rfl
    rfl
  · rintro rfl
    rfl

theorem setup_organization (keyFound : Bool) :
    (setupContextForSelectedChannel keys channel keyFound).organization =
      channel.organization.getD keys.organization := by
  cases keyFound with
  | false => rfl
  | true => exact (setOther_frame _ channel.type channel.other).2.2.2.2

theorem setup_agree (keyFound : Bool) (hkeys : keyFound = false → keys = .unset)
    (horg : channel.type = channelTypeOpenAI → channel.organization = none → keys.organization = "") :
    KeysAgree (setupContextForSelectedChannel keys channel keyFound)
      (setupContextForSelectedChannel .unset channel keyFound) := by
  rcases keyFound with _ | _
  · rw [hkeys rfl]
    exact .refl _
  obtain ⟨htype, hheaders, hparams, hmapping, horganization⟩ :=
    setOther_frame (keys.setChannel channel) channel.type channel.other
  obtain ⟨htype', hheaders', hparams', hmapping', horganization'⟩ :=
    setOther_frame ((ChannelKeys.unset : ChannelKeys Field Condition BodyOp).setChannel channel) channel.type
      channel.other
  obtain ⟨hversion, hregion, hplugin, hbot⟩ :=
    setOther_read (keys.setChannel channel) channel.type channel.other
  obtain ⟨hversion', hregion', hplugin', hbot'⟩ :=
    setOther_read ((ChannelKeys.unset : ChannelKeys Field Condition BodyOp).setChannel channel) channel.type
      channel.other
  constructor
  case type => exact htype.trans htype'.symm
  case headerOverride => exact hheaders.trans hheaders'.symm
  case paramOverride => exact hparams.trans hparams'.symm
  case modelMapping => exact hmapping.trans hmapping'.symm
  all_goals
    intro hread
    replace hread := (show _ = channel.type from htype) ▸ hread
  case organization =>
    refine horganization.trans (Eq.trans ?_ horganization'.symm)
    show channel.organization.getD keys.organization = channel.organization.getD ""
    cases hown : channel.organization with
    | none => exact horg hread hown
    | some organization => rfl
  case apiVersion => exact (hversion hread).trans (hversion' hread).symm
  case region => exact (hregion hread).trans (hregion' hread).symm
  case plugin => exact (hplugin hread).trans (hplugin' hread).symm
  case botId => exact (hbot hread).trans (hbot' hread).symm

end Setup

theorem run_organization (hst : st.keys.organization = "") (hover : NoOverride env s r steps st)
    (horg : NoOrganization steps) (h : run env s r steps st = some st') : st'.keys.organization = "" := by
  induction steps generalizing st with
  | nil =>
    cases h
    exact hst
  | cons step rest ih =>
    obtain ⟨st₁, hstep, hrest⟩ := Option.bind_eq_some_iff.mp h
    have horgRest : NoOrganization rest := by
      intro channel keyFound hmem
      exact horg channel keyFound (List.mem_cons_of_mem _ hmem)
    refine ih ?_ (hover.2 st₁ hstep) horgRest hrest
    cases step with
    | selected channel keyFound =>
      obtain ⟨_, rfl⟩ := runStep_selected hstep
      have hchannel : channel.organization = none := horg channel keyFound List.mem_cons_self
      show (setupContextForSelectedChannel st.keys channel keyFound).organization = ""
      rw [setup_organization, hchannel]
      exact hst
    | tried a =>
      rw [(runStep_tried hstep (hover.1 a rfl)).1]
      exact hst

end History

/-! ## Non-interference between attempts -/

/-- After any history an attempt on a newly selected channel sends what it would send had that
channel been selected first, with the same retry, model name and error before. -/
theorem sent_as_if_first (env : BodyEnv Body Field Condition BodyOp) (s : MappingSetting)
    (r : ClientRequest) (steps : List (Step Body Field Condition BodyOp))
    (channel : ChannelConfig Field Condition BodyOp) (keyFound : Bool)
    (st : RequestState Field Condition BodyOp) (a : Tried Body)
    (h : run env s r (steps ++ [.selected channel keyFound]) (.start r) = some st)
    (hover : NoOverride env s r steps (.start r))
    (horg : channel.type = channelTypeOpenAI → channel.organization = none → NoOrganization steps) :
    ∃ st₀, runStep env s r (.fresh st.originModelName st.lastError) (.selected channel keyFound) = some st₀ ∧
      (attempt env s r a st).map Prod.snd = (attempt env s r a st₀).map Prod.snd := by
  rw [run_append] at h
  obtain ⟨before, hbefore, hlast⟩ := Option.bind_eq_some_iff.mp h
  obtain ⟨last, hselected, hdone⟩ := Option.bind_eq_some_iff.mp hlast
  cases hdone
  have huntouched : Untouched before := run_untouched ⟨rfl, fun _ => rfl⟩ hover hbefore
  obtain ⟨hkey, rfl⟩ := runStep_selected hselected
  have hkeys : KeysAgree (setupContextForSelectedChannel before.keys channel keyFound)
      (setupContextForSelectedChannel .unset channel keyFound) := by
    refine setup_agree before.keys channel keyFound ?_ ?_
    · -- only the first selection goes on without a key
      rintro rfl
      refine huntouched.keys ?_
      simpa using hkey
    · intro htype hnone
      exact run_organization rfl hover (horg htype hnone) hbefore
  let first : RequestState Field Condition BodyOp :=
    ⟨setupContextForSelectedChannel .unset channel keyFound, true, [], false, before.lastError, before.originModelName⟩
  refine ⟨first, if_pos (Bool.or_true keyFound), ?_⟩
  have hreads : ReadsSame { before with
      keys := setupContextForSelectedChannel before.keys channel keyFound, selected := true } first :=
    ⟨hkeys, rfl, huntouched.unused, rfl⟩
  exact hreads.attempt rfl a

/-- Overrides whose only condition is that the attempt is a retry. -/
def retryEnv : BodyEnv Unit Unit Unit Unit where
  checkConditions _ context conditions _ := .ok (conditions.isEmpty || decide (0 < context.retryIndex))
  applyBodyOp _ body _ := .ok body
  setTopLevel body _ _ := .ok body
  readField _ _ := none
  writeField body _ _ := .ok body
  fieldValue _ := .missing
  ofText _ := ()

def chatRequest : ClientRequest := ⟨⟨.chatCompletions, "gpt-4o", none⟩, "/v1/chat/completions", [], ""⟩

/-- An attempt with a converted body that ends with a 500. -/
def failedAt (retryIndex : Nat) : Tried Unit := ⟨retryIndex, some (), ⟨500, "", "", "", false⟩⟩

/-- A channel with the settings that matter here. -/
def sampleChannel (type : Int) (other : String) (organization : Option String) (headers : HeaderMap)
    (operations : Option (List (ParamOperation Unit Unit))) : ChannelConfig Unit Unit Unit :=
  ⟨type, other, organization, headers, ⟨[], operations⟩, some []⟩

def azureChannel : ChannelConfig Unit Unit Unit := sampleChannel channelTypeAzure "2024-06-01" none [] none

def vertexChannel : ChannelConfig Unit Unit Unit :=
  sampleChannel channelTypeVertexAi "us-east1" none [("X-Team", "b")] none

theorem vertex_after_azure_as_if_first : ∃ st st₀, run retryEnv ⟨.unset, false⟩ chatRequest
        ([.selected azureChannel true, .tried (failedAt 0)] ++ [.selected vertexChannel true])
        (.start chatRequest) = some st ∧
      runStep retryEnv ⟨.unset, false⟩ chatRequest (.fresh st.originModelName st.lastError)
        (.selected vertexChannel true) = some st₀ ∧
      (attempt retryEnv ⟨.unset, false⟩ chatRequest (failedAt 1) st).map Prod.snd =
        (attempt retryEnv ⟨.unset, false⟩ chatRequest (failedAt 1) st₀).map Prod.snd := by
  have hsome : (run retryEnv ⟨.unset, false⟩ chatRequest
      ([.selected azureChannel true, .tried (failedAt 0)] ++ [.selected vertexChannel true])
      (.start chatRequest)).isSome = true := by decide +kernel
  obtain ⟨st, hrun⟩ := Option.isSome_iff_exists.mp hsome
  have hover : NoOverride retryEnv ⟨.unset, false⟩ chatRequest [.selected azureChannel true,
    .tried (failedAt 0)]
      (.start chatRequest) := by
    refine ⟨?_, ?_⟩
    · intro a ha
      cases ha
    intro st₁ hst₁
    obtain ⟨_, rfl⟩ := runStep_selected hst₁
    refine ⟨?_, fun _ _ => trivial⟩
    intro a _ happlies
    cases happlies.2.1
  have htype : vertexChannel.type = channelTypeOpenAI → vertexChannel.organization = none →
      NoOrganization [.selected azureChannel true, .tried (failedAt 0)] := by
    intro h
    exact absurd h (by decide)
  obtain ⟨st₀, hfirst, hsent⟩ := sent_as_if_first retryEnv ⟨.unset, false⟩ chatRequest
    [.selected azureChannel true, .tried (failedAt 0)] vertexChannel true st (failedAt 1) hrun hover htype
  exact ⟨st, st₀, hrun, hfirst, hsent⟩

/-- What an attempt sends may depend on the channels before it: an OpenAI channel without an
organisation sends the earlier one, an earlier override replaces the header override, and an
override may set a header on retries only. -/
theorem sent_depends_on_history :
    (let first := sampleChannel channelTypeOpenAI "" (some "org-first") [] none
     let second := sampleChannel channelTypeOpenAI "" none [] none
     sentAfter retryEnv ⟨.unset, false⟩ chatRequest [.selected first true, .tried (failedAt 0), .selected second true]
         (failedAt 1) = some ⟨[], some "org-first", none, none, none, none⟩ ∧
     sentAfter retryEnv ⟨.unset, false⟩ chatRequest [.selected second true] (failedAt 0) =
         some ⟨[], none, none, none, none, none⟩) ∧
    (let first := sampleChannel channelTypeOpenAI "" none [] (some [⟨.setHeader "X-Team" (.plain "a"), false, [], ""⟩])
     let second := sampleChannel channelTypeOpenAI "" none [("X-Tenant", "b")] none
     sentAfter retryEnv ⟨.unset, false⟩ chatRequest [.selected first true, .tried (failedAt 0), .selected second true]
         (failedAt 1) = some ⟨[("x-team", "a")], none, none, none, none, none⟩ ∧
     sentAfter retryEnv ⟨.unset, false⟩ chatRequest [.selected second true] (failedAt 0) =
         some ⟨[("x-tenant", "b")], none, none, none, none, none⟩) ∧
    (let first := sampleChannel channelTypeOpenAI "" none [] none
     let second := sampleChannel channelTypeOpenAI "" none []
       (some [⟨.setHeader "X-Retry" (.plain "1"), false, [()], ""⟩])
     sentAfter retryEnv ⟨.unset, false⟩ chatRequest [.selected first true, .tried (failedAt 0), .selected second true]
         (failedAt 1) = some ⟨[("x-retry", "1")], none, none, none, none, none⟩ ∧
     sentAfter retryEnv ⟨.unset, false⟩ chatRequest [.selected second true] (failedAt 0) =
         some ⟨[], none, none, none, none, none⟩) := by
  decide +kernel

end NewApi.Relay
