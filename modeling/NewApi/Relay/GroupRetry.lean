import NewApi.Service.AudioQuota

/-!
# Retries across groups (`controller/relay.go`, `service/channel_select.go`)

A request of a token in the group `auto` is served by a channel of one of the user's automatic
groups. Which group is in use is kept under `auto_group` in the request's context.

## Protocol

* `modelPriceHelper` prices the request for that group. The ratio goes into the price data, and for
  a tiered model also into the snapshot that is settled by.
* `relayAttempts` tries one channel after another. Each further selection may move to another group,
  and `getChannel` then refreshes the ratio of the price data. The snapshot keeps the one it has.

What a channel does with a request is an input of the model: the channels each selection finds, what
the handler writes to the relay info and the context, and the usage it reports.

## Results

* `relayAttempts_invariant` — in every state of every run the price data carry the ratio of the
  group in use.
-/

namespace NewApi.Relay

open NewApi.Decimal

/-! ## Selection -/

/-- What the selection reads of the settings. -/
structure SelectSetting where
  /-- `setting.GetAutoGroups`. -/
  autoGroups : List String
  /-- `GetUserUsableGroups`, by the user's group. -/
  usable : String → String → Bool
  /-- `common.RetryTimes`. -/
  retryTimes : Nat

def SelectSetting.getUserAutoGroup (q : SelectSetting) (userGroup : String) : List String :=
  q.autoGroups.filter (q.usable userGroup)

/-- `GetRandomSatisfiedChannel` for the request's model at one moment, by group and retry: the id of
a channel. -/
abbrev Pick := String → Nat → Except String (Option Int)

/-- `RetryParam` and the context keys it works on. -/
structure Progress where
  context : Context
  /-- `auto_group_index`. -/
  autoGroupIndex : Option Nat
  retry : Nat
  resetNextTry : Bool

/-- A request before any selection. -/
def Progress.start : Progress := ⟨⟨none, 0, false, "", ""⟩, none, 0, false⟩

def Progress.increaseRetry (p : Progress) : Progress :=
  if p.resetNextTry then { p with resetNextTry := false } else { p with retry := p.retry + 1 }

/-- The loop of `CacheGetRandomSatisfiedChannel` over the automatic groups from index `i` on; it
    began at index `start`. -/
def selectFrom (pick : Pick) (crossGroupRetry : Bool) (retryTimes start : Nat) :
    Nat → List String → Progress → Option (Int × String) × Progress
  | _, [], p => (none, p)
  | i, autoGroup :: rest, p =>
    let priorityRetry := if start < i then 0 else p.retry
    -- an error of the selection counts as no channel
    match (pick autoGroup priorityRetry).toOption.join with
    | none =>
      selectFrom pick crossGroupRetry retryTimes start (i + 1) rest
        { p with autoGroupIndex := some (i + 1), retry := 0 }
    | some channel =>
      let context := { p.context with autoGroup := some autoGroup }
      if crossGroupRetry && decide (retryTimes ≤ priorityRetry) then
        (some (channel, autoGroup), ⟨context, some (i + 1), 0, true⟩)
      else (some (channel, autoGroup), { p with context := context, autoGroupIndex := some i })

/-- `CacheGetRandomSatisfiedChannel`: the channel and its group. -/
def cacheGetRandomSatisfiedChannel (q : SelectSetting) (tokenGroup userGroup : String)
    (crossGroupRetry : Bool) (pick : Pick) (p : Progress) :
    Except String (Option (Int × String)) × Progress :=
  if tokenGroup = "auto" then
    if q.autoGroups.isEmpty then (.error "auto groups is not enabled", p)
    else
      let start := p.autoGroupIndex.getD 0
      let (selected, p) :=
        selectFrom pick crossGroupRetry q.retryTimes start start ((q.getUserAutoGroup userGroup).drop start) p
      (.ok selected, p)
  else
    match pick tokenGroup p.retry with
    | .error err => (.error err, p)
    | .ok channel => (.ok (channel.map fun id => (id, tokenGroup)), p)

/-! ## The relay loop -/

/-- A request of a token in the group `auto`. -/
structure AutoRequest where
  userId : Int
  userGroup : String
  crossGroupRetry : Bool
  originModelName : String
  acceptUnsetRatioModel : Bool
  /-- The groups the channel preferred by affinity, if there is one, serves the model in. -/
  preferred : Option (String → Bool)
  /-- The first channel's type, which an image request puts into the relay info before the loop. -/
  imageChannelType : Option Int
  estimatePromptTokens : Int
  tokenCountMeta : TokenCountMeta
  /-- What a tiered expression reads of the request. -/
  requestInput : Except String RequestInput
  finalPreConsumedQuota : Int
  builtInTools : Option (List (String × Int))
  finalFormatIsClaude : Bool

def AutoRequest.genRelayInfo (r : AutoRequest) : RelayInfo where
  userId := r.userId
  userGroup := r.userGroup
  usingGroup := "auto"
  originModelName := r.originModelName
  acceptUnsetRatioModel := r.acceptUnsetRatioModel
  priceData := PriceData.zero
  tieredBillingSnapshot := none
  billingRequestInput := none
  finalPreConsumedQuota := 0
  skipConsumeQuota := false
  estimatePromptTokens := r.estimatePromptTokens
  channelType := r.imageChannelType
  finalFormatIsClaude := r.finalFormatIsClaude
  builtInTools := r.builtInTools

/-- A request in the relay loop. -/
structure Relaying where
  progress : Progress
  info : RelayInfo
  /-- The group of the channel in use. -/
  group : String

/-- What a handler writes before it settles or fails. -/
structure Handled where
  channelType : Int
  originModelName : String
  finalFormatIsClaude : Bool
  builtInTools : Option (List (String × Int))
  otherRatios : List (String × ℚ)
  claudeWebSearchRequests : Int
  imageGenerationCall : Bool
  imageGenerationCallQuality : String
  imageGenerationCallSize : String

/-- A usage report, by the route that settles it. -/
inductive Served where
  | text (usage : Option Usage)
  | audio (usage : Usage)
  | realtime (upstreamModelName : String) (usage : RealtimeUsage)

/-- How an attempt ends. A compaction is priced again before it is settled. -/
inductive Outcome where
  | failed (shouldRetry : Bool)
  | served (report : Served)
  | compacted (requestInput : Except String RequestInput) (usage : Usage)

/-- One round of the relay loop. -/
structure Attempt where
  pick : Pick
  /-- `SetupContextForSelectedChannel` found a key. -/
  setupOk : Bool
  handled : Handled
  outcome : Outcome

/-- The part of `Distribute` that selects the first channel. -/
def distribute (q : SelectSetting) (r : AutoRequest) (pick : Pick) : Option (Progress × String) :=
  match r.preferred.bind fun enabledFor => (q.getUserAutoGroup r.userGroup).find? enabledFor with
  | some group =>
    let p := Progress.start
    some ({ p with context := { p.context with autoGroup := some group } }, group)
  | none =>
    match cacheGetRandomSatisfiedChannel q "auto" r.userGroup r.crossGroupRetry pick Progress.start with
    | (.ok (some (_, group)), p) => some (p, group)
    | _ => none

/-- The relay info after `info.PriceData.GroupRatioInfo = HandleGroupRatio(c, info)`. -/
def refreshGroupRatio (s : PriceSetting) (c : Context) (info : RelayInfo) : RelayInfo :=
  let (groupRatioInfo, info) := handleGroupRatio s c info
  { info with priceData := { info.priceData with groupRatioInfo := groupRatioInfo } }

theorem refreshGroupRatio_eq (s : PriceSetting) (c : Context) (info : RelayInfo) :
    ∃ g : GroupRatioInfo, g.groupRatio = s.ratioFor info.userGroup (servingGroup c info) ∧
      refreshGroupRatio s c info = { info with
        usingGroup := servingGroup c info
        priceData := { info.priceData with groupRatioInfo := g } } := by
  obtain ⟨g, hratio, hhandled⟩ := handleGroupRatio_eq s c info
  exact ⟨g, hratio, by simp only [refreshGroupRatio, hhandled]⟩

/-- `getChannel`: the first channel is the one of `Distribute`, every other is selected anew. -/
def getChannel (s : PriceSetting) (q : SelectSetting) (r : AutoRequest) (a : Attempt)
    (st : Relaying) : Option Relaying :=
  if st.info.channelType = none then some st
  else
    match cacheGetRandomSatisfiedChannel q "auto" r.userGroup r.crossGroupRetry a.pick st.progress with
    | (.ok (some (_, group)), p) =>
      if a.setupOk then some ⟨p, refreshGroupRatio s p.context st.info, group⟩ else none
    | _ => none

/-- What the handler writes. -/
def Relaying.handle (st : Relaying) (h : Handled) : Relaying :=
  { st with
    progress := { st.progress with context :=
      { st.progress.context with
        claudeWebSearchRequests := h.claudeWebSearchRequests
        imageGenerationCall := h.imageGenerationCall
        imageGenerationCallQuality := h.imageGenerationCallQuality
        imageGenerationCallSize := h.imageGenerationCallSize } }
    info := { st.info with
      channelType := some h.channelType
      originModelName := h.originModelName
      finalFormatIsClaude := h.finalFormatIsClaude
      builtInTools := h.builtInTools
      priceData := h.otherRatios.foldl (fun p entry => p.addOtherRatio entry.1 entry.2) st.info.priceData } }

/-- The rounds of `Relay`: the state in which a report is settled, and the report. -/
def relayAttempts (s : PriceSetting) (q : SelectSetting) (r : AutoRequest) :
    List Attempt → Relaying → Option (Relaying × Served)
  | [], _ => none
  | a :: rest, st =>
    if q.retryTimes < st.progress.retry then none
    else
      match getChannel s q r a st with
      | none => none
      | some st =>
        let st := st.handle a.handled
        match a.outcome with
        | .served report => some (st, report)
        | .compacted requestInput usage =>
          match modelPriceHelper s st.progress.context st.info st.info.estimatePromptTokens ⟨0, 0⟩ requestInput with
          | .error _ => none
          | .ok info => some ({ st with info := info }, .text (some usage))
        | .failed shouldRetry =>
          if shouldRetry then relayAttempts s q r rest { st with progress := st.progress.increaseRetry } else none

/-- A request from its first selection to the state in which it is settled. -/
def relay (s : PriceSetting) (q : SelectSetting) (r : AutoRequest) (first : Pick)
    (attempts : List Attempt) : Option (Relaying × Served) :=
  match distribute q r first with
  | none => none
  | some (p, group) =>
    match modelPriceHelper s p.context r.genRelayInfo r.estimatePromptTokens r.tokenCountMeta r.requestInput with
    | .error _ => none
    | .ok info =>
      let info := { info with finalPreConsumedQuota := r.finalPreConsumedQuota }
      relayAttempts s q r attempts ⟨{ p with retry := 0, resetNextTry := false }, info, group⟩

/-- The settlement of a report. -/
def settle (s : PriceSetting) (t : ToolSetting) (st : Relaying) : Served → Consumption
  | .text usage => postTextConsumeQuota s t st.progress.context st.info usage
  | .audio usage => postAudioConsumeQuota s st.info usage
  | .realtime upstreamModelName usage => postWssConsumeQuota s st.info upstreamModelName usage

/-! ## What a request costs without a group -/

/-- The minimum a route imposes on an amount that has a ratio. -/
inductive Minimum where
  | none
  /-- One unit for an amount that is not positive. -/
  | ofNonPositive
  /-- One unit for an amount that rounds to none. -/
  | oneUnit
deriving DecidableEq, Repr

/-- An undiscounted cost, and how a route turns an amount into whole units. -/
structure Charge where
  cost : ℚ
  truncates : Bool
  minimum : Minimum
deriving DecidableEq, Repr

/-- The cost times a ratio, rounded once. -/
def Charge.at (charge : Charge) (ratio : ℚ) : Int :=
  let amount := charge.cost * ratio
  let quota := if charge.truncates then intPart amount else Decimal.round amount
  match charge.minimum with
  | .none => quota
  | .ofNonPositive => if ratio ≠ 0 ∧ amount ≤ 0 then 1 else quota
  | .oneUnit => if ratio ≠ 0 ∧ quota ≤ 0 then 1 else quota

def Charge.zero : Charge := ⟨0, false, .none⟩

/-- The snapshot a request is settled by. -/
def tieredSnapshot (info : RelayInfo) : Option BillingSnapshot :=
  info.tieredBillingSnapshot.filter fun snap => decide (snap.billingMode = billingModeTieredExpr)

/-- The cost a frozen expression gives to token counts; `none` when it fails. -/
def snapshotCost (s : PriceSetting) (info : RelayInfo) (snap : BillingSnapshot)
    (params : TokenParams) : Option ℚ :=
  match s.runExpr snap.exprString params (info.billingRequestInput.getD ⟨[], ""⟩) with
  | .error _ => none
  | .ok (cost, _) => some (cost / 1000000 * snap.quotaPerUnit)

def textCharge (s : PriceSetting) (t : ToolSetting) (c : Context) (info : RelayInfo)
    (usage : Option Usage) : Charge :=
  let report := usageOrEstimate info usage
  if report.promptTokens + report.completionTokens = 0 then Charge.zero
  else
    ⟨textCost s t c (info.atRatio 1) usage, false,
      if info.priceData.usePrice ∨ info.priceData.modelRatio = 0 then .none else .oneUnit⟩

def audioCharge (s : PriceSetting) (q : QuotaInfo) : Charge :=
  ⟨audioCost s { q with groupRatio := 1 }, q.usePrice, if q.usePrice ∨ q.modelRatio = 0 then .none else .ofNonPositive⟩

/-- The charge of a request settled by the audio formula or by its snapshot. -/
def audioOrTieredCharge (s : PriceSetting) (info : RelayInfo) (totalTokens : Int)
    (params : TokenParams) (q : QuotaInfo) : Option Charge :=
  if totalTokens = 0 then some Charge.zero
  else
    match tieredSnapshot info with
    | none => some (audioCharge s q)
    | some snap => (snapshotCost s info snap params).map fun cost => ⟨cost, false, .none⟩

/-- The charge of a request before any group ratio, tool surcharges included; `none` when its frozen
    expression gives no cost. -/
def undiscountedCharge (s : PriceSetting) (t : ToolSetting) (c : Context) (info : RelayInfo) :
    Served → Option Charge
  | .text none => some (textCharge s t c info none)
  | .text (some usage) =>
    match tieredSnapshot info with
    | none => some (textCharge s t c info (some usage))
    | some snap =>
      (snapshotCost s info snap (buildTieredTokenParams usage (isClaudeUsageSemantic info (some usage))
        (s.usedVars snap.exprString))).map fun cost =>
          ⟨cost + calculateTextToolCallSurcharge s t c (info.atRatio 1), false, .none⟩
  | .audio usage =>
    audioOrTieredCharge s info usage.totalTokens (buildTieredTokenParams usage false (snapshotVars s info))
      (audioQuotaInfo info usage)
  | .realtime upstreamModelName usage =>
    audioOrTieredCharge s info usage.totalTokens (realtimeTokenParams usage)
      (realtimeQuotaInfo info upstreamModelName usage)

/-! ## The group in use -/

variable {crossGroupRetry : Bool} {pick : Pick} {group : String} {p p' : Progress}

theorem selectFrom_group {retryTimes start i : Nat} {groups : List String} {channel : Int}
    (h : selectFrom pick crossGroupRetry retryTimes start i groups p = (some (channel, group), p')) :
    p'.context.autoGroup = some group := by
  induction groups generalizing i p with
  | nil => cases h
  | cons autoGroup rest ih =>
    unfold selectFrom at h
    simp only at h
    generalize (if start < i then 0 else p.retry) = priorityRetry at h
    split at h
    · exact ih h
    split at h
    · cases h
      rfl
    · cases h
      rfl

variable {q : SelectSetting}

theorem cacheGetRandomSatisfiedChannel_group {userGroup : String} {channel : Int}
    (h : cacheGetRandomSatisfiedChannel q "auto" userGroup crossGroupRetry pick p = (.ok (some (channel, group)), p')) :
    p'.context.autoGroup = some group := by
  unfold cacheGetRandomSatisfiedChannel at h
  rw [if_pos rfl] at h
  split at h
  · cases h
  have hselected : selectFrom pick crossGroupRetry q.retryTimes (p.autoGroupIndex.getD 0) (p.autoGroupIndex.getD 0)
      ((q.getUserAutoGroup userGroup).drop (p.autoGroupIndex.getD 0)) p = (some (channel, group), p') := by
    injection h with hfst hsnd
    injection hfst with hfst
    exact Prod.ext hfst hsnd
  exact selectFrom_group hselected

theorem distribute_group {r : AutoRequest}
    (h : distribute q r pick = some (p, group)) : p.context.autoGroup = some group := by
  unfold distribute at h
  split at h
  · cases h
    rfl
  split at h
  · rename_i hselected
    cases h
    exact cacheGetRandomSatisfiedChannel_group hselected
  · cases h

/-- The price data and the context are those of the group in use; the snapshot's ratio, if there is
    a snapshot, is one of `Frozen`. -/
structure AtGroupRatio (s : PriceSetting) (r : AutoRequest) (Frozen : ℚ → Prop) (st : Relaying) : Prop where
  userGroup : st.info.userGroup = r.userGroup
  notSkipped : st.info.skipConsumeQuota = false
  autoGroup : st.progress.context.autoGroup = some st.group
  ratio : st.info.priceData.groupRatioInfo.groupRatio = s.ratioFor r.userGroup st.group
  priced : st.info.priceData.usePrice = true → st.info.priceData.modelRatio = 0
  snapshot : ∀ snap, st.info.tieredBillingSnapshot = some snap → Frozen snap.groupRatio

section Invariant

variable {s : PriceSetting} {q : SelectSetting} {r : AutoRequest} {st : Relaying} {Frozen : ℚ → Prop}

theorem AtGroupRatio.of_priced (Frozen : ℚ → Prop) {group : String} {info info' : RelayInfo} {promptTokens : Int}
    {tokens : TokenCountMeta} {requestInput : Except String RequestInput}
    (hgroup : p.context.autoGroup = some group) (huser : info.userGroup = r.userGroup)
    (hskip : info.skipConsumeQuota = false)
    (hsnapshot : ∀ snap, info.tieredBillingSnapshot = some snap → Frozen snap.groupRatio)
    (h : modelPriceHelper s p.context info promptTokens tokens requestInput = .ok info') :
    AtGroupRatio s r (fun ratio => Frozen ratio ∨ (s.getBillingMode info.originModelName = billingModeTieredExpr ∧
      ratio = s.ratioFor r.userGroup group)) ⟨p, info', group⟩ := by
  obtain ⟨huser', hskip', hratio, hpriced, hsnapshot'⟩ := modelPriceHelper_ok h
  have hserving : servingGroup p.context info = group := by rw [servingGroup, hgroup, Option.getD_some]
  rw [hserving, huser] at hratio hsnapshot'
  refine ⟨huser'.trans huser, hskip'.trans hskip, hgroup, hratio, hpriced, fun snap hsnap => ?_⟩
  exact (hsnapshot' snap hsnap).elim .inr fun hkept => .inl (hsnapshot snap hkept)

theorem AtGroupRatio.getChannel {a : Attempt} {st' : Relaying} (hst : AtGroupRatio s r Frozen st)
    (h : getChannel s q r a st = some st') : AtGroupRatio s r Frozen st' := by
  unfold Relay.getChannel at h
  split at h
  · cases h
    exact hst
  split at h
  · rename_i channel group p hselected
    split at h
    · cases h
      have hgroup : p.context.autoGroup = some group :=
        cacheGetRandomSatisfiedChannel_group hselected
      have hserving : servingGroup p.context st.info = group := by rw [servingGroup, hgroup, Option.getD_some]
      obtain ⟨g, hratio, hinfo⟩ := refreshGroupRatio_eq s p.context st.info
      rw [hserving, hst.userGroup] at hratio
      rw [hinfo]
      exact ⟨hst.userGroup, hst.notSkipped, hgroup, hratio, hst.priced, hst.snapshot⟩
    · cases h
  · cases h

theorem foldl_addOtherRatio_rest (entries : List (String × ℚ)) (p : PriceData) :
    let p' := entries.foldl (fun p entry => p.addOtherRatio entry.1 entry.2) p
    p'.groupRatioInfo = p.groupRatioInfo ∧ p'.usePrice = p.usePrice ∧ p'.modelRatio = p.modelRatio := by
  induction entries generalizing p with
  | nil => exact ⟨rfl, rfl, rfl⟩
  | cons entry rest ih =>
    obtain ⟨hratio, hprice, hmodel⟩ := ih (p.addOtherRatio entry.1 entry.2)
    have hstep : (p.addOtherRatio entry.1 entry.2).groupRatioInfo = p.groupRatioInfo ∧
        (p.addOtherRatio entry.1 entry.2).usePrice = p.usePrice ∧
        (p.addOtherRatio entry.1 entry.2).modelRatio = p.modelRatio := by
      unfold PriceData.addOtherRatio
      split
      · exact ⟨rfl, rfl, rfl⟩
      · exact ⟨rfl, rfl, rfl⟩
    exact ⟨hratio.trans hstep.1, hprice.trans hstep.2.1, hmodel.trans hstep.2.2⟩

theorem AtGroupRatio.handle (h : Handled) (hst : AtGroupRatio s r Frozen st) :
    AtGroupRatio s r Frozen (st.handle h) := by
  obtain ⟨hratio, hprice, hmodel⟩ := foldl_addOtherRatio_rest h.otherRatios st.info.priceData
  refine ⟨hst.userGroup, hst.notSkipped, hst.autoGroup, ?_, ?_, hst.snapshot⟩
  · show (List.foldl _ st.info.priceData h.otherRatios).groupRatioInfo.groupRatio = _
    rw [hratio]
    exact hst.ratio
  show (List.foldl _ st.info.priceData h.otherRatios).usePrice = true →
    (List.foldl _ st.info.priceData h.otherRatios).modelRatio = 0
  rw [hprice, hmodel]
  exact hst.priced

theorem AtGroupRatio.increaseRetry (hst : AtGroupRatio s r Frozen st) :
    AtGroupRatio s r Frozen { st with progress := st.progress.increaseRetry } := by
  have hcontext : st.progress.increaseRetry.context = st.progress.context := by
    unfold Progress.increaseRetry
    split
    · rfl
    · rfl
  refine ⟨hst.userGroup, hst.notSkipped, ?_, hst.ratio, hst.priced, hst.snapshot⟩
  show st.progress.increaseRetry.context.autoGroup = some st.group
  rw [hcontext]
  exact hst.autoGroup

variable {attempts : List Attempt} {report : Served}

/-- Only a compaction, which ends the run, freezes a ratio again. -/
theorem relayAttempts_invariant {st' : Relaying}
    (hst : AtGroupRatio s r Frozen st) (h : relayAttempts s q r attempts st = some (st', report)) :
    AtGroupRatio s r (fun ratio => Frozen ratio ∨ ratio = s.ratioFor r.userGroup st'.group) st' := by
  induction attempts generalizing st with
  | nil => cases h
  | cons a rest ih =>
    unfold relayAttempts at h
    split at h
    · cases h
    split at h
    · cases h
    rename_i st₁ hchannel
    have hhandled : AtGroupRatio s r Frozen (st₁.handle a.handled) :=
      (hst.getChannel hchannel).handle a.handled
    simp only at h
    split at h
    · cases h
      exact { hhandled with snapshot := fun snap hsnap => .inl (hhandled.snapshot snap hsnap) }
    · -- a compaction is priced again, for the same group
      split at h
      · cases h
      rename_i hpriced
      cases h
      have hagain := AtGroupRatio.of_priced Frozen hhandled.autoGroup hhandled.userGroup hhandled.notSkipped
        hhandled.snapshot hpriced
      exact { hagain with snapshot := fun snap hsnap => (hagain.snapshot snap hsnap).imp_right And.right }
    · split at h
      · exact ih hhandled.increaseRetry h
      · cases h

/-- The ratio a tiered model is priced at before the first attempt. -/
def FirstRatio (s : PriceSetting) (q : SelectSetting) (r : AutoRequest) (first : Pick) (ratio : ℚ) :
    Prop :=
  s.getBillingMode r.originModelName = billingModeTieredExpr ∧
    ∃ p group, distribute q r first = some (p, group) ∧ ratio = s.ratioFor r.userGroup group

theorem relay_invariant {first : Pick} (h : relay s q r first attempts = some (st, report)) :
    AtGroupRatio s r (fun ratio => FirstRatio s q r first ratio ∨ ratio = s.ratioFor r.userGroup st.group) st := by
  unfold relay at h
  split at h
  · cases h
  rename_i p group hfirst
  split at h
  · cases h
  rename_i info hpriced
  have hgroup : p.context.autoGroup = some group := distribute_group hfirst
  have hnone : ∀ snap, r.genRelayInfo.tieredBillingSnapshot = some snap → False := by
    intro snap hsnap
    cases hsnap
  have hinfo := AtGroupRatio.of_priced (fun _ => False) (r := r) hgroup rfl rfl hnone hpriced
  refine relayAttempts_invariant ?_ h
  refine ⟨hinfo.userGroup, hinfo.notSkipped, hgroup, hinfo.ratio, hinfo.priced,
    fun snap hsnap => ?_⟩
  obtain hfalse | ⟨hmode, hratio⟩ := hinfo.snapshot snap hsnap
  · exact hfalse.elim
  · exact ⟨hmode, p, group, hfirst, hratio⟩

end Invariant

/-! ## Settlement -/

attribute [local simp] Charge.at quotaOf

theorem Charge.zero_at (ratio : ℚ) : Charge.zero.at ratio = 0 := by
  have hround : Decimal.round 0 = 0 := round_eq_zero_iff.mpr (by norm_num)
  simp [Charge.zero, hround]

/-- The minimum of the text formula: one unit for a request with tokens that has a ratio. -/
theorem quotaOf_eq_at {p : PriceData} {totalTokens : Int} (htokens : totalTokens ≠ 0)
    (hpriced : p.usePrice = true → p.modelRatio = 0) (cost : ℚ) :
    quotaOf p totalTokens (cost * p.groupRatioInfo.groupRatio) =
      Charge.at ⟨cost, false, if p.usePrice ∨ p.modelRatio = 0 then .none else .oneUnit⟩
        p.groupRatioInfo.groupRatio := by
  generalize hratio : p.groupRatioInfo.groupRatio = ratio
  by_cases hmodel : p.modelRatio = 0
  · simp [hmodel, htokens]
  have hprice : p.usePrice = false := by
    cases hprice : p.usePrice with
    | true => exact absurd (hpriced hprice) hmodel
    | false => rfl
  by_cases hzero : ratio = 0
  · simp [hratio, hmodel, hprice, hzero, htokens]
  have hproduct : p.modelRatio * ratio ≠ 0 := mul_ne_zero hmodel hzero
  simp only [quotaOf, Charge.at, hratio, hmodel, hprice, hproduct, hzero, htokens, ne_eq,
    not_false_eq_true, true_and, if_false, or_self, Bool.false_eq_true]
  generalize cost * ratio = amount
  by_cases hle : amount ≤ 0
  · have hrounded : ¬ 0 < Decimal.round amount := fun hpos => by linarith [round_pos_iff.mp hpos]
    have hone : Decimal.round 1 = 1 := by simpa using round_natCast 1
    rw [if_pos hle, hone, if_neg one_ne_zero, if_pos (by omega)]
  have hnonneg : 0 ≤ Decimal.round amount := round_nonneg (not_le.mp hle).le
  rw [if_neg hle]
  split
  · rw [if_pos (by omega)]
  · rw [if_neg (by omega)]

theorem calculateTextQuotaSummary_quota (s : PriceSetting) (t : ToolSetting) (c : Context)
    {info : RelayInfo} (usage : Option Usage)
    (hpriced : info.priceData.usePrice = true → info.priceData.modelRatio = 0) :
    (calculateTextQuotaSummary s t c info usage).quota =
      (textCharge s t c info usage).at info.priceData.groupRatioInfo.groupRatio := by
  set total := (usageOrEstimate info usage).promptTokens + (usageOrEstimate info usage).completionTokens with htotal
  have hquota : (calculateTextQuotaSummary s t c info usage).quota =
      quotaOf info.priceData total (textCost s t c info usage) := rfl
  rw [hquota, textCost_eq]
  unfold textCharge
  by_cases hnone : total = 0
  · rw [if_pos hnone, Charge.zero_at]
    simp [hnone]
  · rw [if_neg hnone]
    exact quotaOf_eq_at hnone hpriced _

theorem calculateAudioQuota_eq_at (s : PriceSetting) (q : QuotaInfo) :
    calculateAudioQuota s q = (audioCharge s q).at q.groupRatio := by
  unfold calculateAudioQuota audioCharge
  rw [audioCost_eq s q]
  generalize audioCost s { q with groupRatio := 1 } = cost
  cases hprice : q.usePrice with
  | true => simp
  | false =>
    by_cases hmodel : q.modelRatio = 0
    · simp [hmodel]
    · simp [hmodel]

section Tiered

variable {s : PriceSetting} {info : RelayInfo} {snap : BillingSnapshot}

theorem tieredSnapshot_eq_some (h : tieredSnapshot info = some snap) :
    info.tieredBillingSnapshot = some snap ∧ snap.billingMode = billingModeTieredExpr := by
  have hfilter := Option.filter_eq_some_iff.mp h
  exact ⟨hfilter.1, of_decide_eq_true hfilter.2⟩

theorem tryTieredSettle_of_none (h : tieredSnapshot info = none) (params : TokenParams) :
    tryTieredSettle s info params = none := by
  unfold tryTieredSettle
  cases hsnap : info.tieredBillingSnapshot with
  | none => rfl
  | some snap =>
    have hmode : snap.billingMode ≠ billingModeTieredExpr := by simpa [tieredSnapshot, hsnap] using h
    simp only [if_pos hmode]

theorem tryTieredSettle_of_cost {params : TokenParams} {cost : ℚ}
    (h : tieredSnapshot info = some snap) (hcost : snapshotCost s info snap params = some cost) :
    tryTieredSettle s info params =
      some (Decimal.round (cost * snap.groupRatio), some ⟨cost, Decimal.round (cost * snap.groupRatio)⟩) := by
  obtain ⟨hsnap, hmode⟩ := tieredSnapshot_eq_some h
  unfold snapshotCost at hcost
  split at hcost
  · cases hcost
  rename_i hrun
  cases hcost
  simp [tryTieredSettle, hsnap, hmode, computeTieredQuotaWithRequest, hrun]

end Tiered

/-- The snapshot a request is settled by carries the ratio of the group in use. -/
def Steady (s : PriceSetting) (st : Relaying) : Prop :=
  ∀ snap, tieredSnapshot st.info = some snap → snap.groupRatio = s.ratioFor st.info.userGroup st.group

section Settle

variable {s : PriceSetting} {t : ToolSetting} {r : AutoRequest} {st : Relaying} {Frozen : ℚ → Prop}

theorem postTextConsumeQuota_settled {c : Context} {info : RelayInfo} (usage : Option Usage)
    (h : info.skipConsumeQuota = false) :
    (postTextConsumeQuota s t c info usage).settled = some (settledQuota s t c info usage) := by
  simp only [postTextConsumeQuota, h, Bool.false_eq_true, if_false]
  split
  · rfl
  · rfl

theorem settle_text {usage : Option Usage} {charge : Charge} (hst : AtGroupRatio s r Frozen st)
    (hsteady : Steady s st)
    (hcost : undiscountedCharge s t st.progress.context st.info (.text usage) = some charge) :
    (settle s t st (.text usage)).settled = some (charge.at (s.ratioFor r.userGroup st.group)) := by
  show (postTextConsumeQuota s t st.progress.context st.info usage).settled = _
  rw [postTextConsumeQuota_settled usage hst.notSkipped, ← hst.ratio]
  congr 1
  unfold settledQuota
  rcases usage with _ | usage
  · cases hcost
    exact calculateTextQuotaSummary_quota s t _ none hst.priced
  rw [Option.bind_some]
  rcases hsnap : tieredSnapshot st.info with _ | snap
  · simp only [undiscountedCharge, hsnap] at hcost
    cases hcost
    rw [tieredCharge, tryTieredSettle_of_none hsnap]
    exact calculateTextQuotaSummary_quota s t _ (some usage) hst.priced
  simp only [undiscountedCharge, hsnap] at hcost
  obtain ⟨cost, hrun, rfl⟩ := Option.map_eq_some_iff.mp hcost
  have hvars : snapshotVars s st.info = s.usedVars snap.exprString := by
    rw [snapshotVars, (tieredSnapshot_eq_some hsnap).1, Option.elim_some]
  have hratio : snap.groupRatio = st.info.priceData.groupRatioInfo.groupRatio := by
    rw [hsteady snap hsnap, hst.ratio, hst.userGroup]
  rw [tieredCharge, hvars, tryTieredSettle_of_cost hsnap hrun, Option.map_some, Option.getD_some]
  simp only [composeTieredTextQuota, (tieredSnapshot_eq_some hsnap).1, Charge.at, hratio,
    Bool.false_eq_true, if_false]
  rw [add_mul, ← calculateTextToolCallSurcharge_eq]
  split
  case isTrue hzero => rw [hzero, add_zero]
  case isFalse => rfl

theorem audioConsumption_settled {totalTokens : Int} {params : TokenParams} {q : QuotaInfo}
    {charge : Charge} (hst : AtGroupRatio s r Frozen st) (hsteady : Steady s st)
    (hq : q.groupRatio = st.info.priceData.groupRatioInfo.groupRatio)
    (hcost : audioOrTieredCharge s st.info totalTokens params q = some charge) :
    (audioConsumption totalTokens (tryTieredSettle s st.info params) (calculateAudioQuota s q)).settled =
      some (charge.at (s.ratioFor r.userGroup st.group)) := by
  unfold audioOrTieredCharge at hcost
  unfold audioConsumption
  split at hcost
  · rename_i htokens
    cases hcost
    rw [if_pos htokens, Charge.zero_at]
  rename_i htokens
  rw [if_neg htokens, ← hst.ratio]
  cases hsnap : tieredSnapshot st.info with
  | none =>
    rw [hsnap] at hcost
    cases hcost
    rw [tryTieredSettle_of_none hsnap, ← hq, ← calculateAudioQuota_eq_at]
    rfl
  | some snap =>
    rw [hsnap] at hcost
    obtain ⟨cost, hrun, rfl⟩ := Option.map_eq_some_iff.mp hcost
    have hratio : snap.groupRatio = st.info.priceData.groupRatioInfo.groupRatio := by
      rw [hsteady snap hsnap, hst.ratio, hst.userGroup]
    rw [tryTieredSettle_of_cost hsnap hrun, hratio]
    rfl

end Settle

/-- In every run of an auto-group token's request, if a tiered model's first group has the ratio of
the serving group and the expression runs, the quota settled is the undiscounted cost times that
ratio, rounded once. -/
theorem settled_at_serving_ratio (s : PriceSetting) (t : ToolSetting) (q : SelectSetting)
    (r : AutoRequest) (first : Pick) (attempts : List Attempt) (st : Relaying) (report : Served)
    (charge : Charge) (hrun : relay s q r first attempts = some (st, report))
    (hsteady : s.getBillingMode r.originModelName = billingModeTieredExpr → ∀ p group,
      distribute q r first = some (p, group) →
      s.ratioFor r.userGroup group = s.ratioFor r.userGroup st.group)
    (hcost : undiscountedCharge s t st.progress.context st.info report = some charge) :
    (settle s t st report).settled = some (charge.at (s.ratioFor r.userGroup st.group)) := by
  have hst := relay_invariant hrun
  have hsnapshot : Steady s st := by
    intro snap hsnap
    rw [hst.userGroup]
    obtain ⟨hmode, p, group, hfirst, hratio⟩ | hratio :=
      hst.snapshot snap (tieredSnapshot_eq_some hsnap).1
    · exact hratio.trans (hsteady hmode p group hfirst)
    · exact hratio
  cases report with
  | text usage => exact settle_text hst hsnapshot hcost
  | audio usage | realtime upstreamModelName usage => exact audioConsumption_settled hst hsnapshot rfl hcost

/-- Two groups, the second at twice the ratio, and a model of ratio 1/2. -/
def twoGroupSetting : PriceSetting :=
  { PriceSetting.unset with
    groupRatioMap := fun group => if group = "premium" then some 2 else none
    modelRatioMap := fun _ => some (1 / 2)
    quotaPerUnit := 500000 }

/-- The same groups, and the model billed by an expression of two dollars a million prompt
tokens. -/
def twoGroupTieredSetting : PriceSetting :=
  { twoGroupSetting with
    billingMode := fun _ => some billingModeTieredExpr
    billingExpr := fun _ => some "tier(\"base\", p * 2)"
    runExpr := fun _ params _ => .ok (params.p * 2, "base") }

/-- A web search costs ten dollars a thousand. -/
def searchPrices : ToolSetting := { ToolSetting.free with getToolPriceForModel := fun _ _ => 10 }

def twoGroups : SelectSetting := ⟨["basic", "premium"], fun _ _ => true, 1⟩

def sampleRequest : AutoRequest where
  userId := 1
  userGroup := "default"
  crossGroupRetry := true
  originModelName := "model"
  acceptUnsetRatioModel := false
  preferred := none
  imageChannelType := none
  estimatePromptTokens := 1000
  tokenCountMeta := ⟨0, 0⟩
  requestInput := .ok ⟨[], ""⟩
  finalPreConsumedQuota := 1000
  builtInTools := none
  finalFormatIsClaude := false

/-- A handler that reports one web search. -/
def searchHandled : Handled := ⟨1, "model", false, none, [], 1, false, "", ""⟩

def basicChannel : Pick := fun group _ => .ok (if group = "basic" then some 1 else none)

def premiumChannel : Pick := fun group _ => .ok (if group = "premium" then some 2 else none)

/-- The basic group's channel fails, the premium group's serves a thousand prompt tokens. -/
def movingAttempts : List Attempt :=
  [⟨basicChannel, true, searchHandled, .failed true⟩,
   ⟨premiumChannel, true, searchHandled, .served (.text (some (Usage.ofText 1000 0)))⟩]

/-- The serving group, what was settled, and the undiscounted cost at the serving group's ratio. -/
def settledAndDue (s : PriceSetting) (t : ToolSetting) (r : AutoRequest)
    (served : Relaying × Served) : String × Option Int × Option Int :=
  (served.1.group, (settle s t served.1 served.2).settled,
    (undiscountedCharge s t served.1.progress.context served.1.info served.2).map fun charge =>
      charge.at (s.ratioFor r.userGroup served.1.group))

/-- The premium group's channel fails once and then serves the same request. -/
def stayingAttempts : List Attempt :=
  [⟨premiumChannel, true, searchHandled, .failed true⟩,
   ⟨premiumChannel, true, searchHandled, .served (.text (some (Usage.ofText 1000 0)))⟩]

/-- A ratio-billed request that moved to the premium group is charged at its ratio, search included;
so is a request for the tiered model that was priced for the premium group and stayed there. -/
theorem moved_request_at_serving_ratio :
    (∃ st report, relay twoGroupSetting twoGroups sampleRequest basicChannel movingAttempts = some (st, report) ∧
      (settle twoGroupSetting searchPrices st report).settled =
        some (Charge.at ⟨5500, false, .oneUnit⟩ (twoGroupSetting.ratioFor "default" st.group))) ∧
    ∃ st report,
      relay twoGroupTieredSetting twoGroups sampleRequest premiumChannel stayingAttempts = some (st, report) ∧
      (settle twoGroupTieredSetting searchPrices st report).settled =
        some (Charge.at ⟨6000, false, .none⟩ (twoGroupTieredSetting.ratioFor "default" st.group)) := by
  constructor
  · have hserved : (relay twoGroupSetting twoGroups sampleRequest basicChannel movingAttempts).isSome = true := by
      decide +kernel
    obtain ⟨served, hrun⟩ := Option.isSome_iff_exists.mp hserved
    have hcost : (relay twoGroupSetting twoGroups sampleRequest basicChannel movingAttempts).map (fun served =>
        undiscountedCharge twoGroupSetting searchPrices served.1.progress.context served.1.info served.2) =
        some (some ⟨5500, false, .oneUnit⟩) := by decide +kernel
    rw [hrun, Option.map_some, Option.some.injEq] at hcost
    refine ⟨served.1, served.2, hrun, ?_⟩
    refine settled_at_serving_ratio _ _ twoGroups sampleRequest basicChannel movingAttempts _ _ _ hrun ?_ hcost
    intro hmode
    exact absurd hmode (by decide)
  · have hserved : (relay twoGroupTieredSetting twoGroups sampleRequest premiumChannel stayingAttempts).map
        (fun served => served.1.group) = some "premium" := by decide +kernel
    obtain ⟨served, hrun, hgroup⟩ := Option.map_eq_some_iff.mp hserved
    have hcost : (relay twoGroupTieredSetting twoGroups sampleRequest premiumChannel stayingAttempts).map (fun served =>
        undiscountedCharge twoGroupTieredSetting searchPrices served.1.progress.context served.1.info served.2) =
        some (some ⟨6000, false, .none⟩) := by decide +kernel
    rw [hrun, Option.map_some, Option.some.injEq] at hcost
    refine ⟨served.1, served.2, hrun, ?_⟩
    refine settled_at_serving_ratio _ _ twoGroups sampleRequest premiumChannel stayingAttempts _ _ _ hrun ?_ hcost
    intro _ p group hfirst
    have hpremium : (distribute twoGroups sampleRequest premiumChannel).map Prod.snd = some "premium" := by
      decide +kernel
    rw [hfirst, Option.map_some, Option.some.injEq] at hpremium
    have hsame : group = served.1.group := hpremium.trans hgroup.symm
    rw [hsame]

/-- The request for the tiered model is charged 1000 units at the first group's ratio and 5000 at
the second's, where 6000 were due. -/
theorem snapshot_keeps_first_ratio :
    (relay twoGroupTieredSetting twoGroups sampleRequest basicChannel movingAttempts).map
      (settledAndDue twoGroupTieredSetting searchPrices sampleRequest) =
      some ("premium", some 11000, some 12000) := by
  decide +kernel

end NewApi.Relay
