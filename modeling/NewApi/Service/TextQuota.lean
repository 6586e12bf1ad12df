import NewApi.Relay.Price

/-!
# Settling a text request (`service/text_quota.go`, `service/tiered_settle.go`)

When the upstream has reported the usage of a request, its quota is computed once by the ratio or
price formula, possibly replaced by what the tiered expression frozen at pricing time gives, then
recorded as used quota and settled with the billing session.

* `calculateTextQuotaSummary` — the formula. Every term carries the group ratio, so the amount
  before rounding is the one at ratio 1 times the ratio: `textCost_eq`.
* `tryTieredSettle`, `composeTieredTextQuota` — the frozen expression. Its own part carries the
  ratio of the snapshot, the tool surcharge that of the relay info.
* `postTextConsumeQuota` — what is recorded and what is settled.
-/

namespace NewApi.Relay

open NewApi.Decimal

/-! ## Usage -/

/-- `dto.InputTokenDetails`, the counts that are billed. -/
structure InputTokenDetails where
  cachedTokens : Int
  cachedCreationTokens : Int
  textTokens : Int
  audioTokens : Int
  imageTokens : Int
deriving DecidableEq, Repr

/-- `dto.OutputTokenDetails`, the counts that are billed. -/
structure OutputTokenDetails where
  textTokens : Int
  audioTokens : Int
  imageTokens : Int
deriving DecidableEq, Repr

structure Usage where
  promptTokens : Int
  completionTokens : Int
  totalTokens : Int
  usageSemantic : String
  usageSource : String
  promptTokensDetails : InputTokenDetails
  completionTokenDetails : OutputTokenDetails
  claudeCacheCreation5mTokens : Int
  claudeCacheCreation1hTokens : Int
  /-- `Cost` as a number; anything else counts as 0. -/
  cost : ℚ
deriving DecidableEq, Repr

/-- A report of text tokens and nothing else. -/
def Usage.ofText (promptTokens completionTokens : Int) : Usage :=
  ⟨promptTokens, completionTokens, promptTokens + completionTokens, "", "", ⟨0, 0, 0, 0, 0⟩, ⟨0, 0, 0⟩, 0, 0, 0⟩

/-- The prices of `operation_setting` for tools and audio. -/
structure ToolSetting where
  getToolPriceForModel : String → String → ℚ
  getGPTImage1PriceOnceCall : String → String → ℚ
  getGeminiInputAudioPricePerMillionTokens : String → ℚ

def ToolSetting.getToolPrice (t : ToolSetting) (toolName : String) : ℚ := t.getToolPriceForModel toolName ""

def channelTypeOpenRouter : Int := 20

def usageSemanticFromUsage (info : RelayInfo) (usage : Option Usage) : String :=
  let reported := usage.elim "" Usage.usageSemantic
  if reported ≠ "" then reported else if info.finalFormatIsClaude then "anthropic" else "openai"

def isClaudeUsageSemantic (info : RelayInfo) (usage : Option Usage) : Bool :=
  decide (usageSemanticFromUsage info usage = "anthropic")

def isLegacyClaudeDerivedOpenAIUsage (info : RelayInfo) (usage : Usage) : Bool :=
  if info.finalFormatIsClaude then false
  else if usage.usageSource ≠ "" ∨ usage.usageSemantic ≠ "" then false
  else decide (0 < usage.claudeCacheCreation5mTokens ∨ 0 < usage.claudeCacheCreation1hTokens)

/-- The report of `calculateTextQuotaSummary` when there is none: the estimate. -/
def usageOrEstimate (info : RelayInfo) (usage : Option Usage) : Usage :=
  usage.getD (Usage.ofText info.estimatePromptTokens 0)

/-! ## Tool calls -/

def toolCalls (info : RelayInfo) (tool : String) : Int :=
  ((info.builtInTools.bind (findKey tool)).filter fun count => decide (0 < count)).getD 0

/-- What the tool calls cost, in units of the currency. -/
def toolCallCost (t : ToolSetting) (c : Context) (info : RelayInfo) : ℚ :=
  let webSearchPrice := t.getToolPriceForModel "web_search_preview" info.originModelName
  let webSearch :=
    if info.builtInTools.isSome then div (webSearchPrice * toolCalls info "web_search_preview") 1000
    else if "search-preview".toList.isSuffixOf info.originModelName.toList then div webSearchPrice 1000
    else 0
  let claudeWebSearch :=
    if 0 < c.claudeWebSearchRequests then div (t.getToolPrice "web_search") 1000 * c.claudeWebSearchRequests else 0
  let fileSearch := div (t.getToolPrice "file_search" * toolCalls info "file_search") 1000
  let imageGeneration :=
    if c.imageGenerationCall then
      t.getGPTImage1PriceOnceCall c.imageGenerationCallQuality c.imageGenerationCallSize
    else 0
  webSearch + claudeWebSearch + fileSearch + imageGeneration

def calculateTextToolCallSurcharge (s : PriceSetting) (t : ToolSetting) (c : Context)
    (info : RelayInfo) : ℚ :=
  toolCallCost t c info * info.priceData.groupRatioInfo.groupRatio * s.quotaPerUnit

/-! ## The formula -/

def hasCustomModelRatio (s : PriceSetting) (modelName : String) (currentRatio : ℚ) : Bool :=
  match s.defaultModelRatio modelName with
  | none => true
  | some defaultRatio => decide (currentRatio ≠ defaultRatio)

def calcOpenRouterCacheCreateTokens (s : PriceSetting) (usage : Usage) (p : PriceData) : Int :=
  if p.cacheCreationRatio = 1 then 0
  else
    let quotaPrice := p.modelRatio / s.quotaPerUnit
    let promptCacheCreatePrice := quotaPrice * p.cacheCreationRatio
    let promptCacheReadPrice := quotaPrice * p.cacheRatio
    let completionPrice := quotaPrice * p.completionRatio
    Decimal.round ((usage.cost - usage.promptTokens * quotaPrice +
      usage.promptTokensDetails.cachedTokens * (quotaPrice - promptCacheReadPrice) -
      usage.completionTokens * completionPrice) / (promptCacheCreatePrice - quotaPrice))

/-- The prompt and cache creation tokens that are billed: OpenRouter counts cached tokens of Claude
models among the prompt tokens and does not report the cache creation. The test `usage.Cost != 0`
compares an interface with an untyped 0 and is always true. -/
def billedPromptTokens (s : PriceSetting) (info : RelayInfo) (claude : Bool) (usage : Usage) :
    Int × Int :=
  let cacheCreationTokens := usage.promptTokensDetails.cachedCreationTokens
  if info.channelType = some channelTypeOpenRouter ∧ claude = true then
    let promptTokens := usage.promptTokens - usage.promptTokensDetails.cachedTokens
    let isUsingCustomSettings :=
      info.priceData.usePrice || hasCustomModelRatio s info.originModelName info.priceData.modelRatio
    let maybeCacheCreationTokens := calcOpenRouterCacheCreateTokens s usage info.priceData
    let cacheCreationTokens :=
      if cacheCreationTokens = 0 ∧ info.priceData.cacheCreationRatio ≠ 1 ∧ isUsingCustomSettings = false ∧
          0 ≤ maybeCacheCreationTokens ∧ maybeCacheCreationTokens ≤ promptTokens then
        maybeCacheCreationTokens
      else cacheCreationTokens
    (promptTokens - cacheCreationTokens, cacheCreationTokens)
  else (usage.promptTokens, cacheCreationTokens)

/-- The tokens of a ratio-billed request, each kind times its ratio to a prompt token. -/
def weightedTokens (s : PriceSetting) (t : ToolSetting) (info : RelayInfo) (claude : Bool)
    (usage : Usage) : ℚ :=
  let p := info.priceData
  let (promptTokens, cacheCreationTokens) := billedPromptTokens s info claude usage
  let cacheTokens := usage.promptTokensDetails.cachedTokens
  let imageTokens := usage.promptTokensDetails.imageTokens
  let audioTokens := usage.promptTokensDetails.audioTokens
  let tokens5m := usage.claudeCacheCreation5mTokens
  let tokens1h := usage.claudeCacheCreation1hTokens
  let apart := claude || isLegacyClaudeDerivedOpenAIUsage info usage
  let created := decide (cacheCreationTokens ≠ 0 ∨ 0 < tokens5m ∨ 0 < tokens1h)
  let audioPriced := decide (audioTokens ≠ 0 ∧ 0 < t.getGeminiInputAudioPricePerMillionTokens info.originModelName)
  -- what is billed at another ratio is not a plain prompt token; Claude reports it apart already
  let baseTokens : Int := promptTokens - (if apart then 0 else cacheTokens) -
    (if created && !apart then cacheCreationTokens else 0) - imageTokens - (if audioPriced then audioTokens else 0)
  let cacheCreation : ℚ :=
    if !created then 0
    else if !apart then cacheCreationTokens * p.cacheCreationRatio
    else
      let remaining := max (cacheCreationTokens - tokens5m - tokens1h) 0
      remaining * p.cacheCreationRatio + tokens5m * p.cacheCreation5mRatio + tokens1h * p.cacheCreation1hRatio
  baseTokens + cacheTokens * p.cacheRatio + imageTokens * p.imageRatio + cacheCreation +
    usage.completionTokens * p.completionRatio

/-- The audio input of a ratio-billed request, in units of the currency. -/
def audioInputCost (t : ToolSetting) (info : RelayInfo) (usage : Usage) : ℚ :=
  let audioTokens := usage.promptTokensDetails.audioTokens
  let audioInputPrice := t.getGeminiInputAudioPricePerMillionTokens info.originModelName
  if audioTokens ≠ 0 ∧ 0 < audioInputPrice then div audioInputPrice 1000000 * audioTokens else 0

def otherRatioProduct (info : RelayInfo) : ℚ := (info.priceData.otherRatios.map Prod.snd).prod

/-- `quotaCalculateDecimal` before any minimum. -/
def textCost (s : PriceSetting) (t : ToolSetting) (c : Context) (info : RelayInfo)
    (usage : Option Usage) : ℚ :=
  let p := info.priceData
  let groupRatio := p.groupRatioInfo.groupRatio
  let surcharge := calculateTextToolCallSurcharge s t c info
  let report := usageOrEstimate info usage
  if !p.usePrice then
    (weightedTokens s t info (isClaudeUsageSemantic info usage) report * (p.modelRatio * groupRatio) + surcharge +
      audioInputCost t info report * groupRatio * s.quotaPerUnit) * otherRatioProduct info
  else (p.modelPrice * s.quotaPerUnit * groupRatio + surcharge) * otherRatioProduct info

/-- The relay info with another group ratio. -/
def RelayInfo.atRatio (info : RelayInfo) (ratio : ℚ) : RelayInfo :=
  { info with priceData := { info.priceData with
    groupRatioInfo := { info.priceData.groupRatioInfo with groupRatio := ratio } } }

theorem calculateTextToolCallSurcharge_eq (s : PriceSetting) (t : ToolSetting) (c : Context)
    (info : RelayInfo) :
    calculateTextToolCallSurcharge s t c info =
      calculateTextToolCallSurcharge s t c (info.atRatio 1) * info.priceData.groupRatioInfo.groupRatio := by
  have hcost : toolCallCost t c (info.atRatio 1) = toolCallCost t c info := rfl
  have hratio : (info.atRatio 1).priceData.groupRatioInfo.groupRatio = 1 := rfl
  unfold calculateTextToolCallSurcharge
  rw [hcost, hratio]
  ring

theorem textCost_eq (s : PriceSetting) (t : ToolSetting) (c : Context) (info : RelayInfo)
    (usage : Option Usage) :
    textCost s t c info usage =
      textCost s t c (info.atRatio 1) usage * info.priceData.groupRatioInfo.groupRatio := by
  have hweights : weightedTokens s t (info.atRatio 1) (isClaudeUsageSemantic (info.atRatio 1) usage)
      (usageOrEstimate (info.atRatio 1) usage) =
      weightedTokens s t info (isClaudeUsageSemantic info usage) (usageOrEstimate info usage) := rfl
  have haudio : audioInputCost t (info.atRatio 1) (usageOrEstimate (info.atRatio 1) usage) =
      audioInputCost t info (usageOrEstimate info usage) := rfl
  have hothers : otherRatioProduct (info.atRatio 1) = otherRatioProduct info := rfl
  have hratio : (info.atRatio 1).priceData.groupRatioInfo.groupRatio = 1 := rfl
  have hprice : (info.atRatio 1).priceData.usePrice = info.priceData.usePrice ∧
      (info.atRatio 1).priceData.modelRatio = info.priceData.modelRatio ∧
      (info.atRatio 1).priceData.modelPrice = info.priceData.modelPrice := ⟨rfl, rfl, rfl⟩
  simp only [textCost, hweights, haudio, hothers, hratio, hprice.1, hprice.2.1, hprice.2.2,
    calculateTextToolCallSurcharge_eq s t c info]
  split
  · ring
  · ring

/-- `textQuotaSummary`, the fields the settlement goes by. -/
structure TextQuotaSummary where
  totalTokens : Int
  isClaudeUsageSemantic : Bool
  toolCallSurchargeQuota : ℚ
  quota : Int
deriving DecidableEq, Repr

/-- The quota of an amount: a request that has a ratio and any tokens costs at least one unit. -/
def quotaOf (p : PriceData) (totalTokens : Int) (cost : ℚ) : Int :=
  let ratio := p.modelRatio * p.groupRatioInfo.groupRatio
  let cost := if p.usePrice = false ∧ ratio ≠ 0 ∧ cost ≤ 0 then 1 else cost
  let quota := Decimal.round cost
  if totalTokens = 0 then 0 else if ratio ≠ 0 ∧ quota = 0 then 1 else quota

def calculateTextQuotaSummary (s : PriceSetting) (t : ToolSetting) (c : Context) (info : RelayInfo)
    (usage : Option Usage) : TextQuotaSummary :=
  let report := usageOrEstimate info usage
  let totalTokens := report.promptTokens + report.completionTokens
  { totalTokens := totalTokens
    isClaudeUsageSemantic := isClaudeUsageSemantic info usage
    toolCallSurchargeQuota := calculateTextToolCallSurcharge s t c info
    quota := quotaOf info.priceData totalTokens (textCost s t c info usage) }

/-! ## Tiered expressions -/

def buildTieredTokenParams (usage : Usage) (claude : Bool) (usedVars : List String) : TokenParams :=
  let cr : ℚ := usage.promptTokensDetails.cachedTokens
  let anthropic := decide (usage.usageSemantic = "anthropic")
  let cc5m : ℚ :=
    if anthropic then usage.claudeCacheCreation5mTokens else usage.promptTokensDetails.cachedCreationTokens
  let cc1h : ℚ := if anthropic then usage.claudeCacheCreation1hTokens else 0
  let img : ℚ := usage.promptTokensDetails.imageTokens
  let ai : ℚ := usage.promptTokensDetails.audioTokens
  let imgO : ℚ := usage.completionTokenDetails.imageTokens
  let ao : ℚ := usage.completionTokenDetails.audioTokens
  -- a kind with a variable of its own is taken out of the total that contains it
  let apart (name : String) (count : ℚ) : ℚ := if claude = false ∧ name ∈ usedVars then count else 0
  let p : ℚ := usage.promptTokens - apart "cr" cr - apart "cc" cc5m - apart "cc1h" cc1h - apart "img" img - apart "ai" ai
  let c : ℚ := usage.completionTokens - apart "img_o" imgO - apart "ao" ao
  { p := max p 0
    c := max c 0
    len := if claude then usage.promptTokens + cr + cc5m + cc1h else usage.promptTokens
    cr := cr
    cc := cc5m
    cc1h := cc1h
    img := img
    imgO := imgO
    ai := ai
    ao := ao }

/-- `billingexpr.TieredResult`, the amounts. -/
structure TieredResult where
  actualQuotaBeforeGroup : ℚ
  actualQuotaAfterGroup : Int
deriving DecidableEq, Repr

def computeTieredQuotaWithRequest (s : PriceSetting) (snap : BillingSnapshot) (params : TokenParams)
    (request : RequestInput) : Except String TieredResult :=
  match s.runExpr snap.exprString params request with
  | .error err => .error err
  | .ok (cost, _) =>
    let quotaBeforeGroup := cost / 1000000 * snap.quotaPerUnit
    .ok ⟨quotaBeforeGroup, Decimal.round (quotaBeforeGroup * snap.groupRatio)⟩

/-- The quota `TryTieredSettle` falls back to. -/
def quotaPaidInAdvance (info : RelayInfo) (snap : BillingSnapshot) : Int :=
  if info.finalPreConsumedQuota ≤ 0 then snap.estimatedQuotaAfterGroup else info.finalPreConsumedQuota

/-- `TryTieredSettle`: an expression that fails leaves the quota paid in advance. -/
def tryTieredSettle (s : PriceSetting) (info : RelayInfo) (params : TokenParams) :
    Option (Int × Option TieredResult) :=
  match info.tieredBillingSnapshot with
  | none => none
  | some snap =>
    if snap.billingMode ≠ billingModeTieredExpr then none
    else
      match computeTieredQuotaWithRequest s snap params (info.billingRequestInput.getD ⟨[], ""⟩) with
      | .error _ => some (quotaPaidInAdvance info snap, none)
      | .ok result => some (result.actualQuotaAfterGroup, some result)

def composeTieredTextQuota (info : RelayInfo) (surcharge : ℚ) (tieredQuota : Int)
    (tieredResult : Option TieredResult) : Int :=
  if surcharge = 0 then tieredQuota
  else
    match tieredResult, info.tieredBillingSnapshot with
    | some result, some snap => Decimal.round (result.actualQuotaBeforeGroup * snap.groupRatio + surcharge)
    | _, _ => tieredQuota + Decimal.round surcharge

/-- The variables of the frozen expression. -/
def snapshotVars (s : PriceSetting) (info : RelayInfo) : List String :=
  info.tieredBillingSnapshot.elim [] fun snap => s.usedVars snap.exprString

/-- What the frozen expression charges for a report; `none` when the request is not billed by
one. -/
def tieredCharge (s : PriceSetting) (t : ToolSetting) (c : Context) (info : RelayInfo)
    (usage : Usage) : Option Int :=
  (tryTieredSettle s info (buildTieredTokenParams usage (isClaudeUsageSemantic info (some usage))
    (snapshotVars s info))).map fun settled =>
      composeTieredTextQuota info (calculateTextToolCallSurcharge s t c info) settled.1 settled.2

/-- The frozen expression on a report: its cost and the tier that matched. -/
def runSnapshot (s : PriceSetting) (info : RelayInfo) (snap : BillingSnapshot) (usage : Usage) :
    Except String (ℚ × String) :=
  s.runExpr snap.exprString
    (buildTieredTokenParams usage (isClaudeUsageSemantic info (some usage)) (s.usedVars snap.exprString))
    (info.billingRequestInput.getD ⟨[], ""⟩)

variable {snap : BillingSnapshot} {c : Context} {s : PriceSetting} {info : RelayInfo} {t : ToolSetting} {usage : Usage}

/-- What a tiered snapshot charges; when its expression fails, the quota paid in advance. -/
theorem tieredCharge_eq (hsnap : info.tieredBillingSnapshot = some snap)
    (hmode : snap.billingMode = billingModeTieredExpr) :
    tieredCharge s t c info usage = some (match runSnapshot s info snap usage with
      | .ok (cost, _) => Decimal.round (cost / 1000000 * snap.quotaPerUnit * snap.groupRatio +
          calculateTextToolCallSurcharge s t c info)
      | .error _ => quotaPaidInAdvance info snap + Decimal.round (calculateTextToolCallSurcharge s t c info)) := by
  cases hrun : runSnapshot s info snap usage
  all_goals
    unfold runSnapshot at hrun
    simp only [tieredCharge, tryTieredSettle, hsnap, hmode, computeTieredQuotaWithRequest,
      snapshotVars,
      Option.elim_some, ne_eq, not_true_eq_false, if_false, hrun, Option.map_some, composeTieredTextQuota]
    split
  case ok.isTrue hzero => rw [hzero, add_zero]
  case error.isTrue hzero => rw [hzero, show Decimal.round 0 = 0 from round_eq_zero_iff.mpr (by norm_num), add_zero]
  all_goals rfl

theorem tieredCharge_none
    (h : ∀ snap, info.tieredBillingSnapshot = some snap → snap.billingMode ≠ billingModeTieredExpr) :
    tieredCharge s t c info usage = none := by
  unfold tieredCharge tryTieredSettle
  cases hsnap : info.tieredBillingSnapshot with
  | none => rfl
  | some snap => simp [if_pos (h snap hsnap)]

/-! ## Settlement -/

/-- What `PostTextConsumeQuota` writes: by how much the two used quotas rise, and the quota settled
    with the billing session, if it gets there. -/
structure Consumption where
  userUsedQuota : Int
  channelUsedQuota : Int
  settled : Option Int
deriving DecidableEq, Repr

/-- `summary.Quota` after the frozen expression had its turn. -/
def settledQuota (s : PriceSetting) (t : ToolSetting) (c : Context) (info : RelayInfo)
    (usage : Option Usage) : Int :=
  ((usage.bind (tieredCharge s t c info))).getD (calculateTextQuotaSummary s t c info usage).quota

def postTextConsumeQuota (s : PriceSetting) (t : ToolSetting) (c : Context) (info : RelayInfo)
    (usage : Option Usage) : Consumption :=
  if info.skipConsumeQuota then ⟨0, 0, none⟩
  else
    let quota := settledQuota s t c info usage
    -- without tokens the charge is only logged as impossible, but it is settled all the same
    if (calculateTextQuotaSummary s t c info usage).totalTokens = 0 then ⟨0, 0, some quota⟩
    else ⟨quota, quota, some quota⟩

/-- The books agree: both used quotas rise by the settled quota, and a report without tokens settles
0. -/
def BooksAgree (usage : Option Usage) (r : Consumption) : Prop :=
  r.userUsedQuota = r.settled.getD 0 ∧ r.channelUsedQuota = r.settled.getD 0 ∧
  ∀ report, usage = some report → report.promptTokens = 0 → report.completionTokens = 0 → r.settled.getD 0 = 0

/-- A tiered request charges nothing for a report: cost and surcharge come to less than half a unit,
or the expression fails with nothing paid in advance and no surcharge to round up. -/
def FreeOfCharge (s : PriceSetting) (t : ToolSetting) (c : Context) (info : RelayInfo)
    (report : Usage) : Prop :=
  ∀ snap, info.tieredBillingSnapshot = some snap → snap.billingMode = billingModeTieredExpr →
    match runSnapshot s info snap report with
    | .ok (cost, _) =>
      |cost / 1000000 * snap.quotaPerUnit * snap.groupRatio + calculateTextToolCallSurcharge s t c info| < 1 / 2
    | .error _ => quotaPaidInAdvance info snap + Decimal.round (calculateTextToolCallSurcharge s t c info) = 0

section Settlement

variable {s : PriceSetting} {t : ToolSetting} {c : Context} {info : RelayInfo}

theorem tieredCharge_getD_eq_zero_iff {report : Usage} :
    (tieredCharge s t c info report).getD 0 = 0 ↔ FreeOfCharge s t c info report := by
  by_cases hmode : ∃ snap, info.tieredBillingSnapshot = some snap ∧ snap.billingMode = billingModeTieredExpr
  · obtain ⟨snap, hsnap, hmode⟩ := hmode
    have hfree : FreeOfCharge s t c info report ↔
        match runSnapshot s info snap report with
        | .ok (cost, _) =>
          |cost / 1000000 * snap.quotaPerUnit * snap.groupRatio + calculateTextToolCallSurcharge s t c info| < 1 / 2
        | .error _ =>
          quotaPaidInAdvance info snap + Decimal.round (calculateTextToolCallSurcharge s t c info) = 0 := by
      refine ⟨fun h => h snap hsnap hmode, ?_⟩
      intro h snap' hsnap' _
      rw [hsnap] at hsnap'
      cases hsnap'
      exact h
    rw [hfree, tieredCharge_eq hsnap hmode, Option.getD_some]
    cases runSnapshot s info snap report with
    | ok result => exact round_eq_zero_iff
    | error err => exact Iff.rfl
  · have hnone : ∀ snap, info.tieredBillingSnapshot = some snap → snap.billingMode ≠ billingModeTieredExpr :=
      fun snap hsnap h => hmode ⟨snap, hsnap, h⟩
    rw [tieredCharge_none hnone]
    exact ⟨fun _ snap hsnap h => absurd h (hnone snap hsnap), fun _ => rfl⟩

variable {usage : Option Usage}

theorem settledQuota_of_no_tokens (h : (calculateTextQuotaSummary s t c info usage).totalTokens = 0) :
    settledQuota s t c info usage = (usage.bind (tieredCharge s t c info)).getD 0 := by
  have hformula : (calculateTextQuotaSummary s t c info usage).quota = 0 := by
    show quotaOf info.priceData _ _ = 0
    have htotal : (usageOrEstimate info usage).promptTokens + (usageOrEstimate info usage).completionTokens = 0 := h
    simp [quotaOf, htotal]
  rw [settledQuota, hformula]

theorem booksAgree_of_no_tokens (hskip : info.skipConsumeQuota = false)
    (h : (calculateTextQuotaSummary s t c info usage).totalTokens = 0) :
    BooksAgree usage (postTextConsumeQuota s t c info usage) ↔
      settledQuota s t c info usage = 0 := by
  have hpost : postTextConsumeQuota s t c info usage = ⟨0, 0,
    some (settledQuota s t c info usage)⟩ := by
    simp [postTextConsumeQuota, hskip, h]
  rw [hpost]
  constructor
  · rintro ⟨huser, -, -⟩
    exact huser.symm
  · intro hzero
    exact ⟨hzero.symm, hzero.symm, fun _ _ _ _ => hzero⟩

theorem booksAgree_of_tokens (hskip : info.skipConsumeQuota = false)
    (h : (calculateTextQuotaSummary s t c info usage).totalTokens ≠ 0) :
    BooksAgree usage (postTextConsumeQuota s t c info usage) := by
  have hpost : postTextConsumeQuota s t c info usage =
      ⟨settledQuota s t c info usage, settledQuota s t c info usage, some (settledQuota s t c info usage)⟩ := by
    simp [postTextConsumeQuota, hskip, h]
  rw [hpost]
  refine ⟨rfl, rfl, ?_⟩
  intro report husage hprompt hcompletion
  subst husage
  refine absurd ?_ h
  show report.promptTokens + report.completionTokens = 0
  omega

end Settlement

/-- The used quotas and the settlement agree exactly when the frozen expression, if there is one,
charges nothing for a report without prompt and completion tokens. -/
theorem used_quota_matches_settlement_iff (s : PriceSetting) (t : ToolSetting) (c : Context)
    (info : RelayInfo) (usage : Option Usage) :
    BooksAgree usage (postTextConsumeQuota s t c info usage) ↔
    (info.skipConsumeQuota = false → ∀ report, usage = some report →
      report.promptTokens + report.completionTokens = 0 → FreeOfCharge s t c info report) := by
  cases hskip : info.skipConsumeQuota with
  | true =>
    have hpost : postTextConsumeQuota s t c info usage = ⟨0, 0,
      none⟩ := by simp [postTextConsumeQuota, hskip]
    rw [hpost]
    exact ⟨fun _ h => Bool.noConfusion h, fun _ => ⟨rfl, rfl, fun _ _ _ _ => rfl⟩⟩
  | false =>
    by_cases htokens : (calculateTextQuotaSummary s t c info usage).totalTokens = 0
    · rw [booksAgree_of_no_tokens hskip htokens, settledQuota_of_no_tokens htokens]
      rcases husage : usage with _ | report
      · refine ⟨?_, fun _ => rfl⟩
        intro _ _ report hnone
        cases hnone
      subst husage
      rw [Option.bind_some, tieredCharge_getD_eq_zero_iff]
      constructor
      · intro hfree _ report' hreport _
        cases hreport
        exact hfree
      · intro h
        exact h rfl report rfl htokens
    · refine ⟨?_, fun _ => booksAgree_of_tokens hskip htokens⟩
      intro _ _ report husage htotal
      subst husage
      exact absurd htotal htokens

/-- Tool prices of an installation that charges for none. -/
def ToolSetting.free : ToolSetting := ⟨fun _ _ => 0, fun _ _ => 0, fun _ => 0⟩

def Context.plain : Context := ⟨none, 0, false, "", ""⟩

/-- A model billed by a constant expression of two dollars a million calls. -/
def flatTierSetting : PriceSetting :=
  { PriceSetting.unset with
    quotaPerUnit := 500000
    runExpr := fun _ _ _ => .ok (2, "base") }

/-- A request priced by that expression for the ordinary group. -/
def flatTierInfo : RelayInfo where
  userId := 1
  userGroup := "default"
  usingGroup := "default"
  originModelName := "flat"
  acceptUnsetRatioModel := false
  priceData := { PriceData.zero with groupRatioInfo := ⟨1, -1, false⟩ }
  tieredBillingSnapshot := some ⟨billingModeTieredExpr, "tier(\"base\", 2)", 1, 1, "base", 500000⟩
  billingRequestInput := none
  finalPreConsumedQuota := 1
  skipConsumeQuota := false
  estimatePromptTokens := 10
  channelType := some 1
  finalFormatIsClaude := false
  builtInTools := none

/-- The upstream reports no tokens: one unit is settled and neither used quota rises. -/
theorem tiered_charge_not_recorded :
    postTextConsumeQuota flatTierSetting ToolSetting.free Context.plain flatTierInfo (some (Usage.ofText 0 0)) =
      ⟨0, 0, some 1⟩ ∧
    ¬ BooksAgree (some (Usage.ofText 0 0))
      (postTextConsumeQuota flatTierSetting ToolSetting.free Context.plain flatTierInfo
        (some (Usage.ofText 0 0))) := by
  have hpost : postTextConsumeQuota flatTierSetting ToolSetting.free Context.plain flatTierInfo
      (some (Usage.ofText 0 0)) = ⟨0, 0, some 1⟩ := by decide +kernel
  refine ⟨hpost, ?_⟩
  rw [hpost]
  rintro ⟨huser, -, -⟩
  exact absurd huser (by decide)

/-! ## The split of a report -/

/-- The tokens of a report are split without loss: the prompt tokens into `P` and the kinds priced
on their own; for Claude all cache creation tokens go to its two kinds, and `Len` counts them. -/
def SplitsTokens (usage : Usage) (claude : Bool) (usedVars : List String) : Prop :=
  let params := buildTieredTokenParams usage claude usedVars
  let apart (name : String) (count : ℚ) : ℚ := if name ∈ usedVars then count else 0
  let creation : ℚ := max usage.promptTokensDetails.cachedCreationTokens
    (usage.claudeCacheCreation5mTokens + usage.claudeCacheCreation1hTokens)
  if claude then params.cc + params.cc1h = creation ∧
    params.len = usage.promptTokens + usage.promptTokensDetails.cachedTokens + creation
  else params.p + apart "cr" params.cr + apart "cc" params.cc + apart "cc1h" params.cc1h + apart "img" params.img +
      apart "ai" params.ai = usage.promptTokens ∧ params.len = usage.promptTokens

/-- The larger of the two counts of cache creation tokens is the one that is read. -/
def ReadsLarger (usage : Usage) : Prop :=
  if usage.usageSemantic = "anthropic" then usage.promptTokensDetails.cachedCreationTokens ≤
    usage.claudeCacheCreation5mTokens + usage.claudeCacheCreation1hTokens
  else usage.claudeCacheCreation5mTokens + usage.claudeCacheCreation1hTokens ≤
    usage.promptTokensDetails.cachedCreationTokens

/-- No count of prompt tokens that is read is negative, and together they are within the total. -/
def PartsWithin (usage : Usage) : Prop :=
  let details := usage.promptTokensDetails
  let cc := if usage.usageSemantic = "anthropic" then usage.claudeCacheCreation5mTokens
    else details.cachedCreationTokens
  let cc1h := if usage.usageSemantic = "anthropic" then usage.claudeCacheCreation1hTokens else 0
  0 ≤ details.cachedTokens ∧ 0 ≤ cc ∧ 0 ≤ cc1h ∧ 0 ≤ details.imageTokens ∧ 0 ≤ details.audioTokens ∧
    details.cachedTokens + cc + cc1h + details.imageTokens + details.audioTokens ≤ usage.promptTokens

theorem apart_bounds (usedVars : List String) (name : String) {count : Int} (h : 0 ≤ count) :
    0 ≤ (if name ∈ usedVars then (count : ℚ) else 0) ∧
      (if name ∈ usedVars then (count : ℚ) else 0) ≤ count := by
  have h := Int.cast_nonneg (R := ℚ) h
  split
  · exact ⟨h, le_refl _⟩
  · exact ⟨le_refl 0, h⟩

/-- **No token is lost or counted twice** in a report that is Claude's or whose kinds are within the
prompt tokens, if and only if for Claude the larger count of cache creation tokens is read. -/
theorem splits_tokens_iff (usage : Usage) (claude : Bool) (usedVars : List String)
    (hparts : claude = false → PartsWithin usage) :
    SplitsTokens usage claude usedVars ↔ (claude = true → ReadsLarger usage) := by
  cases claude with
  | true =>
    simp only [SplitsTokens, buildTieredTokenParams, ReadsLarger, if_true, forall_const]
    by_cases h : usage.usageSemantic = "anthropic"
    · simp only [h, decide_true, if_true, add_assoc, add_right_inj, and_self]
      rw [eq_comm, max_eq_right_iff]
      exact_mod_cast Iff.rfl
    simp only [h, decide_false, Bool.false_eq_true, if_false, add_zero, add_assoc, add_right_inj,
      and_self]
    rw [eq_comm, max_eq_left_iff]
    exact_mod_cast Iff.rfl
  | false =>
    obtain ⟨hcr, hcc, hcc1h, himg, hai, hsum⟩ := hparts rfl
    have hcr := apart_bounds usedVars "cr" hcr
    have hcc := apart_bounds usedVars "cc" hcc
    have hcc1h := apart_bounds usedVars "cc1h" hcc1h
    have himg := apart_bounds usedVars "img" himg
    have hai := apart_bounds usedVars "ai" hai
    have hsum := Int.cast_le (R := ℚ).mpr hsum
    push_cast at hcc hcc1h hsum
    simp only [SplitsTokens, buildTieredTokenParams, decide_eq_true_eq, true_and,
      Bool.false_eq_true, if_false, false_implies, iff_true, and_true]
    -- what is taken out is within the prompt tokens, so nothing is cut off at 0
    rw [max_eq_left (by linarith)]
    ring

/-- The 30 tokens of the cache creation are all in Claude's report; the 20 cached of another one are
within its 50. -/
theorem split_creation_counted : SplitsTokens
    ⟨10, 5, 15, "anthropic", "", ⟨20, 30, 0, 0, 0⟩, ⟨0, 0, 0⟩, 10, 20, 0⟩ true ["cr", "cc", "cc1h"] ∧
    SplitsTokens ⟨50, 5, 55, "", "", ⟨20, 0, 0, 0, 0⟩, ⟨0, 0, 0⟩, 0, 0, 0⟩ false ["cr"] :=
  ⟨(splits_tokens_iff _ _ _ (by simp)).mpr fun _ => by norm_num [ReadsLarger],
    (splits_tokens_iff _ _ _ fun _ => by norm_num [PartsWithin]).mpr (by simp)⟩

/-- A report of 30 tokens of cache creation that does not say for how long they are kept: they are
not charged. -/
theorem unsplit_creation_lost :
    let usage : Usage := ⟨10, 5, 15, "anthropic", "", ⟨20, 30, 0, 0, 0⟩, ⟨0, 0, 0⟩, 0, 0, 0⟩
    (buildTieredTokenParams usage true ["cr", "cc", "cc1h"]).cc = 0 ∧
    (buildTieredTokenParams usage true ["cr", "cc", "cc1h"]).cc1h = 0 ∧
    ¬ SplitsTokens usage true ["cr", "cc", "cc1h"] := by
  norm_num [SplitsTokens, buildTieredTokenParams]

end NewApi.Relay
