import NewApi.Lib.Decimal
import NewApi.Model.ChannelCache

/-!
# Pricing a request (`relay/helper/price.go`)

A request is priced before the first channel is tried. What it costs depends on the model, by a
fixed price, a ratio or a tiered expression, and on the group whose channels serve it.

* `modelPriceHelper`, `modelPriceHelperTiered` — text, audio and image requests. A tiered expression
  leaves a snapshot that holds the ratio of this moment.

Floating-point amounts are exact rationals here; a conversion to `int` truncates.
-/

namespace NewApi.Relay

open NewApi.Channels NewApi.Decimal

/-! ## Settings -/

/-- `billingexpr.RequestInput`: what an expression may read of the request. -/
structure RequestInput where
  headers : List (String × String)
  body : String
deriving DecidableEq, Repr

structure TokenParams where
  p : ℚ
  c : ℚ
  len : ℚ
  cr : ℚ
  cc : ℚ
  cc1h : ℚ
  img : ℚ
  imgO : ℚ
  ai : ℚ
  ao : ℚ
deriving DecidableEq, Repr

def billingModeTieredExpr : String := "tiered_expr"

def billingModePerRequest : String := "per_request"

def billingModeRatio : String := "ratio"

/-- The tables of `ratio_setting`, `billing_setting` and `operation_setting` that pricing reads. -/
structure PriceSetting where
  groupRatioMap : String → Option ℚ
  /-- By the user's group: its special ratios, by the group in use. -/
  groupGroupRatioMap : String → Option (String → Option ℚ)
  modelPriceMap : String → Option ℚ
  defaultModelPrice : String → Option ℚ
  modelRatioMap : String → Option ℚ
  defaultModelRatio : String → Option ℚ
  getCompletionRatio : String → ℚ
  getCacheRatio : String → ℚ
  getCreateCacheRatio : String → ℚ
  getImageRatio : String → ℚ
  getAudioRatio : String → ℚ
  getAudioCompletionRatio : String → ℚ
  billingMode : String → Option String
  billingExpr : String → Option String
  /-- `RunExprWithRequest`: the cost and the tier that matched. -/
  runExpr : String → TokenParams → RequestInput → Except String (ℚ × String)
  /-- `billingexpr.UsedVars`. -/
  usedVars : String → List String
  selfUseModeEnabled : Bool
  enableFreeModelPreConsume : Bool
  quotaPerUnit : ℚ
  preConsumedQuota : Int
  /-- `constant.TaskPricePatches`. -/
  taskPricePatches : List String
  isAdmin : Int → Bool

def compactModelSuffix : String := "-openai-compact"

def compactWildcardModelKey : String := "*" ++ compactModelSuffix

def hasCompactSuffix (name : String) : Bool := compactModelSuffix.toList.isSuffixOf name.toList

def withCompactModelSuffix (modelName : String) : String :=
  if hasCompactSuffix modelName then modelName else modelName ++ compactModelSuffix

namespace PriceSetting

/-- `GetGroupRatio`: a group without an entry has the ratio 1. -/
def getGroupRatio (s : PriceSetting) (name : String) : ℚ := (s.groupRatioMap name).getD 1

def getGroupGroupRatio (s : PriceSetting) (userGroup usingGroup : String) : Option ℚ :=
  (s.groupGroupRatioMap userGroup).bind fun gp => gp usingGroup

/-- `GetModelPrice`: compaction models without a price of their own share one. -/
def getModelPrice (s : PriceSetting) (name : String) : Option ℚ :=
  let name := formatMatchingModelName name
  match s.modelPriceMap name with
  | some price => some price
  | none => if hasCompactSuffix name then s.modelPriceMap compactWildcardModelKey else none

/-- `GetModelRatio`: the ratio, whether it counts as configured, and the name it was looked up
by. -/
def getModelRatio (s : PriceSetting) (name : String) : ℚ × Bool × String :=
  let name := formatMatchingModelName name
  match s.modelRatioMap name with
  | some ratio => (ratio, true, name)
  | none =>
    match if hasCompactSuffix name then s.modelRatioMap compactWildcardModelKey else none with
    | some wildcardRatio => (wildcardRatio, true, name)
    | none => (75 / 2, s.selfUseModeEnabled, name)

def getBillingMode (s : PriceSetting) (model : String) : String :=
  (s.billingMode model).getD billingModeRatio

def hasModelBillingConfig (s : PriceSetting) (modelName : String) : Bool :=
  if (s.getModelPrice modelName).isSome then true
  else if (s.getModelRatio modelName).2.1 then true
  else if s.getBillingMode modelName ≠ billingModeTieredExpr then false
  else
    match s.billingExpr modelName with
    | some expr => !Text.isBlank expr
    | none => false

end PriceSetting

def modelPriceNotConfiguredError (s : PriceSetting) (modelName : String) (userId : Int) : String :=
  if s.isAdmin userId then
    "模型 " ++ modelName ++ " 的价格未配置。请前往「系统设置 → 运营设置」开启自用模式，或在「系统设置 → 分组与模型定价设置」中为该模型配置价格；" ++
      "Model " ++ modelName ++ " price not configured. Go to System Settings → Operation Settings to enable self-use mode, or configure the model price in System Settings → Group & Model Pricing."
  else
    "模型 " ++ modelName ++ " 的价格尚未由管理员配置，暂时无法使用，请联系站点管理员开启该模型；" ++
      "Model " ++ modelName ++ " has not been priced by the administrator yet. Please contact the site administrator to enable this model."

/-! ## Relay info -/

structure GroupRatioInfo where
  groupRatio : ℚ
  groupSpecialRatio : ℚ
  hasSpecialRatio : Bool
deriving DecidableEq, Repr

/-- `types.PriceData`. The map of other ratios is the list of its entries in the order an iteration
    takes them; no key occurs twice. -/
structure PriceData where
  freeModel : Bool
  modelPrice : ℚ
  modelRatio : ℚ
  completionRatio : ℚ
  cacheRatio : ℚ
  cacheCreationRatio : ℚ
  cacheCreation5mRatio : ℚ
  cacheCreation1hRatio : ℚ
  imageRatio : ℚ
  audioRatio : ℚ
  audioCompletionRatio : ℚ
  otherRatios : List (String × ℚ)
  usePrice : Bool
  quota : Int
  quotaToPreConsume : Int
  groupRatioInfo : GroupRatioInfo
deriving DecidableEq, Repr

def GroupRatioInfo.zero : GroupRatioInfo := ⟨0, 0, false⟩

def PriceData.zero : PriceData where
  freeModel := false
  modelPrice := 0
  modelRatio := 0
  completionRatio := 0
  cacheRatio := 0
  cacheCreationRatio := 0
  cacheCreation5mRatio := 0
  cacheCreation1hRatio := 0
  imageRatio := 0
  audioRatio := 0
  audioCompletionRatio := 0
  otherRatios := []
  usePrice := false
  quota := 0
  quotaToPreConsume := 0
  groupRatioInfo := .zero

/-- `billingexpr.BillingSnapshot`: the terms of a tiered expression, frozen when the request is
priced. -/
structure BillingSnapshot where
  billingMode : String
  exprString : String
  groupRatio : ℚ
  estimatedQuotaAfterGroup : Int
  estimatedTier : String
  quotaPerUnit : ℚ
deriving DecidableEq, Repr

/-- The fields of `RelayInfo` that pricing and settlement read. -/
structure RelayInfo where
  userId : Int
  userGroup : String
  usingGroup : String
  originModelName : String
  /-- `UserSetting.AcceptUnsetRatioModel`. -/
  acceptUnsetRatioModel : Bool
  priceData : PriceData
  tieredBillingSnapshot : Option BillingSnapshot
  billingRequestInput : Option RequestInput
  finalPreConsumedQuota : Int
  skipConsumeQuota : Bool
  estimatePromptTokens : Int
  /-- `ChannelMeta.ChannelType`; `none` while there is no channel meta. -/
  channelType : Option Int
  /-- `GetFinalRequestRelayFormat() == RelayFormatClaude`. -/
  finalFormatIsClaude : Bool
  /-- `ResponsesUsageInfo.BuiltInTools`, as call counts by tool. -/
  builtInTools : Option (List (String × Int))
deriving DecidableEq, Repr

/-- The keys of the gin context that pricing and settlement read. -/
structure Context where
  /-- `auto_group`: set by the channel selection of an auto-group token. -/
  autoGroup : Option String
  /-- `claude_web_search_requests`. -/
  claudeWebSearchRequests : Int
  imageGenerationCall : Bool
  imageGenerationCallQuality : String
  imageGenerationCallSize : String
deriving DecidableEq, Repr

structure TokenCountMeta where
  maxTokens : Int
  imagePriceRatio : ℚ
deriving DecidableEq, Repr

/-- Settings without any entry: everything has the ratio 1. -/
def PriceSetting.unset : PriceSetting where
  groupRatioMap := fun _ => none
  groupGroupRatioMap := fun _ => none
  modelPriceMap := fun _ => none
  defaultModelPrice := fun _ => none
  modelRatioMap := fun _ => none
  defaultModelRatio := fun _ => none
  getCompletionRatio := fun _ => 1
  getCacheRatio := fun _ => 1
  getCreateCacheRatio := fun _ => 1
  getImageRatio := fun _ => 1
  getAudioRatio := fun _ => 1
  getAudioCompletionRatio := fun _ => 1
  billingMode := fun _ => none
  billingExpr := fun _ => none
  runExpr := fun _ _ _ => .error "no expression"
  usedVars := fun _ => []
  selfUseModeEnabled := false
  enableFreeModelPreConsume := false
  quotaPerUnit := 500000
  preConsumedQuota := 500
  taskPricePatches := []
  isAdmin := fun _ => false

/-! ## Group ratio -/

/-- The group a request is served in: the selection's choice for an auto-group token. -/
def servingGroup (c : Context) (info : RelayInfo) : String := c.autoGroup.getD info.usingGroup

/-- `HandleGroupRatio`: also writes the serving group into the relay info. -/
def handleGroupRatio (s : PriceSetting) (c : Context) (info : RelayInfo) :
    GroupRatioInfo × RelayInfo :=
  let info := match c.autoGroup with
    | some autoGroup => { info with usingGroup := autoGroup }
    | none => info
  match s.getGroupGroupRatio info.userGroup info.usingGroup with
  | some userGroupRatio => (⟨userGroupRatio, userGroupRatio, true⟩, info)
  | none => (⟨s.getGroupRatio info.usingGroup, -1, false⟩, info)

/-- The ratio for a pair of groups. -/
def PriceSetting.ratioFor (s : PriceSetting) (userGroup usingGroup : String) : ℚ :=
  (s.getGroupGroupRatio userGroup usingGroup).getD (s.getGroupRatio usingGroup)

section GroupRatio

variable (s : PriceSetting) (c : Context) (info : RelayInfo)

theorem handleGroupRatio_eq :
    ∃ g : GroupRatioInfo, g.groupRatio = s.ratioFor info.userGroup (servingGroup c info) ∧
    handleGroupRatio s c info = (g, { info with usingGroup := servingGroup c info }) := by
  unfold handleGroupRatio servingGroup PriceSetting.ratioFor
  cases c.autoGroup with
  | none => cases hspecial : s.getGroupGroupRatio info.userGroup info.usingGroup <;> simp [hspecial]
  | some g => cases hspecial : s.getGroupGroupRatio info.userGroup g <;> simp [hspecial]

end GroupRatio

/-! ## The helpers -/

/-- `modelPriceHelperTiered`; `requestInput` is `ResolveIncomingBillingExprRequestInput`. -/
def modelPriceHelperTiered (s : PriceSetting) (info : RelayInfo) (promptTokens : Int)
    (tokens : TokenCountMeta) (groupRatioInfo : GroupRatioInfo)
    (requestInput : Except String RequestInput) : Except String RelayInfo :=
  match s.billingExpr info.originModelName with
  | none => .error ("model " ++ info.originModelName ++ " is configured as tiered_expr but has no billing expression")
  | some exprStr =>
    match requestInput with
    | .error err => .error err
    | .ok input =>
      match s.runExpr exprStr ⟨promptTokens, tokens.maxTokens, promptTokens, 0, 0, 0, 0, 0, 0, 0⟩ input with
      | .error err => .error ("model " ++ info.originModelName ++ " tiered expr run failed: " ++ err)
      | .ok (rawCost, matchedTier) =>
        let quotaBeforeGroup := rawCost / 1000000 * s.quotaPerUnit
        let free := !s.enableFreeModelPreConsume && decide (groupRatioInfo.groupRatio = 0)
        let preConsumedQuota := if free then 0 else Decimal.round (quotaBeforeGroup * groupRatioInfo.groupRatio)
        .ok { info with
          tieredBillingSnapshot := some
            { billingMode := billingModeTieredExpr
              exprString := exprStr
              groupRatio := groupRatioInfo.groupRatio
              estimatedQuotaAfterGroup := preConsumedQuota
              estimatedTier := matchedTier
              quotaPerUnit := s.quotaPerUnit }
          billingRequestInput := some input
          priceData := { PriceData.zero with
            freeModel := free
            groupRatioInfo := groupRatioInfo
            quotaToPreConsume := preConsumedQuota } }

def modelPriceHelper (s : PriceSetting) (c : Context) (info : RelayInfo) (promptTokens : Int)
    (tokens : TokenCountMeta) (requestInput : Except String RequestInput) :
    Except String RelayInfo :=
  let price := s.getModelPrice info.originModelName
  let (groupRatioInfo, info) := handleGroupRatio s c info
  if s.getBillingMode info.originModelName = billingModeTieredExpr then
    modelPriceHelperTiered s info promptTokens tokens groupRatioInfo requestInput
  else
    match price with
    | some modelPrice =>
      let modelPrice := if tokens.imagePriceRatio ≠ 0 then modelPrice * tokens.imagePriceRatio else modelPrice
      let free := !s.enableFreeModelPreConsume && (decide (groupRatioInfo.groupRatio = 0) || decide (modelPrice = 0))
      .ok { info with priceData := { PriceData.zero with
        freeModel := free
        modelPrice := modelPrice
        groupRatioInfo := groupRatioInfo
        usePrice := true
        quotaToPreConsume :=
          if free then 0 else intPart (modelPrice * s.quotaPerUnit * groupRatioInfo.groupRatio) } }
    | none =>
      let (modelRatio, success, matchName) := s.getModelRatio info.originModelName
      if !success && !info.acceptUnsetRatioModel then
        .error (modelPriceNotConfiguredError s matchName info.userId)
      else
        let preConsumedTokens := max promptTokens s.preConsumedQuota + tokens.maxTokens
        let free := !s.enableFreeModelPreConsume && (decide (groupRatioInfo.groupRatio = 0) || decide (modelRatio = 0))
        let cacheCreationRatio := s.getCreateCacheRatio info.originModelName
        .ok { info with priceData := { PriceData.zero with
          freeModel := free
          modelPrice := -1
          modelRatio := modelRatio
          completionRatio := s.getCompletionRatio info.originModelName
          cacheRatio := s.getCacheRatio info.originModelName
          cacheCreationRatio := cacheCreationRatio
          cacheCreation5mRatio := cacheCreationRatio
          -- one hour costs 6 / 3.75 of five minutes
          cacheCreation1hRatio := cacheCreationRatio * (8 / 5)
          imageRatio := s.getImageRatio info.originModelName
          audioRatio := s.getAudioRatio info.originModelName
          audioCompletionRatio := s.getAudioCompletionRatio info.originModelName
          groupRatioInfo := groupRatioInfo
          quotaToPreConsume :=
            if free then 0 else intPart (preConsumedTokens * (modelRatio * groupRatioInfo.groupRatio)) } }

variable {requestInput : Except String RequestInput} {promptTokens : Int} {tokens : TokenCountMeta} {s : PriceSetting}

variable {info info' : RelayInfo} {c : Context}

/-- What pricing leaves of the request, and at which ratio: that of the serving group. A price comes
    without a model ratio, and a tiered model's snapshot has the same ratio; any other model keeps
    the snapshot there was. -/
theorem modelPriceHelper_ok (h : modelPriceHelper s c info promptTokens tokens requestInput = .ok info') :
    info'.userGroup = info.userGroup ∧ info'.skipConsumeQuota = info.skipConsumeQuota ∧
    info'.priceData.groupRatioInfo.groupRatio = s.ratioFor info.userGroup (servingGroup c info) ∧
    (info'.priceData.usePrice = true → info'.priceData.modelRatio = 0) ∧
    ∀ snap, info'.tieredBillingSnapshot = some snap →
      (s.getBillingMode info.originModelName = billingModeTieredExpr ∧
        snap.groupRatio = s.ratioFor info.userGroup (servingGroup c info)) ∨
      info.tieredBillingSnapshot = some snap := by
  obtain ⟨groupRatioInfo, hratio, hhandled⟩ := handleGroupRatio_eq s c info
  unfold modelPriceHelper at h
  simp only [hhandled] at h
  split at h
  · -- a tiered model
    rename_i hmode
    unfold modelPriceHelperTiered at h
    split at h
    · cases h
    split at h
    · cases h
    split at h
    · cases h
    · cases h
      refine ⟨rfl, rfl, hratio, fun _ => rfl, fun snap hsnap => .inl ⟨hmode, ?_⟩⟩
      cases hsnap
      exact hratio
  · split at h
    · cases h
      exact ⟨rfl, rfl, hratio, fun _ => rfl, fun _ => .inr⟩
    split at h
    · cases h
    · cases h
      exact ⟨rfl, rfl, hratio, fun hprice => Bool.noConfusion hprice, fun _ => .inr⟩

theorem modelPriceHelper_price {price : ℚ}
    (hmode : s.getBillingMode info.originModelName ≠ billingModeTieredExpr)
    (hprice : s.getModelPrice info.originModelName = some price)
    (htokens : tokens.imagePriceRatio ≠ 0) :
    ∃ p : PriceData, modelPriceHelper s c info promptTokens tokens requestInput =
        .ok { info with usingGroup := servingGroup c info, priceData := p } ∧
      p.usePrice = true ∧ p.modelPrice = price * tokens.imagePriceRatio ∧ p.modelRatio = 0 ∧ p.otherRatios = [] ∧
      p.groupRatioInfo.groupRatio = s.ratioFor info.userGroup (servingGroup c info) := by
  obtain ⟨groupRatioInfo, hratio, hhandled⟩ := handleGroupRatio_eq s c info
  simp only [modelPriceHelper, hhandled, hprice, if_neg hmode, if_pos htokens]
  exact ⟨_, rfl, rfl, rfl, rfl, rfl, hratio⟩

/-- The price or the ratio `ModelPriceHelperPerCall` goes by. -/
def perCallPrice (s : PriceSetting) (info : RelayInfo) : Except String (ℚ ⊕ ℚ) :=
  match s.getModelPrice info.originModelName with
  | some modelPrice => .ok (.inl modelPrice)
  | none =>
    match s.defaultModelPrice info.originModelName with
    | some defaultPrice => .ok (.inl defaultPrice)
    | none =>
      let (modelRatio, ratioSuccess, matchName) := s.getModelRatio info.originModelName
      if !ratioSuccess && !info.acceptUnsetRatioModel then
        .error (modelPriceNotConfiguredError s matchName info.userId)
      else .ok (.inr modelRatio)

/-- The quota of one call, by what a call costs in units of the currency. -/
def perCallQuota (s : PriceSetting) (unitPrice ratio : ℚ) (cost : ℚ) : Int × Bool :=
  let free := !s.enableFreeModelPreConsume && (decide (ratio = 0) || decide (unitPrice = 0))
  (if free then 0 else intPart (cost * s.quotaPerUnit * ratio), free)

/-- `ModelPriceHelperPerCall`: a ratio-billed model is charged for half its ratio in advance. -/
def modelPriceHelperPerCall (s : PriceSetting) (c : Context) (info : RelayInfo) :
    Except String (PriceData × RelayInfo) :=
  let (groupRatioInfo, info) := handleGroupRatio s c info
  match perCallPrice s info with
  | .error err => .error err
  | .ok (.inl modelPrice) =>
    let (quota, freeModel) := perCallQuota s modelPrice groupRatioInfo.groupRatio modelPrice
    .ok ({ PriceData.zero with
      freeModel := freeModel
      modelPrice := modelPrice
      usePrice := true
      quota := quota
      groupRatioInfo := groupRatioInfo }, info)
  | .ok (.inr modelRatio) =>
    let (quota, freeModel) := perCallQuota s modelRatio groupRatioInfo.groupRatio (modelRatio / 2)
    .ok ({ PriceData.zero with
      freeModel := freeModel
      modelPrice := -1
      modelRatio := modelRatio
      usePrice := false
      quota := quota
      groupRatioInfo := groupRatioInfo }, info)

/-- `AddOtherRatio`: a ratio that is not positive is ignored. -/
def PriceData.addOtherRatio (p : PriceData) (key : String) (ratio : ℚ) : PriceData :=
  if ratio ≤ 0 then p else { p with otherRatios := setKey key ratio p.otherRatios }

/-- What a successful call leaves: the ratio of the serving group, no other ratios yet, and the
    serving group in the relay info. -/
theorem modelPriceHelperPerCall_ok {price : PriceData}
    (h : modelPriceHelperPerCall s c info = .ok (price, info')) :
    info' = { info with usingGroup := servingGroup c info } ∧
    price.groupRatioInfo.groupRatio = s.ratioFor info.userGroup (servingGroup c info) ∧
    price.otherRatios = [] := by
  obtain ⟨groupRatioInfo, hratio, hhandled⟩ := handleGroupRatio_eq s c info
  simp only [modelPriceHelperPerCall, hhandled] at h
  split at h
  · cases h
  · cases h
    exact ⟨rfl, hratio, rfl⟩
  · cases h
    exact ⟨rfl, hratio, rfl⟩

theorem perCallQuota_price (s : PriceSetting) (price ratio : ℚ) :
    (perCallQuota s price ratio price).1 = intPart (price * s.quotaPerUnit * ratio) := by
  simp only [perCallQuota]
  split
  case isFalse => rfl
  case isTrue hfree =>
    have hzero : ratio = 0 ∨ price = 0 := by
      rw [Bool.and_eq_true, Bool.or_eq_true, decide_eq_true_iff, decide_eq_true_iff] at hfree
      exact hfree.2
    have hamount : price * s.quotaPerUnit * ratio = ((0 : Int) : ℚ) := by
      rcases hzero with h | h
      · rw [h, mul_zero, Int.cast_zero]
      · rw [h, zero_mul, zero_mul, Int.cast_zero]
    rw [hamount, intPart_intCast]

theorem modelPriceHelperPerCall_price {price : ℚ}
    (hprice : s.getModelPrice info.originModelName = some price) :
    ∃ p : PriceData, modelPriceHelperPerCall s c info = .ok (p, { info with usingGroup := servingGroup c info }) ∧
      p.usePrice = true ∧
      p.quota = intPart (price * s.quotaPerUnit * s.ratioFor info.userGroup (servingGroup c info)) := by
  obtain ⟨groupRatioInfo, hratio, hhandled⟩ := handleGroupRatio_eq s c info
  simp only [modelPriceHelperPerCall, hhandled, perCallPrice, hprice]
  refine ⟨_, rfl, rfl, ?_⟩
  rw [← hratio]
  exact perCallQuota_price s price groupRatioInfo.groupRatio

end NewApi.Relay
