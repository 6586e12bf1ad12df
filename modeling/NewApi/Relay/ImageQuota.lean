import NewApi.Relay.GroupRetry
import NewApi.Relay.TaskSubmit
import NewApi.Service.TaskLife

/-!
# The two image routes (`controller/image_async.go`, `relay/image`)

An image request is either relayed at once or queued as a task that a worker executes.

## Results

* `single_plain_image_agrees` — which is so for one image at the plain price.
-/

namespace NewApi.Relay

open NewApi.Decimal NewApi.Billing NewApi.Subscription

/-- An image request after validation, and what the relay info takes from its context. Validation
    replaces a missing or zero count by 1. -/
structure ImageRequest where
  model : String
  size : String
  quality : String
  n : Nat
  one_le : 1 ≤ n
  userId : Int
  userGroup : String
  usingGroup : String
  /-- `auto_group`, of an auto-group token. -/
  autoGroup : Option String
  acceptUnsetRatioModel : Bool
  channelType : Int
  estimatePromptTokens : Int

namespace ImageRequest

variable (r : ImageRequest)

/-- The context keys of an image request: no tools were called. -/
def context : Context := ⟨r.autoGroup, 0, false, "", ""⟩

/-- `GenRelayInfo`, followed by `InitChannelMeta`. -/
def genRelayInfo : RelayInfo where
  userId := r.userId
  userGroup := r.userGroup
  usingGroup := r.usingGroup
  originModelName := r.model
  acceptUnsetRatioModel := r.acceptUnsetRatioModel
  priceData := PriceData.zero
  tieredBillingSnapshot := none
  billingRequestInput := none
  finalPreConsumedQuota := 0
  skipConsumeQuota := false
  estimatePromptTokens := r.estimatePromptTokens
  channelType := some r.channelType
  finalFormatIsClaude := false
  builtInTools := none

/-- The wide and tall sizes of dall-e-3. -/
def isElongated : Bool := decide (r.size = "1024x1792" ∨ r.size = "1792x1024")

def sizeRatio : ℚ :=
  if r.size = "256x256" then 2 / 5
  else if r.size = "512x512" then 9 / 20
  else if r.size = "1024x1024" then 1
  else if r.isElongated then 2
  else 1

def qualityRatio : ℚ :=
  if r.model = "dall-e-3" ∧ r.quality = "hd" then if r.isElongated then 3 / 2 else 2 else 1

/-- `ImagePriceRatio` of `GetTokenCountMeta`. -/
def imagePriceRatio : ℚ :=
  if "dall-e".toList.isPrefixOf r.model.toList then r.sizeRatio * r.qualityRatio else 1

def getTokenCountMeta : TokenCountMeta := ⟨1584, r.imagePriceRatio⟩

theorem imagePriceRatio_pos : 0 < r.imagePriceRatio := by
  have hsize : 0 < r.sizeRatio := by
    unfold sizeRatio
    split_ifs <;> norm_num
  have hquality : 0 < r.qualityRatio := by
    unfold qualityRatio
    split_ifs <;> norm_num
  unfold imagePriceRatio
  split
  · exact mul_pos hsize hquality
  · exact one_pos

def groupRatio (s : PriceSetting) : ℚ := s.ratioFor r.userGroup (r.autoGroup.getD r.usingGroup)

end ImageRequest

/-! ## The synchronous route -/

/-- The count is one more ratio of a price, unless an adaptor has set one. -/
def ImageRequest.countedPrice (r : ImageRequest) (p : PriceData) : PriceData :=
  if p.usePrice then
    if (findKey "n" p.otherRatios).isSome then p else p.addOtherRatio "n" r.n
  else p

/-- An image request has at least one token. -/
def Usage.ofImages (usage : Usage) : Usage :=
  { usage with
    totalTokens := if usage.totalTokens = 0 then 1 else usage.totalTokens
    promptTokens := if usage.promptTokens = 0 then 1 else usage.promptTokens }

def postSyncImageConsumeQuota (s : PriceSetting) (t : ToolSetting) (r : ImageRequest)
    (info : RelayInfo) (usage : Usage) : Consumption :=
  postTextConsumeQuota s t r.context { info with priceData := r.countedPrice info.priceData } (some usage.ofImages)

/-- The synchronous route: priced, converted by the adaptor of a channel, which may add ratios, and
settled with the usage reported. -/
def relayImage (s : PriceSetting) (t : ToolSetting) (r : ImageRequest)
    (requestInput : Except String RequestInput) (adaptorRatios : RatioMap) (usage : Usage) :
    Except String Consumption :=
  match modelPriceHelper s r.context r.genRelayInfo r.estimatePromptTokens r.getTokenCountMeta requestInput with
  | .error err => .error err
  | .ok info =>
    let info := refreshGroupRatio s r.context info
    let p := adaptorRatios.entries.foldl (fun p entry => p.addOtherRatio entry.1 entry.2) info.priceData
    .ok (postSyncImageConsumeQuota s t r { info with priceData := p } usage)

/-! ## The asynchronous route -/

/-- The pricing of `RelayImageTaskSubmit`. -/
def relayImageTaskSubmit (s : PriceSetting) (r : ImageRequest) : Except String PriceData :=
  match modelPriceHelperPerCall s r.context r.genRelayInfo with
  | .error err => .error err
  | .ok (priceData, _) =>
    let priceData := priceData.addOtherRatio "n" r.n
    .ok (if priceData.usePrice then priceData else { priceData with quota := intPart (priceData.quota * r.n) })

/-- What a task has been charged when the worker has recalculated it. -/
def completedImageCharge (te : TaskEnv) (l : Ledger) (task : Task) : Int :=
  (recalculateTaskQuota te l task task.quota).2.1.quota

theorem recalculateTaskQuota_own (te : TaskEnv) (l : Ledger) (task : Task) :
    (recalculateTaskQuota te l task task.quota).1 = l ∧
      (recalculateTaskQuota te l task task.quota).2.1 = task := by
  unfold recalculateTaskQuota
  simp only [sub_self, if_true]
  split
  · exact ⟨rfl, rfl⟩
  · exact ⟨rfl, rfl⟩

/-- The asynchronous route: the quota of the submission is paid in advance, whoever executes the
task. -/
def relayImageTask (s : PriceSetting) (r : ImageRequest) (te : TaskEnv) (l : Ledger) (task : Task) :
    Except String Int :=
  match relayImageTaskSubmit s r with
  | .error err => .error err
  | .ok priceData => .ok (completedImageCharge te l { task with quota := priceData.quota })

/-! ## Exact amounts -/

/-- The exact price of one plain image for the serving group. -/
def plainImageAmount (s : PriceSetting) (r : ImageRequest) (price : ℚ) : ℚ :=
  price * s.quotaPerUnit * r.groupRatio s

/-- The exact amount of the synchronous route: the image at its size and quality with its model's
surcharge, times the number of images and the other ratios. -/
def deliveredImageAmount (s : PriceSetting) (t : ToolSetting) (r : ImageRequest)
    (adaptorRatios : RatioMap) (usage : Usage) (price : ℚ) : ℚ :=
  if usage.ofImages.promptTokens + usage.ofImages.completionTokens = 0 then 0
  else
    (plainImageAmount s r (price * r.imagePriceRatio) +
      toolCallCost t r.context r.genRelayInfo * r.groupRatio s * s.quotaPerUnit) *
      (r.n * ((eraseKey "n" adaptorRatios.positive).map Prod.snd).prod)

theorem ImageRequest.ratioFor_eq (s : PriceSetting) (r : ImageRequest) :
    s.ratioFor r.genRelayInfo.userGroup (servingGroup r.context r.genRelayInfo) = r.groupRatio s := rfl

theorem relayImageTask_price {s : PriceSetting} {r : ImageRequest} {price : ℚ}
    (hprice : s.getModelPrice r.model = some price) (te : TaskEnv) (l : Ledger) (task : Task) :
    relayImageTask s r te l task = .ok (intPart (plainImageAmount s r price)) := by
  have hmodel : s.getModelPrice r.genRelayInfo.originModelName = some price := hprice
  obtain ⟨p, hcall, hp, hquota⟩ := modelPriceHelperPerCall_price (c := r.context) hmodel
  have hadd : (p.addOtherRatio "n" r.n).usePrice = true ∧ (p.addOtherRatio "n" r.n).quota = p.quota := by
    unfold PriceData.addOtherRatio
    split
    · exact ⟨hp, rfl⟩
    · exact ⟨hp, rfl⟩
  have hsubmit : relayImageTaskSubmit s r = .ok (p.addOtherRatio "n" r.n) := by
    simp [relayImageTaskSubmit, hcall, hadd.1]
  rw [relayImageTask, hsubmit]
  simp only [completedImageCharge]
  rw [(recalculateTaskQuota_own te l _).2]
  show Except.ok (p.addOtherRatio "n" r.n).quota = _
  rw [hadd.2, hquota, ImageRequest.ratioFor_eq]
  rfl

theorem settled_of_price (s : PriceSetting) (t : ToolSetting) (c : Context) {info : RelayInfo}
    (usage : Usage) (hsnapshot : info.tieredBillingSnapshot = none)
    (hskip : info.skipConsumeQuota = false) (hp : info.priceData.usePrice = true)
    (hmodel : info.priceData.modelRatio = 0) :
    (postTextConsumeQuota s t c info (some usage)).settled = some (
      if usage.promptTokens + usage.completionTokens = 0 then 0
      else Decimal.round ((info.priceData.modelPrice * s.quotaPerUnit * info.priceData.groupRatioInfo.groupRatio +
        calculateTextToolCallSurcharge s t c info) * otherRatioProduct info)) := by
  have hnone : tieredCharge s t c info usage = none := by
    refine tieredCharge_none ?_
    intro snap hsnap
    rw [hsnapshot] at hsnap
    cases hsnap
  have hquota : (calculateTextQuotaSummary s t c info (some usage)).quota =
      quotaOf info.priceData (usage.promptTokens + usage.completionTokens) (textCost s t c info (some usage)) := rfl
  rw [postTextConsumeQuota_settled _ hskip, settledQuota, Option.bind_some, hnone, Option.getD_none,
    hquota]
  simp [quotaOf, textCost, hp, hmodel]

section Synchronous

variable {s : PriceSetting} {t : ToolSetting} {r : ImageRequest} {adaptorRatios : RatioMap} {p : PriceData}

theorem countedPrice_rest (hp : p.usePrice = true) :
    (r.countedPrice p).usePrice = true ∧ (r.countedPrice p).modelRatio = p.modelRatio ∧
    (r.countedPrice p).modelPrice = p.modelPrice ∧
      (r.countedPrice p).groupRatioInfo = p.groupRatioInfo := by
  unfold ImageRequest.countedPrice PriceData.addOtherRatio
  rw [if_pos hp]
  split
  · exact ⟨hp, rfl, rfl, rfl⟩
  split
  · exact ⟨hp, rfl, rfl, rfl⟩
  · exact ⟨hp, rfl, rfl, rfl⟩

variable (hcount : ∀ count, findKey "n" adaptorRatios.positive = some count → count = r.n)

include hcount

theorem countedPrice_prod (hp : p.usePrice = true)
    (hratios : p.otherRatios = adaptorRatios.positive) :
    ((r.countedPrice p).otherRatios.map Prod.snd).prod =
      r.n * ((eraseKey "n" adaptorRatios.positive).map Prod.snd).prod := by
  have hnodup : (adaptorRatios.positive.map Prod.fst).Nodup :=
    (adaptorRatios.nodup).sublist (List.filter_sublist.map Prod.fst)
  unfold ImageRequest.countedPrice
  rw [if_pos hp, hratios]
  cases hfind : findKey "n" adaptorRatios.positive with
  | some count =>
    have hmem : ("n", (r.n : ℚ)) ∈ adaptorRatios.positive := by
      rw [← hcount count hfind]
      exact mem_of_findKey hfind
    have hperm := (perm_cons_eraseKey hnodup hmem).map Prod.snd
    rw [Option.isSome_some, if_pos rfl, hratios, hperm.prod_eq, List.map_cons, List.prod_cons]
  | none =>
    have hfresh : "n" ∉ adaptorRatios.positive.map Prod.fst := findKey_eq_none hfind
    have hpos : ¬ (r.n : ℚ) ≤ 0 := by
      have h1 : (1 : ℚ) ≤ r.n := by exact_mod_cast r.one_le
      linarith
    simp only [Option.isSome_none, Bool.false_eq_true, if_false, PriceData.addOtherRatio,
      if_neg hpos]
    rw [hratios, setKey_new hfresh, List.map_append, List.prod_append, eraseKey_eq_self hfresh]
    simp [mul_comm]

theorem postSyncImageConsumeQuota_price {info : RelayInfo} {usage : Usage} {price : ℚ}
    (hsnapshot : info.tieredBillingSnapshot = none) (hskip : info.skipConsumeQuota = false)
    (htools : toolCallCost t r.context info = toolCallCost t r.context r.genRelayInfo)
    (hp : info.priceData.usePrice = true) (hmodel : info.priceData.modelRatio = 0)
    (hprice : info.priceData.modelPrice = price * r.imagePriceRatio)
    (hgroup : info.priceData.groupRatioInfo.groupRatio = r.groupRatio s)
    (hratios : info.priceData.otherRatios = adaptorRatios.positive) :
    (postSyncImageConsumeQuota s t r info usage).settled =
      some (Decimal.round (deliveredImageAmount s t r adaptorRatios usage price)) := by
  obtain ⟨hp', hmodel', hprice', hgroup'⟩ := countedPrice_rest (r := r) hp
  have hproduct := countedPrice_prod hcount hp hratios
  have hsurcharge : calculateTextToolCallSurcharge s t r.context
      { info with priceData := r.countedPrice info.priceData } =
      toolCallCost t r.context r.genRelayInfo * r.groupRatio s * s.quotaPerUnit := by
    show toolCallCost t r.context info * (r.countedPrice info.priceData).groupRatioInfo.groupRatio * _ = _
    rw [hgroup', hgroup, htools]
  have hsettled := @settled_of_price s t r.context { info with priceData := r.countedPrice info.priceData }
    usage.ofImages hsnapshot hskip hp' (hmodel'.trans hmodel)
  rw [postSyncImageConsumeQuota, hsettled, hsurcharge]
  show some (if _ then 0 else Decimal.round (((r.countedPrice info.priceData).modelPrice * _ *
    (r.countedPrice info.priceData).groupRatioInfo.groupRatio + _) *
    ((r.countedPrice info.priceData).otherRatios.map Prod.snd).prod)) = _
  rw [hprice', hprice, hgroup', hgroup, hproduct, deliveredImageAmount]
  split
  · rw [show Decimal.round 0 = 0 from Decimal.round_eq_zero_iff.mpr (by norm_num)]
  · rfl

theorem relayImage_price {requestInput : Except String RequestInput} {usage : Usage} {price : ℚ}
    (hmode : s.getBillingMode r.model ≠ billingModeTieredExpr)
    (hprice : s.getModelPrice r.model = some price) :
    ∃ consumption, relayImage s t r requestInput adaptorRatios usage = .ok consumption ∧
      consumption.settled =
        some (Decimal.round (deliveredImageAmount s t r adaptorRatios usage price)) := by
  have htokens : r.getTokenCountMeta.imagePriceRatio ≠ 0 := r.imagePriceRatio_pos.ne'
  obtain ⟨p, hcall, hp, hpm, hpr, hpo, -⟩ := @modelPriceHelper_price requestInput
    r.estimatePromptTokens r.getTokenCountMeta s r.genRelayInfo r.context price hmode hprice htokens
  obtain ⟨g, hg, hrefreshed⟩ := refreshGroupRatio_eq s r.context { r.genRelayInfo with
    usingGroup := servingGroup r.context r.genRelayInfo, priceData := p }
  have hgroup : g.groupRatio = r.groupRatio s := by
    rw [hg]
    show s.ratioFor r.userGroup (r.autoGroup.getD (r.autoGroup.getD r.usingGroup)) = _
    cases hauto : r.autoGroup with
    | none => simp only [ImageRequest.groupRatio, hauto, Option.getD_none]
    | some group => simp [ImageRequest.groupRatio, hauto]
  have hadaptor : adaptorRatios.entries.foldl (fun p entry => p.addOtherRatio entry.1 entry.2)
      { p with groupRatioInfo := g } = { p with groupRatioInfo := g, otherRatios := adaptorRatios.positive } :=
    foldl_addOtherRatio adaptorRatios hpo
  simp only [relayImage, hcall, hrefreshed, hadaptor]
  refine ⟨_, rfl, ?_⟩
  exact postSyncImageConsumeQuota_price hcount rfl rfl rfl hp hpr hpm hgroup rfl

end Synchronous

/-- The amount of the synchronous route rounds to within one unit of the whole units of a plain
image. -/
def CloseToPlainImage (s : PriceSetting) (t : ToolSetting) (r : ImageRequest)
    (adaptorRatios : RatioMap) (usage : Usage) (price : ℚ) : Prop :=
  let delivered := deliveredImageAmount s t r adaptorRatios usage price
  let plain : ℚ := intPart (plainImageAmount s r price)
  |delivered - plain| < 3 / 2 ∨ delivered = plain - 3 / 2 ∧ 0 ≤ delivered ∨ delivered = plain + 3 / 2 ∧ delivered < 0

/-- For a price-billed image model and an upstream that reports no count, the charges of both routes
are within one unit exactly when the synchronous amount is close to that of a single plain image. -/
theorem image_routes_agree_iff (s : PriceSetting) (t : ToolSetting) (r : ImageRequest)
    (requestInput : Except String RequestInput) (adaptorRatios : RatioMap) (usage : Usage)
    (te : TaskEnv) (l : Ledger) (task : Task) (price : ℚ)
    (hmode : s.getBillingMode r.model ≠ billingModeTieredExpr)
    (hprice : s.getModelPrice r.model = some price) (hcount : ∀ count, findKey "n" adaptorRatios.positive = some count → count = r.n) :
    ∃ asynchronous consumption synchronous, relayImageTask s r te l task = .ok asynchronous ∧
      relayImage s t r requestInput adaptorRatios usage = .ok consumption ∧
      consumption.settled = some synchronous ∧
      (|synchronous - asynchronous| ≤ 1 ↔ CloseToPlainImage s t r adaptorRatios usage price) := by
  obtain ⟨consumption, hsync, hsettled⟩ := @relayImage_price s t r adaptorRatios hcount requestInput
    usage price hmode hprice
  refine ⟨_, consumption, _, relayImageTask_price hprice te l task, hsync, hsettled, ?_⟩
  exact abs_round_sub_le_one_iff

theorem single_plain_image_agrees {s : PriceSetting} {t : ToolSetting} {r : ImageRequest}
    {adaptorRatios : RatioMap} {usage : Usage} {price : ℚ} (hn : r.n = 1)
    (hratio : r.imagePriceRatio = 1)
    (hothers : eraseKey "n" adaptorRatios.positive = []) (htools : toolCallCost t r.context r.genRelayInfo = 0)
    (htokens : usage.ofImages.promptTokens + usage.ofImages.completionTokens ≠ 0)
    (hamount : 0 ≤ plainImageAmount s r price) :
    CloseToPlainImage s t r adaptorRatios usage price := by
  have hdelivered : deliveredImageAmount s t r adaptorRatios usage price = plainImageAmount s r price := by
    simp [deliveredImageAmount, htokens, hn, hratio, hothers, htools]
  have hfloor : intPart (plainImageAmount s r price) = ⌊plainImageAmount s r price⌋ :=
    intPart_eq_floor hamount
  refine .inl ?_
  rw [hdelivered, hfloor, abs_lt]
  have hlo := Int.floor_le (plainImageAmount s r price)
  have hhi := Int.lt_floor_add_one (plainImageAmount s r price)
  constructor
  · linarith
  · linarith

/-- A model at ten cents an image. -/
def imagePriceSetting : PriceSetting :=
  { PriceSetting.unset with
    modelPriceMap := fun _ => some (1 / 10)
    quotaPerUnit := 500000 }

def sampleImages (n : Nat) (h : 1 ≤ n) : ImageRequest :=
  ⟨"image-model", "", "", n, h, 1, "default", "default", none, false, 1, 10⟩

def sampleCharges (n : Nat) (h : 1 ≤ n) : Except String Int × Except String (Option Int) :=
  (relayImageTask imagePriceSetting (sampleImages n h) quietTaskEnv smallLedger (sampleTask 1 7 ""),
    (relayImage imagePriceSetting ToolSetting.free (sampleImages n h) (.ok ⟨[], ""⟩) RatioMap.empty
      (Usage.ofText 0 0)).map Consumption.settled)

theorem single_image_charged_alike : ∃ asynchronous consumption synchronous,
      relayImageTask imagePriceSetting (sampleImages 1 le_rfl) quietTaskEnv smallLedger (sampleTask 1 7 "") =
        .ok asynchronous ∧
      relayImage imagePriceSetting ToolSetting.free (sampleImages 1 le_rfl) (.ok ⟨[], ""⟩) RatioMap.empty
        (Usage.ofText 0 0) = .ok consumption ∧
      consumption.settled = some synchronous ∧ |synchronous - asynchronous| ≤ 1 := by
  obtain ⟨asynchronous, consumption, synchronous, hasync, hsync, hsettled, hiff⟩ :=
    image_routes_agree_iff imagePriceSetting ToolSetting.free (sampleImages 1 le_rfl) (.ok ⟨[], ""⟩) RatioMap.empty
      (Usage.ofText 0 0) quietTaskEnv smallLedger (sampleTask 1 7 "") (1 / 10) (by decide +kernel) (by decide +kernel)
      (by intro count h; cases h)
  refine ⟨asynchronous, consumption, synchronous, hasync, hsync, hsettled, hiff.mpr ?_⟩
  exact single_plain_image_agrees rfl (by decide +kernel) rfl (by decide +kernel) (by decide) (by decide +kernel)

/-- Two images cost 100000 units at once, and 50000 as a task. -/
theorem two_images_cost_one : sampleCharges 2 one_le_two = (.ok 50000, .ok (some 100000)) := by
  decide +kernel

end NewApi.Relay
