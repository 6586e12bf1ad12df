import NewApi.Relay.ModelMapped

/-!
# Submitting a task, and pricing it again (`relay/relay_task.go`, `service/task_billing.go`)

A task is charged when it is submitted: the quota of one call times the ratios the channel's adaptor
estimates (duration, size, …). The adaptor may correct the ratios after the submission, and a
ratio-billed task is charged again by tokens when it is finished.

* `recalcQuotaFromRatios` — divides the estimated ratios out again and multiplies the corrected ones
  in.

Both loops over the estimated ratios truncate after each step.
-/

namespace NewApi.Relay

open NewApi.Channels NewApi.Decimal List

/-! ## The submission -/

structure TaskError where
  code : String
  message : String
  statusCode : Int
  localError : Bool
deriving DecidableEq, Repr

def taskErrorWrapper (message code : String) (statusCode : Int) : TaskError :=
  ⟨code, message, statusCode, false⟩

def taskErrorWrapperLocal (message code : String) (statusCode : Int) : TaskError :=
  ⟨code, message, statusCode, true⟩

/-- An order in which a map is iterated. -/
structure MapOrder where
  visit : List (String × ℚ) → List (String × ℚ)
  perm : ∀ entries, (visit entries).Perm entries

/-- The orders of the three loops of a submission over ratio maps. -/
structure SubmitOrders where
  apply : MapOrder
  divideOut : MapOrder
  adjusted : MapOrder

def MapOrder.given : MapOrder := ⟨fun entries => entries, fun _ => List.Perm.refl _⟩

def MapOrder.backwards : MapOrder := ⟨List.reverse, fun _ => List.reverse_perm _⟩

def isPerRequestTaskBilling (s : PriceSetting) (modelName : String) : Bool :=
  if modelName ∈ s.taskPricePatches then true
  else decide (s.getBillingMode modelName = billingModePerRequest)

def shouldApplyTaskOtherRatio (s : PriceSetting) (modelName ratioKey : String) : Bool :=
  !(decide (ratioKey = "seconds") && isPerRequestTaskBilling s modelName)

def coverTaskActionToModelName (platform action : String) : String :=
  String.ofList (platform.toList.map Char.toLower) ++ "_" ++ String.ofList (action.toList.map Char.toLower)

/-- The loop that puts the other ratios into the quota. -/
def applyOtherRatios (s : PriceSetting) (order : MapOrder) (modelName : String)
    (price : PriceData) : PriceData :=
  if modelName ∈ s.taskPricePatches then price
  else
    { price with quota := (order.visit price.otherRatios).foldl (fun quota entry =>
        if entry.2 ≠ 1 ∧ shouldApplyTaskOtherRatio s modelName entry.1 = true then intPart (quota * entry.2)
        else quota) price.quota }

def recalcQuotaFromRatios (s : PriceSetting) (orders : SubmitOrders) (modelName : String)
    (price : PriceData) (ratios : List (String × ℚ)) : Int :=
  let baseQuota := (orders.divideOut.visit price.otherRatios).foldl (fun baseQuota entry =>
    if entry.2 ≠ 1 ∧ 0 < entry.2 ∧ shouldApplyTaskOtherRatio s modelName entry.1 = true then
      intPart (baseQuota / entry.2)
    else baseQuota) price.quota
  intPart ((orders.adjusted.visit ratios).foldl (fun result entry =>
    if entry.2 ≠ 1 ∧ shouldApplyTaskOtherRatio s modelName entry.1 = true then result * entry.2
    else result) (baseQuota : ℚ))

/-- A `map[string]float64`, by its entries. -/
structure RatioMap where
  entries : List (String × ℚ)
  nodup : (entries.map Prod.fst).Nodup

def RatioMap.empty : RatioMap := ⟨[], List.nodup_nil⟩

/-- What the adaptor of the channel and the upstream answer to a submission. -/
structure TaskAdaptor where
  platform : String
  /-- `GetTaskAdaptor(platform) != nil`. -/
  known : Bool
  /-- `ValidateRequestAndSetAction`: the action, or a refusal. -/
  validate : Except TaskError String
  /-- `TaskErrorIfSensitivePrompt`, when the prompt is checked at all. -/
  sensitivePrompt : Option TaskError
  estimateBilling : RatioMap
  /-- `BuildRequestBody`. -/
  buildError : Option String
  /-- `DoRequest`: the status and the body, if there is a response. -/
  doRequest : Except String (Option (Int × String))
  /-- `DoResponse`: the upstream's task id and the task data. -/
  doResponse : Except TaskError (String × String)
  adjustBillingOnSubmit : RatioMap

structure TaskSubmitResult where
  upstreamTaskID : String
  taskData : String
  platform : String
  quota : Int
deriving DecidableEq, Repr

/-- The submission as the relay sees it besides the adaptor. -/
structure Submission where
  info : RelayInfo
  context : Context
  /-- The channel's model mapping. -/
  modelMapping : Option (List (String × String))
  /-- `info.Billing != nil`: an attempt before this one has paid in advance. -/
  billed : Bool
  /-- `PreConsumeBilling`. -/
  preConsumeBilling : Int → Option TaskError

def Submission.modelName (b : Submission) (platform action : String) : String :=
  if b.info.originModelName = "" then coverTaskActionToModelName platform action else b.info.originModelName

/-- Steps 4 to 6: the price of the model, with the estimated ratios in it. -/
def taskPrice (s : PriceSetting) (order : MapOrder) (b : Submission) (modelName : String)
    (estimated : RatioMap) : Except String (PriceData × RelayInfo) :=
  match modelPriceHelperPerCall s b.context { b.info with originModelName := modelName } with
  | .error err => .error err
  | .ok (price, info) =>
    let price := estimated.entries.foldl (fun price entry => price.addOtherRatio entry.1 entry.2) price
    .ok (applyOtherRatios s order modelName price, info)

/-- Steps 1 and 2: the request is checked, and the name it is priced under is settled. -/
def taskModel (b : Submission) (a : TaskAdaptor) : Except TaskError String :=
  if !a.known then
    .error (taskErrorWrapperLocal ("invalid api platform: " ++ a.platform) "invalid_api_platform" 400)
  else
    match a.validate, a.sensitivePrompt with
    | .error err, _ => .error err
    | .ok _, some err => .error err
    | .ok action, none =>
      let modelName := b.modelName a.platform action
      match modelMappedHelper .taskSubmit b.modelMapping (initChannelMeta modelName) with
      | .error err => .error (taskErrorWrapperLocal err "model_mapping_failed" 400)
      | .ok _ => .ok modelName

/-- Steps 8 to 11: the request is built and sent, and the response is read. -/
def sendTask (a : TaskAdaptor) : Except TaskError (String × String) :=
  match a.buildError, a.doRequest with
  | some err, _ => .error (taskErrorWrapper err "build_request_failed" 500)
  | none, .error err => .error (taskErrorWrapper err "do_request_failed" 500)
  | none, .ok (some (status, body)) =>
    if status < 200 ∨ 300 ≤ status then .error (taskErrorWrapper body "fail_to_fetch_task" status)
    else a.doResponse
  | none, .ok none => a.doResponse

/-- The quota after `AdjustBillingOnSubmit`, and the price data that goes with it. -/
def adjustedPrice (s : PriceSetting) (orders : SubmitOrders) (modelName : String) (a : TaskAdaptor)
    (price : PriceData) : PriceData :=
  if a.adjustBillingOnSubmit.entries = [] then price
  else
    { price with
      otherRatios := a.adjustBillingOnSubmit.entries
      quota := recalcQuotaFromRatios s orders modelName price a.adjustBillingOnSubmit.entries }

/-- `RelayTaskSubmit`: the result, and the relay info the task is made from. -/
def relayTaskSubmit (s : PriceSetting) (orders : SubmitOrders) (b : Submission) (a : TaskAdaptor) :
    Except TaskError (TaskSubmitResult × RelayInfo) :=
  match taskModel b a with
  | .error err => .error err
  | .ok modelName =>
    match taskPrice s orders.apply b modelName a.estimateBilling with
    | .error err => .error (taskErrorWrapper err "model_price_error" 400)
    | .ok (price, info) =>
      -- only the first attempt pays in advance
      match if !b.billed && !price.freeModel then b.preConsumeBilling price.quota else none with
      | some err => .error err
      | none =>
        match sendTask a with
        | .error err => .error err
        | .ok (upstreamTaskID, taskData) =>
          let price := adjustedPrice s orders modelName a price
          .ok (⟨upstreamTaskID, taskData, a.platform, price.quota⟩, { info with priceData := price })

/-! ## The quota of a submission -/

/-- The ratios a loop takes into account. -/
def appliedRatios (s : PriceSetting) (modelName : String) (ratios : List (String × ℚ)) : List ℚ :=
  (ratios.filter fun entry =>
    decide (entry.2 ≠ 1) && shouldApplyTaskOtherRatio s modelName entry.1).map Prod.snd

section Quota

variable {s : PriceSetting} {modelName : String}

theorem foldl_applied {α : Type} (f : α → ℚ → α) (entries : List (String × ℚ)) (x : α) :
    entries.foldl (fun x entry =>
      if entry.2 ≠ 1 ∧
      shouldApplyTaskOtherRatio s modelName entry.1 = true then f x entry.2 else x) x =
      (appliedRatios s modelName entries).foldl f x := by
  induction entries generalizing x with
  | nil => rfl
  | cons entry rest ih =>
    rw [foldl_cons, ih]
    unfold appliedRatios
    rw [filter_cons]
    by_cases happly : entry.2 ≠ 1 ∧ shouldApplyTaskOtherRatio s modelName entry.1 = true
    · simp [happly]
    have hskip : (decide (entry.2 ≠ 1) && shouldApplyTaskOtherRatio s modelName entry.1) = false := by
      rw [← Bool.not_eq_true, Bool.and_eq_true, decide_eq_true_eq]
      exact happly
    rw [if_neg happly, if_neg (by rw [hskip]; exact Bool.false_ne_true)]

theorem appliedRatios_perm {entries entries' : List (String × ℚ)} (h : entries.Perm entries') :
    (appliedRatios s modelName entries).Perm (appliedRatios s modelName entries') :=
  (h.filter _).map _

theorem mem_appliedRatios {entries : List (String × ℚ)} {ratio : ℚ}
    (h : ratio ∈ appliedRatios s modelName entries) : ∃ entry ∈ entries, entry.2 = ratio := by
  obtain ⟨entry, hmem, hratio⟩ := mem_map.mp h
  exact ⟨entry, (mem_filter.mp hmem).1, hratio⟩

theorem applyOtherRatios_quota (order : MapOrder) {price : PriceData}
    (hpatch : modelName ∉ s.taskPricePatches)
    (hwhole : WholeBelow price.quota (appliedRatios s modelName price.otherRatios)) :
    (applyOtherRatios s order modelName price).quota =
      intPart (price.quota * (appliedRatios s modelName price.otherRatios).prod) := by
  have hperm := @appliedRatios_perm s modelName _ _ (order.perm price.otherRatios)
  rw [applyOtherRatios, if_neg hpatch]
  show (order.visit price.otherRatios).foldl _ price.quota = _
  rw [foldl_applied (fun quota ratio => intPart (quota * ratio)),
    foldl_truncated _ _ (hwhole.perm hperm), hperm.prod_eq]

theorem foldl_divided (entries : List (String × ℚ))
    (hpos : ∀ entry ∈ entries, 0 < entry.2) (quota : Int) :
    entries.foldl (fun baseQuota entry =>
      if entry.2 ≠ 1 ∧ 0 < entry.2 ∧ shouldApplyTaskOtherRatio s modelName entry.1 = true then
        intPart (baseQuota / entry.2) else baseQuota) quota =
      (appliedRatios s modelName entries).foldl (fun quota ratio => intPart (quota / ratio)) quota := by
  rw [← foldl_applied (fun quota ratio => intPart (quota / ratio))]
  refine foldl_ext _ _ quota ?_
  intro x entry hmem
  simp [hpos entry hmem]

/-- A correction starts from the quota before the estimated ratios if they can be divided out
again. -/
theorem recalcQuotaFromRatios_eq (orders : SubmitOrders) {price : PriceData} {base : Int}
    {ratios : List (String × ℚ)} (hpos : ∀ entry ∈ price.otherRatios, 0 < entry.2)
    (hwhole : WholeBelow base (appliedRatios s modelName price.otherRatios))
    (hquota : (base : ℚ) * (appliedRatios s modelName price.otherRatios).prod = price.quota) :
    recalcQuotaFromRatios s orders modelName price ratios =
      intPart (base * (appliedRatios s modelName ratios).prod) := by
  have hdivide := @appliedRatios_perm s modelName _ _ (orders.divideOut.perm price.otherRatios)
  have hadjust := @appliedRatios_perm s modelName _ _ (orders.adjusted.perm ratios)
  have hvisit : ∀ entry ∈ orders.divideOut.visit price.otherRatios, 0 < entry.2 := by
    intro entry hmem
    exact hpos entry ((orders.divideOut.perm price.otherRatios).mem_iff.mp hmem)
  have hfactors : ∀ ratio ∈ appliedRatios s modelName (orders.divideOut.visit price.otherRatios), 0 < ratio := by
    intro ratio hmem
    obtain ⟨entry, hentry, rfl⟩ := mem_appliedRatios hmem
    exact hvisit entry hentry
  have hbase : (orders.divideOut.visit price.otherRatios).foldl (fun baseQuota entry =>
      if entry.2 ≠ 1 ∧ 0 < entry.2 ∧ shouldApplyTaskOtherRatio s modelName entry.1 = true then
        intPart (baseQuota / entry.2) else baseQuota) price.quota = base := by
    rw [foldl_divided _ hvisit]
    refine foldl_recovered _ base price.quota hfactors (hwhole.perm hdivide) ?_
    rw [hdivide.prod_eq, hquota]
  unfold recalcQuotaFromRatios
  simp only [hbase]
  rw [foldl_applied (fun result ratio => result * ratio), ← hadjust.prod_eq]
  exact congrArg intPart foldl_eq_apply_foldr

end Quota

/-! ## Estimated ratios -/

/-- The entries `AddOtherRatio` lets in. -/
def RatioMap.positive (m : RatioMap) : List (String × ℚ) :=
  m.entries.filter fun entry => decide (0 < entry.2)

theorem foldl_addOtherRatio (m : RatioMap) {price : PriceData} (h : price.otherRatios = []) :
    m.entries.foldl (fun price entry => price.addOtherRatio entry.1 entry.2) price =
      { price with otherRatios := m.positive } := by
  suffices hgen : ∀ (entries : List (String × ℚ)) (price : PriceData), (entries.map Prod.fst).Nodup →
      (∀ k ∈ entries.map Prod.fst, k ∉ price.otherRatios.map Prod.fst) →
      entries.foldl (fun price entry => price.addOtherRatio entry.1 entry.2) price =
        { price with otherRatios := price.otherRatios ++ entries.filter fun entry => decide (0 < entry.2) } by
    rw [hgen m.entries price m.nodup (by simp [h]), h, nil_append]
    rfl
  intro entries
  induction entries with
  | nil => intro price _ _; simp
  | cons entry rest ih =>
    intro price hnodup hfresh
    rw [map_cons, nodup_cons] at hnodup
    have hhead : entry.1 ∉ price.otherRatios.map Prod.fst := hfresh _ mem_cons_self
    rw [foldl_cons, filter_cons]
    by_cases hpos : 0 < entry.2
    · have hadd : price.addOtherRatio entry.1 entry.2 = { price with otherRatios := price.otherRatios ++ [entry] } := by
        rw [PriceData.addOtherRatio, if_neg (not_le.mpr hpos), setKey_new hhead]
      rw [hadd, ih _ hnodup.2, if_pos (by simpa using hpos)]
      · simp
      intro k hk
      have hne : k ≠ entry.1 := by
        rintro rfl
        exact hnodup.1 hk
      simpa [hne] using hfresh k (mem_cons_of_mem _ hk)
    · have hadd : price.addOtherRatio entry.1 entry.2 = price := by
        rw [PriceData.addOtherRatio, if_pos (not_lt.mp hpos)]
      rw [hadd, ih _ hnodup.2 fun k hk => hfresh k (mem_cons_of_mem _ hk),
        if_neg (by simpa using hpos)]

variable {s : PriceSetting} {m : RatioMap} {b : Submission} {modelName : String} {info : RelayInfo}

theorem taskPrice_eq {order : MapOrder} {price : PriceData}
    (h : modelPriceHelperPerCall s b.context { b.info with originModelName := modelName } = .ok (price, info)) :
    taskPrice s order b modelName m =
      .ok (applyOtherRatios s order modelName { price with otherRatios := m.positive }, info) := by
  obtain ⟨-, -, hempty⟩ := modelPriceHelperPerCall_ok h
  unfold taskPrice
  rw [h]
  simp only
  rw [foldl_addOtherRatio m hempty]

/-- The price data of a submission, from the price of one call. -/
def finalPrice (s : PriceSetting) (orders : SubmitOrders) (modelName : String) (a : TaskAdaptor)
    (price : PriceData) : PriceData :=
  adjustedPrice s orders modelName a
    (applyOtherRatios s orders.apply modelName { price with otherRatios := a.estimateBilling.positive })

variable {r : TaskSubmitResult × RelayInfo} {orders : SubmitOrders} {a : TaskAdaptor}

theorem relayTaskSubmit_ok (h : relayTaskSubmit s orders b a = .ok r) :
    ∃ modelName price info, taskModel b a = .ok modelName ∧
      modelPriceHelperPerCall s b.context { b.info with originModelName := modelName } = .ok (price, info) ∧
      r.2 = { info with priceData := finalPrice s orders modelName a price } ∧
      r.1.quota = r.2.priceData.quota := by
  unfold relayTaskSubmit at h
  rcases hmodel : taskModel b a with err | modelName
  · rw [hmodel] at h
    cases h
  rcases hprice : modelPriceHelperPerCall s b.context { b.info with originModelName := modelName } with err | p
  · simp only [hmodel, taskPrice, hprice] at h
    cases h
  simp only [hmodel, taskPrice_eq hprice] at h
  refine ⟨modelName, p.1, p.2, rfl, hprice, ?_⟩
  split at h
  · cases h
  split at h
  · cases h
  · cases h
    exact ⟨rfl, rfl⟩

theorem relayTaskSubmit_quota {price : PriceData} (hmodel : taskModel b a = .ok modelName)
    (hprice : modelPriceHelperPerCall s b.context { b.info with originModelName := modelName } = .ok (price, info))
    (h : relayTaskSubmit s orders b a = .ok r) :
    r.1.quota = (finalPrice s orders modelName a price).quota := by
  obtain ⟨modelName', price', info', hmodel', hprice', hinfo, hquota⟩ := relayTaskSubmit_ok h
  rw [hmodel] at hmodel'
  cases hmodel'
  rw [hprice] at hprice'
  cases hprice'
  rw [hquota, hinfo]

/-! ## Order and correction -/

/-- No amount that a loop passes through is cut off before the last one. `base` is the quota of one
    call. -/
structure RatiosFit (s : PriceSetting) (modelName : String) (base : Int) (a : TaskAdaptor) : Prop where
  estimated : modelName ∉ s.taskPricePatches → WholeBelow base (appliedRatios s modelName a.estimateBilling.positive)
  recovered : modelName ∉ s.taskPricePatches → a.adjustBillingOnSubmit.entries ≠ [] →
    Whole (base * (appliedRatios s modelName a.estimateBilling.positive).prod)
  adjusted : modelName ∉ s.taskPricePatches →
    WholeBelow base (appliedRatios s modelName a.adjustBillingOnSubmit.entries)
  positive : ∀ ratio ∈ appliedRatios s modelName a.adjustBillingOnSubmit.entries, 0 < ratio
  /-- A model billed per request has no ratio but the duration, which is left out for it. -/
  exempt : modelName ∈ s.taskPricePatches → a.adjustBillingOnSubmit.entries ≠ [] →
    appliedRatios s modelName a.estimateBilling.positive = [] ∧
      appliedRatios s modelName a.adjustBillingOnSubmit.entries = []

section Order

variable {s : PriceSetting} {modelName : String} {price : PriceData} {a : TaskAdaptor}

theorem mem_positive {entry : String × ℚ} (h : entry ∈ m.positive) : 0 < entry.2 := by
  simpa using (mem_filter.mp h).2

theorem appliedRatios_positive (h : ∀ ratio ∈ appliedRatios s modelName m.entries, 0 < ratio) :
    appliedRatios s modelName m.positive = appliedRatios s modelName m.entries := by
  rw [appliedRatios, RatioMap.positive, filter_filter, appliedRatios]
  refine congrArg _ (filter_congr fun entry hmem => ?_)
  cases happlied : decide (entry.2 ≠ 1) && shouldApplyTaskOtherRatio s modelName entry.1 with
  | false => rfl
  | true =>
    rw [Bool.true_and]
    exact decide_eq_true (h _ (mem_map_of_mem (mem_filter.mpr ⟨hmem, happlied⟩)))

theorem applied_quota (order : MapOrder) (hfit : RatiosFit s modelName price.quota a) :
    (applyOtherRatios s order modelName { price with otherRatios := a.estimateBilling.positive }).quota =
      if modelName ∈ s.taskPricePatches then price.quota
      else intPart (price.quota * (appliedRatios s modelName a.estimateBilling.positive).prod) := by
  by_cases hpatch : modelName ∈ s.taskPricePatches
  · rw [applyOtherRatios, if_pos hpatch, if_pos hpatch]
  · rw [if_neg hpatch]
    exact applyOtherRatios_quota order hpatch (hfit.estimated hpatch)

theorem applyOtherRatios_otherRatios (order : MapOrder) (price : PriceData) :
    (applyOtherRatios s order modelName price).otherRatios = price.otherRatios := by
  unfold applyOtherRatios
  split
  · rfl
  · rfl

theorem applyOtherRatios_groupRatioInfo (order : MapOrder) (price : PriceData) :
    (applyOtherRatios s order modelName price).groupRatioInfo = price.groupRatioInfo := by
  unfold applyOtherRatios
  split
  · rfl
  · rfl

theorem adjustedPrice_groupRatioInfo (orders : SubmitOrders) (price : PriceData) :
    (adjustedPrice s orders modelName a price).groupRatioInfo = price.groupRatioInfo := by
  unfold adjustedPrice
  split
  · rfl
  · rfl

theorem finalPrice_groupRatioInfo (orders : SubmitOrders) (price : PriceData) :
    (finalPrice s orders modelName a price).groupRatioInfo = price.groupRatioInfo := by
  rw [finalPrice, adjustedPrice_groupRatioInfo, applyOtherRatios_groupRatioInfo]

theorem uncorrected_quota (orders : SubmitOrders) (hfit : RatiosFit s modelName price.quota a)
    (hadjust : a.adjustBillingOnSubmit.entries = []) :
    (finalPrice s orders modelName a price).quota = if modelName ∈ s.taskPricePatches then price.quota
      else intPart (price.quota * (appliedRatios s modelName a.estimateBilling.positive).prod) := by
  rw [finalPrice, adjustedPrice, if_pos hadjust]
  exact applied_quota orders.apply hfit

theorem adjusted_quota (orders : SubmitOrders) (hfit : RatiosFit s modelName price.quota a)
    (hadjust : a.adjustBillingOnSubmit.entries ≠ []) :
    (finalPrice s orders modelName a price).quota = if modelName ∈ s.taskPricePatches then price.quota
      else intPart (price.quota * (appliedRatios s modelName a.adjustBillingOnSubmit.entries).prod) := by
  have happlied := applied_quota orders.apply hfit
  have hratios := @applyOtherRatios_otherRatios s modelName orders.apply
    { price with otherRatios := a.estimateBilling.positive }
  rw [finalPrice, adjustedPrice, if_neg hadjust]
  show recalcQuotaFromRatios s orders modelName _ _ = _
  have hpos : ∀ entry ∈ (applyOtherRatios s orders.apply modelName
      { price with otherRatios := a.estimateBilling.positive }).otherRatios, 0 < entry.2 := by
    intro entry hmem
    rw [hratios] at hmem
    exact mem_positive hmem
  by_cases hpatch : modelName ∈ s.taskPricePatches
  · -- nothing was applied, and nothing is divided out or multiplied in
    obtain ⟨hestimated, hadjusted⟩ := hfit.exempt hpatch hadjust
    rw [if_pos hpatch] at happlied ⊢
    rw [@recalcQuotaFromRatios_eq s modelName orders _ price.quota _ hpos]
    · rw [hadjusted, prod_nil, mul_one, intPart_intCast]
    · rw [hratios, hestimated]
      intro part _ hlen
      simp at hlen
    · rw [hratios, hestimated, happlied, prod_nil, mul_one]
  · rw [if_neg hpatch] at happlied ⊢
    obtain ⟨n, hn⟩ := hfit.recovered hpatch hadjust
    refine recalcQuotaFromRatios_eq orders hpos ?_ ?_
    · rw [hratios]
      exact hfit.estimated hpatch
    · rw [hratios, happlied, hn, intPart_intCast]

/-- The adaptor that had estimated the corrected ratios. -/
def TaskAdaptor.foreseeing (a : TaskAdaptor) : TaskAdaptor :=
  { a with estimateBilling := a.adjustBillingOnSubmit, adjustBillingOnSubmit := .empty }

theorem RatiosFit.foreseeing {base : Int} (h : RatiosFit s modelName base a) :
    RatiosFit s modelName base a.foreseeing where
  estimated := fun hpatch => by
    have hwhole := h.adjusted hpatch
    rw [← appliedRatios_positive h.positive] at hwhole
    exact hwhole
  recovered := fun _ hne => (hne rfl).elim
  adjusted := fun _ part _ hlen => by simp [TaskAdaptor.foreseeing, RatioMap.empty, appliedRatios] at hlen
  positive := fun ratio hmem => by
    simp [TaskAdaptor.foreseeing, RatioMap.empty, appliedRatios] at hmem
  exempt := fun _ hne => (hne rfl).elim

end Order

/-- The quota charged in advance and the final one do not depend on the orders of the loops; after a
correction the quota is what the corrected ratios would have given as the estimate. -/
theorem submitted_quota_order_free (s : PriceSetting) (b : Submission) (a : TaskAdaptor)
    (modelName : String) (price : PriceData) (info : RelayInfo)
    (hmodel : taskModel b a = .ok modelName)
    (hprice : modelPriceHelperPerCall s b.context { b.info with originModelName := modelName } = .ok (price, info))
    (hfit : RatiosFit s modelName price.quota a) :
    (∀ order order' : MapOrder, (taskPrice s order b modelName a.estimateBilling).map (fun p => p.1.quota) =
        (taskPrice s order' b modelName a.estimateBilling).map fun p => p.1.quota) ∧
    (∀ (orders orders' : SubmitOrders) (r r' : TaskSubmitResult × RelayInfo),
      relayTaskSubmit s orders b a = .ok r → relayTaskSubmit s orders' b a = .ok r' → r.1.quota = r'.1.quota) ∧
    (a.adjustBillingOnSubmit.entries ≠ [] → ∀ (orders orders' : SubmitOrders) (r r' : TaskSubmitResult × RelayInfo),
        relayTaskSubmit s orders b a = .ok r → relayTaskSubmit s orders' b a.foreseeing = .ok r' →
          r.1.quota = r'.1.quota) := by
  refine ⟨?_, ?_, ?_⟩
  · intro order order'
    rw [taskPrice_eq hprice, taskPrice_eq hprice]
    simp only [Except.map]
    rw [applied_quota order hfit, applied_quota order' hfit]
  · intro orders orders' r r' hr hr'
    rw [relayTaskSubmit_quota hmodel hprice hr, relayTaskSubmit_quota hmodel hprice hr']
    by_cases hadjust : a.adjustBillingOnSubmit.entries = []
    · rw [uncorrected_quota orders hfit hadjust, uncorrected_quota orders' hfit hadjust]
    · rw [adjusted_quota orders hfit hadjust, adjusted_quota orders' hfit hadjust]
  intro hadjust orders orders' r r' hr hr'
  have hmodel' : taskModel b a.foreseeing = .ok modelName := hmodel
  rw [relayTaskSubmit_quota hmodel hprice hr, relayTaskSubmit_quota hmodel' hprice hr',
    adjusted_quota orders hfit hadjust]
  rw [uncorrected_quota orders' hfit.foreseeing rfl]
  show _ = if _ then _ else intPart (_ * (appliedRatios s modelName a.adjustBillingOnSubmit.positive).prod)
  rw [appliedRatios_positive hfit.positive]

def sampleSubmission (userGroup usingGroup : String) : Submission where
  info :=
    { userId := 7
      userGroup := userGroup
      usingGroup := usingGroup
      originModelName := "video-1"
      acceptUnsetRatioModel := false
      priceData := .zero
      tieredBillingSnapshot := none
      billingRequestInput := none
      finalPreConsumedQuota := 0
      skipConsumeQuota := false
      estimatePromptTokens := 0
      channelType := none
      finalFormatIsClaude := false
      builtInTools := none }
  context := ⟨none, 0, false, "", ""⟩
  modelMapping := some []
  billed := false
  preConsumeBilling := fun _ => none

def sampleAdaptor (estimated adjusted : RatioMap) : TaskAdaptor where
  platform := "55"
  known := true
  validate := .ok "generate"
  sensitivePrompt := none
  estimateBilling := estimated
  buildError := none
  doRequest := .ok (some (200, ""))
  doResponse := .ok ("up-1", "")
  adjustBillingOnSubmit := adjusted

def samplePrice (quota : ℚ) (patches : List String) : PriceSetting :=
  { PriceSetting.unset with
    modelPriceMap := fun _ => some (quota / 500000)
    taskPricePatches := patches }

theorem size_quality_nodup (size quality : ℚ) : ([("size", size), ("quality", quality)].map Prod.fst).Nodup := by
  simp

def sampleRatios (size quality : ℚ) : RatioMap :=
  ⟨[("size", size), ("quality", quality)], size_quality_nodup size quality⟩

def ordersGiven : SubmitOrders := ⟨.given, .given, .given⟩

def ordersBackwards : SubmitOrders := ⟨.backwards, .backwards, .backwards⟩

theorem wholeBelow_pair {base : Int} {x y : ℚ} (hx : Whole (base * x)) (hy : Whole (base * y)) :
    WholeBelow base [x, y] := by
  intro part hsub hlen
  match part, hsub, hlen with
  | [], _, _ => exact ⟨base, by simp⟩
  | [z], hsub, _ =>
    have hz : z ∈ [x, y] := hsub.subset mem_cons_self
    rw [prod_singleton]
    rcases mem_pair.mp hz with rfl | rfl
    · exact hx
    · exact hy

/-- A call of 100 with the ratios 2 and 3, corrected to 2 and 5/2. -/
theorem corrected_submission_order_free :
    (relayTaskSubmit (samplePrice 100 []) ordersGiven (sampleSubmission "default" "default")
        (sampleAdaptor (sampleRatios 2 3) (sampleRatios 2 (5 / 2)))).map (fun r => r.1.quota) = .ok 500 ∧
    ∀ (orders orders' : SubmitOrders) (r r' : TaskSubmitResult × RelayInfo),
      relayTaskSubmit (samplePrice 100 []) orders (sampleSubmission "default" "default")
        (sampleAdaptor (sampleRatios 2 3) (sampleRatios 2 (5 / 2))) = .ok r →
      relayTaskSubmit (samplePrice 100 []) orders' (sampleSubmission "default" "default")
        (sampleAdaptor (sampleRatios 2 3) (sampleRatios 2 (5 / 2))) = .ok r' →
        r.1.quota = r'.1.quota := by
  refine ⟨by decide +kernel, ?_⟩
  have hmodel : taskModel (sampleSubmission "default" "default")
      (sampleAdaptor (sampleRatios 2 3) (sampleRatios 2 (5 / 2))) = .ok "video-1" := by decide +kernel
  have hratios : ∀ x y : ℚ, x ≠ 1 → y ≠ 1 →
      appliedRatios (samplePrice 100 []) "video-1" [("size", x), ("quality", y)] = [x, y] := by
    intro x y hx hy
    simp [appliedRatios, shouldApplyTaskOtherRatio, hx, hy]
  have hestimated : appliedRatios (samplePrice 100 []) "video-1" (sampleRatios 2 3).positive = [2, 3] := by
    decide +kernel
  have hadjusted := hratios 2 (5 / 2) (by norm_num) (by norm_num)
  refine (submitted_quota_order_free (samplePrice 100 []) (sampleSubmission "default" "default")
    (sampleAdaptor (sampleRatios 2 3) (sampleRatios 2 (5 / 2))) "video-1"
    { PriceData.zero with
      modelPrice := 100 / 500000
      usePrice := true
      quota := 100
      groupRatioInfo := ⟨1, -1, false⟩ } (sampleSubmission "default" "default").info hmodel ?_ ?_).2.1
  · decide +kernel
  refine ⟨fun _ => ?_, fun _ _ => ?_, fun _ => ?_, ?_, fun hpatch => ?_⟩
  · show WholeBelow 100 (appliedRatios (samplePrice 100 []) "video-1" (sampleRatios 2 3).positive)
    exact wholeBelow_pair ⟨200, by norm_num⟩ ⟨300, by norm_num⟩
  · show Whole ((100 : Int) * (appliedRatios (samplePrice 100 []) "video-1" (sampleRatios 2 3).positive).prod)
    rw [hestimated]
    exact ⟨600, by norm_num⟩
  · show WholeBelow 100 (appliedRatios (samplePrice 100 []) "video-1" (sampleRatios 2 (5 / 2)).entries)
    rw [show (sampleRatios 2 (5 / 2)).entries = [("size", 2), ("quality", 5 / 2)] from rfl, hadjusted]
    exact wholeBelow_pair ⟨200, by norm_num⟩ ⟨250, by norm_num⟩
  · intro ratio hmem
    obtain ⟨entry, hentry, rfl⟩ := mem_appliedRatios hmem
    rcases mem_pair.mp hentry with rfl | rfl
    · norm_num
    · norm_num
  · cases hpatch

/-- The same ratios give 1 in one order and 2 in the other. A model billed per request is charged
    half as much again after a correction. -/
theorem submission_depends_on_order :
    ((relayTaskSubmit (samplePrice 3 []) ordersGiven (sampleSubmission "default" "default")
        (sampleAdaptor (sampleRatios (1 / 2) (3 / 2)) .empty)).map (fun r => r.1.quota) = .ok 1 ∧
      (relayTaskSubmit (samplePrice 3 []) ordersBackwards (sampleSubmission "default" "default")
        (sampleAdaptor (sampleRatios (1 / 2) (3 / 2)) .empty)).map (fun r => r.1.quota) = .ok 2) ∧
    ((relayTaskSubmit (samplePrice 100 ["video-1"]) ordersGiven (sampleSubmission "default" "default")
        (sampleAdaptor (sampleRatios 2 1) (sampleRatios 3 1))).map (fun r => r.1.quota) = .ok 150 ∧
      (relayTaskSubmit (samplePrice 100 ["video-1"]) ordersGiven (sampleSubmission "default" "default")
        (sampleAdaptor (sampleRatios 2 1) (sampleRatios 3 1)).foreseeing).map (fun r => r.1.quota) = .ok 100) := by
  decide +kernel

/-! ## Recalculation by tokens -/

/-- `TaskBillingContext`, as far as it is read here. -/
structure TaskBillingContext where
  originModelName : String
  otherRatios : List (String × ℚ)
deriving DecidableEq, Repr

/-- The columns of a task that its recalculation reads. -/
structure PricedTask where
  userId : Int
  group : String
  /-- `Properties.OriginModelName`. -/
  originModelName : String
  billingContext : Option TaskBillingContext
deriving DecidableEq, Repr

/-- The task `RelayTask` makes of a submission: `InitTask`, then the billing context. -/
def initTask (info : RelayInfo) : PricedTask where
  userId := info.userId
  group := info.usingGroup
  originModelName := info.originModelName
  billingContext := some ⟨info.originModelName, info.priceData.otherRatios⟩

def taskModelName (task : PricedTask) : String :=
  match task.billingContext with
  | some bc => if bc.originModelName ≠ "" then bc.originModelName else task.originModelName
  | none => task.originModelName

/-- What a recalculation arrives at. -/
structure TokenCharge where
  modelRatio : ℚ
  groupRatio : ℚ
  otherMultiplier : ℚ
  actualQuota : Int
deriving DecidableEq, Repr

/-- The group a finished task is priced in: its own, or that of its user. -/
def completionGroup (userGroup : Int → Option String) (task : PricedTask) : String :=
  if task.group = "" then (userGroup task.userId).getD "" else task.group

/-- `RecalculateTaskQuotaByTokens`; `none` where it returns without a charge. `userGroup` is
    `GetUserById`. The special ratio is looked up for the task's group on both sides. -/
def recalculateTaskQuotaByTokens (s : PriceSetting)
    (userGroup : Int → Option String) (task : PricedTask) (totalTokens : Int) :
    Option TokenCharge :=
  let (modelRatio, hasRatioSetting, _) := s.getModelRatio (taskModelName task)
  let group := completionGroup userGroup task
  if totalTokens ≤ 0 then none
  else if !hasRatioSetting ∨ modelRatio ≤ 0 then none
  else if group = "" then none
  else
    let finalGroupRatio := match s.getGroupGroupRatio group group with
      | some userGroupRatio => userGroupRatio
      | none => s.getGroupRatio group
    let otherMultiplier := (task.billingContext.elim [] TaskBillingContext.otherRatios).foldl
      (fun product entry => if entry.2 ≠ 1 ∧ 0 < entry.2 then product * entry.2 else product) 1
    some ⟨modelRatio, finalGroupRatio, otherMultiplier,
      intPart (totalTokens * modelRatio * finalGroupRatio * otherMultiplier)⟩

/-- The model has a ratio to recalculate with. -/
def billedByRatio (s : PriceSetting) (modelName : String) : Prop :=
  (s.getModelRatio modelName).2.1 = true ∧ 0 < (s.getModelRatio modelName).1

/-- The tables give the groups of submission and completion one ratio: a special ratio on one side
only is the normal one of the other. -/
def SameTerms (s : PriceSetting) (userGroup usingGroup group : String) : Prop :=
  match s.getGroupGroupRatio userGroup usingGroup, s.getGroupGroupRatio group group with
  | none, none => s.getGroupRatio usingGroup = s.getGroupRatio group
  | some special, none => special = s.getGroupRatio group
  | none, some special => s.getGroupRatio usingGroup = special
  | some special, some special' => special = special'

theorem sameTerms_iff {userGroup usingGroup group : String} :
    SameTerms s userGroup usingGroup group ↔
      s.ratioFor group group = s.ratioFor userGroup usingGroup := by
  unfold SameTerms PriceSetting.ratioFor
  cases s.getGroupGroupRatio userGroup usingGroup with
  | none | some special => cases s.getGroupGroupRatio group group <;> exact eq_comm

variable {userGroup : Int → Option String} {task : PricedTask}

theorem recalculate_groupRatio {totalTokens : Int} {charge : TokenCharge}
    (h : recalculateTaskQuotaByTokens s userGroup task totalTokens = some charge) :
    billedByRatio s (taskModelName task) ∧ completionGroup userGroup task ≠ "" ∧
    charge.groupRatio = s.ratioFor (completionGroup userGroup task)
    (completionGroup userGroup task) := by
  unfold recalculateTaskQuotaByTokens at h
  simp only at h
  split at h
  · cases h
  split at h
  · cases h
  split at h
  · cases h
  rename_i hratio hgroup
  cases h
  rw [not_or, Bool.not_eq_true, Bool.not_eq_false', not_le] at hratio
  refine ⟨hratio, hgroup, ?_⟩
  unfold PriceSetting.ratioFor
  cases s.getGroupGroupRatio (completionGroup userGroup task) (completionGroup userGroup task) <;> rfl

theorem recalculate_some
    (hratio : billedByRatio s (taskModelName task)) (hgroup : completionGroup userGroup task ≠ "") :
    ∃ charge, recalculateTaskQuotaByTokens s userGroup task 1 = some charge := by
  obtain ⟨hset, hpos⟩ := hratio
  have hratio : ¬ ((!(s.getModelRatio (taskModelName task)).2.1) = true ∨ (s.getModelRatio (taskModelName task)).1 ≤ 0) := by
    rw [not_or, hset]
    exact ⟨by simp, not_le.mpr hpos⟩
  unfold recalculateTaskQuotaByTokens
  simp only [if_neg hratio, if_neg hgroup]
  exact ⟨_, rfl⟩

/-- The ratio a finished task is charged with again is the ratio of its submission, for every token
    count, exactly when the tables agree on the groups the two look up. -/
theorem recalculated_ratio_iff (s : PriceSetting) (orders : SubmitOrders) (b : Submission)
    (a : TaskAdaptor)
    (userGroup : Int → Option String) (result : TaskSubmitResult) (info : RelayInfo)
    (hsubmit : relayTaskSubmit s orders b a = .ok (result, info)) :
    (∀ totalTokens charge, recalculateTaskQuotaByTokens s userGroup (initTask info) totalTokens = some charge →
      charge.groupRatio = info.priceData.groupRatioInfo.groupRatio) ↔
    (billedByRatio s (taskModelName (initTask info)) → completionGroup userGroup (initTask info) ≠ "" →
      SameTerms s b.info.userGroup (servingGroup b.context b.info)
      (completionGroup userGroup (initTask info))) := by
  have hratio : info.priceData.groupRatioInfo.groupRatio =
      s.ratioFor b.info.userGroup (servingGroup b.context b.info) := by
    obtain ⟨modelName, price, info', -, hprice, hinfo, -⟩ := relayTaskSubmit_ok hsubmit
    have hdata : info.priceData = finalPrice s orders modelName a price :=
      congrArg RelayInfo.priceData hinfo
    rw [hdata, finalPrice_groupRatioInfo]
    exact (modelPriceHelperPerCall_ok hprice).2.1
  rw [hratio]
  constructor
  · intro h hbilled hgroup
    obtain ⟨charge, hcharge⟩ := recalculate_some hbilled hgroup
    rw [sameTerms_iff, ← h 1 charge hcharge]
    exact (recalculate_groupRatio hcharge).2.2.symm
  intro h totalTokens charge hcharge
  obtain ⟨hbilled, hgroup, hgroupRatio⟩ := recalculate_groupRatio hcharge
  rw [hgroupRatio]
  exact sameTerms_iff.mp (h hbilled hgroup)

/-- Settings with a ratio for every model, and a special ratio of one group for another. -/
def specialRatioSetting (userGroup usingGroup : String) (special : ℚ) : PriceSetting :=
  { PriceSetting.unset with
    modelRatioMap := fun _ => some 2
    groupGroupRatioMap := fun user =>
      if user = userGroup then some (fun using_ => if using_ = usingGroup then some special else none) else none }

/-- The relay info after a submission in the group `default`. -/
def submittedInfo (userGroup : String) (ratio : GroupRatioInfo) (quota : Int) : RelayInfo :=
  { (sampleSubmission userGroup "default").info with
    priceData := { PriceData.zero with modelPrice := -1, modelRatio := 2, quota := quota, groupRatioInfo := ratio } }

/-- A user of the group the task runs in, which has a special ratio for itself. -/
theorem own_group_keeps_ratio :
    recalculateTaskQuotaByTokens (specialRatioSetting "default" "default" (1 / 2)) (fun _ => none)
      (initTask (submittedInfo "default" ⟨1 / 2, 1 / 2, true⟩ 250000)) 1000 = some ⟨2, 1 / 2, 1, 1000⟩ ∧
    ∀ totalTokens charge, recalculateTaskQuotaByTokens (specialRatioSetting "default" "default" (1 / 2))
      (fun _ => none) (initTask (submittedInfo "default" ⟨1 / 2, 1 / 2, true⟩ 250000)) totalTokens = some charge →
      charge.groupRatio = 1 / 2 := by
  have hsubmit : relayTaskSubmit (specialRatioSetting "default" "default" (1 / 2)) ordersGiven
      (sampleSubmission "default" "default") (sampleAdaptor .empty .empty) =
      .ok (⟨"up-1", "", "55", 250000⟩, submittedInfo "default" ⟨1 / 2, 1 / 2, true⟩ 250000) := by decide +kernel
  refine ⟨by decide +kernel, ?_⟩
  refine (recalculated_ratio_iff _ _ _ _ (fun _ => none) _ _ hsubmit).mpr ?_
  intro _ _
  show SameTerms (specialRatioSetting "default" "default" (1 / 2)) "default" "default" "default"
  rw [sameTerms_iff]

/-- A special ratio of another group: the submission has it, the recalculation looks it up for the
    task's group alone. -/
theorem special_ratio_lost_on_recalculation :
    relayTaskSubmit (specialRatioSetting "vip" "default" (1 / 2)) ordersGiven (sampleSubmission "vip" "default")
      (sampleAdaptor .empty .empty) =
      .ok (⟨"up-1", "", "55", 250000⟩, submittedInfo "vip" ⟨1 / 2, 1 / 2, true⟩ 250000) ∧
    recalculateTaskQuotaByTokens (specialRatioSetting "vip" "default" (1 / 2)) (fun _ => some "vip")
      (initTask (submittedInfo "vip" ⟨1 / 2, 1 / 2, true⟩ 250000)) 1000 = some ⟨2, 1, 1, 2000⟩ := by
  decide +kernel

end NewApi.Relay
