import NewApi.Relay.TaskSubmit
import NewApi.Middleware.ModelLimit

/-!
# The ratios of a remix (`controller/relay.go`, `relay/relay_task.go`)

A remix is made from an earlier task of the user and is to take over the ratios that task was billed
with. `ResolveOriginTask` puts them into the price data before the first attempt, once it has
compared the task's channel with that of the relay info. `RelayTask` calls it before there is any
channel data, so that the comparison panics.

Each attempt of `RelayTaskSubmit` sets the price data to that of one call and merges the adaptor's
estimate in.

* `relayRemix` — a remix from its origin task to the prices of its attempts.
-/

namespace NewApi.Relay

open NewApi.Channels NewApi.Decimal

/-! ## The ratios of the origin task -/

/-- The number after the sign, if it has digits and nothing else. -/
def decimalDigits (digits : List Char) : Option Nat :=
  if digits ≠ [] ∧ digits.all Char.isDigit = true then
    some (digits.foldl (fun n c => 10 * n + (c.toNat - '0'.toNat)) 0)
  else none

/-- The bounds of an `int`. -/
def maxInt : Int := 9223372036854775807

def minInt : Int := -9223372036854775808

/-- The value of `strconv.Atoi`, the error left aside: 0 for what is no number, the nearest bound
    for a number out of range. -/
def atoi (text : String) : Int :=
  match text.toList with
  | '-' :: digits => ((decimalDigits digits).map fun n => max minInt (-(n : Int))).getD 0
  | '+' :: digits => ((decimalDigits digits).map fun n => min maxInt (n : Int)).getD 0
  | digits => ((decimalDigits digits).map fun n => min maxInt (n : Int)).getD 0

/-- What the price of a remix reads of the task it is made from. -/
structure RemixOrigin where
  /-- `PrivateData.BillingContext.OtherRatios`; `none` without a billing context. -/
  billingContext : Option RatioMap
  /-- The texts under `seconds` and `size` in the task data, empty where there is none. -/
  seconds : String
  size : String

/-- The duration of a task from before billing contexts. -/
def RemixOrigin.legacySeconds (origin : RemixOrigin) : ℚ :=
  if atoi origin.seconds ≤ 0 then 4 else atoi origin.seconds

/-- The size ratio of such a task. -/
def RemixOrigin.legacySize (origin : RemixOrigin) : ℚ :=
  if origin.size = "1792x1024" ∨ origin.size = "1024x1792" then 1666667 / 1000000 else 1

/-- The last part of `ResolveOriginTask`. -/
def presetRatios (origin : RemixOrigin) (price : PriceData) : PriceData :=
  match origin.billingContext with
  | some ratios => ratios.entries.foldl (fun price entry => price.addOtherRatio entry.1 entry.2) price
  | none =>
    { price with
      otherRatios := setKey "size" origin.legacySize (setKey "seconds" origin.legacySeconds price.otherRatios) }

/-- The ratios recorded on the origin task. -/
def RemixOrigin.recorded (origin : RemixOrigin) : List (String × ℚ) :=
  match origin.billingContext with
  | some ratios => ratios.entries
  | none => [("seconds", origin.legacySeconds), ("size", origin.legacySize)]

/-! ## The attempts -/

/-- One attempt at the remix: the channel that was selected, its adaptor, and the orders of its
loops. -/
structure RemixAttempt where
  context : Context
  modelMapping : Option (List (String × String))
  preConsumeBilling : Int → Option TaskError
  orders : SubmitOrders
  adaptor : TaskAdaptor

/-- The submission of an attempt that starts from `info`. -/
def RemixAttempt.submission (t : RemixAttempt) (info : RelayInfo) (billed : Bool) : Submission :=
  ⟨info, t.context, t.modelMapping, billed, t.preConsumeBilling⟩

/-- The relay info once the name is settled, which stays if the attempt fails later. -/
def RemixAttempt.namedInfo (t : RemixAttempt) (info : RelayInfo) : RelayInfo :=
  match t.adaptor.known, t.adaptor.validate, t.adaptor.sensitivePrompt with
  | true, .ok action, none =>
    { info with originModelName := (t.submission info false).modelName t.adaptor.platform action }
  | _, _, _ => info

/-- What an attempt is charged by, with the name it is priced under, and the relay info it
leaves. -/
def attemptPrice (s : PriceSetting) (t : RemixAttempt) (info : RelayInfo) :
    Option (String × PriceData) × RelayInfo :=
  match taskModel (t.submission info false) t.adaptor with
  | .error _ => (none, t.namedInfo info)
  | .ok modelName =>
    match taskPrice s t.orders.apply (t.submission info false) modelName t.adaptor.estimateBilling with
    | .error _ => (none, (handleGroupRatio s t.context (t.namedInfo info)).2)
    | .ok (price, info) => (some (modelName, price), { info with priceData := price })

/-- The attempts at one remix, each from the relay info the one before it has left. -/
def attemptPrices (s : PriceSetting) : RelayInfo → List RemixAttempt →
      List (Option (String × PriceData))
  | _, [] => []
  | info, t :: rest => (attemptPrice s t info).1 :: attemptPrices s (attemptPrice s t info).2 rest

/-- The stored tasks and channels, with what is billed by. -/
structure RemixServices extends Middleware.TaskServices where
  /-- The billing data of the task `GetByTaskIdForFetch` finds. -/
  origin : String → RemixOrigin

/-- How `RelayTask` ends a remix. -/
inductive RemixEnd where
  | refused (code : String) (statusCode : Nat)
  | panicked
  /-- The price of each attempt that gets as far, with the name it is priced under. -/
  | attempted (prices : List (Option (String × PriceData)))
deriving DecidableEq

/-- `RelayTask` on a remix. `channelId` is that of the relay info's channel data. -/
def relayRemix (s : PriceSetting) (t : RemixServices) (channelId : Option Int)
    (path videoId : String) (info : RelayInfo) (attempts : List RemixAttempt) : RemixEnd :=
  match Middleware.resolveOriginTask t.toTaskServices path videoId info.originModelName channelId with
  | .taskError code statusCode => .refused code statusCode
  | .panicked => .panicked
  | .goOn originModelName _ =>
    .attempted (attemptPrices s { info with
      originModelName := originModelName
      priceData := presetRatios (t.origin videoId) info.priceData } attempts)

section Attempts

variable {s : PriceSetting} {t : RemixAttempt} {info : RelayInfo} {modelName : String} {price : PriceData}

section

variable (h : (attemptPrice s t info).1 = some (modelName, price))

include h

theorem attemptPrice_some :
    ∃ info', taskModel (t.submission info false) t.adaptor = .ok modelName ∧
      taskPrice s t.orders.apply (t.submission info false) modelName t.adaptor.estimateBilling =
        .ok (price, info') := by
  unfold attemptPrice at h
  split at h
  · cases h
  rename_i name hname
  split at h
  · cases h
  rename_i price' info' hprice
  cases h
  exact ⟨info', hname, hprice⟩

theorem attemptPrice_otherRatios : price.otherRatios = t.adaptor.estimateBilling.positive := by
  obtain ⟨info', -, hprice⟩ := attemptPrice_some h
  cases hcall : modelPriceHelperPerCall s (t.submission info false).context
      { (t.submission info false).info with originModelName := modelName } with
  | error err =>
    unfold taskPrice at hprice
    rw [hcall] at hprice
    cases hprice
  | ok p =>
    rw [taskPrice_eq hcall] at hprice
    cases hprice
    rw [applyOtherRatios_otherRatios]

end

theorem attemptPrices_get {attempts : List RemixAttempt} {k : Nat} (ht : attempts[k]? = some t)
    (h : (attemptPrices s info attempts)[k]? = some (some (modelName, price))) :
    ∃ info', (attemptPrice s t info').1 = some (modelName, price) := by
  induction attempts generalizing info k with
  | nil => cases ht
  | cons head rest ih =>
    cases k with
    | zero =>
      cases ht
      exact ⟨info, Option.some.inj h⟩
    | succ k => exact ih ht h

end Attempts

/-! ## The merge -/

/-- A ratio the quota is multiplied by if the price data has it. -/
def Counts (s : PriceSetting) (modelName : String) (entry : String × ℚ) : Prop :=
  modelName ∉ s.taskPricePatches ∧ entry.2 ≠ 1 ∧ shouldApplyTaskOtherRatio s modelName entry.1 = true

/-- The estimate has a ratio for `key` that takes effect. -/
def RatioMap.Replaces (m : RatioMap) (key : String) : Prop := ∃ ratio, (key, ratio) ∈ m.positive

/-- Every attempt that has a price applies each recorded ratio that counts and that its estimate
does not replace. -/
def RatiosApplied (s : PriceSetting) (origin : RemixOrigin) (attempts : List RemixAttempt)
    (prices : List (Option (String × PriceData))) : Prop :=
  ∀ (k : Nat) (t : RemixAttempt) (modelName : String) (price : PriceData), attempts[k]? = some t →
    prices[k]? = some (some (modelName, price)) →
    ∀ entry ∈ origin.recorded, Counts s modelName entry → ¬ t.adaptor.estimateBilling.Replaces entry.1 →
      entry ∈ price.otherRatios

/-- The estimates have every recorded ratio that counts. -/
def RatiosReplaced (s : PriceSetting) (origin : RemixOrigin) (attempts : List RemixAttempt)
    (prices : List (Option (String × PriceData))) : Prop :=
  ∀ (k : Nat) (t : RemixAttempt) (modelName : String) (price : PriceData), attempts[k]? = some t →
    prices[k]? = some (some (modelName, price)) →
    ∀ entry ∈ origin.recorded, Counts s modelName entry → t.adaptor.estimateBilling.Replaces entry.1

theorem ratiosApplied_iff (s : PriceSetting) (origin : RemixOrigin) (info : RelayInfo)
    (attempts : List RemixAttempt) :
    RatiosApplied s origin attempts (attemptPrices s info attempts) ↔
      RatiosReplaced s origin attempts (attemptPrices s info attempts) := by
  constructor
  · intro happlied k t modelName price ht hprice entry hmem hcounts
    obtain ⟨info', hattempt⟩ := attemptPrices_get ht hprice
    by_contra hkept
    have hentry := happlied k t modelName price ht hprice entry hmem hcounts hkept
    rw [attemptPrice_otherRatios hattempt] at hentry
    exact hkept ⟨entry.2, hentry⟩
  · intro hreplaced k t modelName price ht hprice entry hmem hcounts hkept
    exact (hkept (hreplaced k t modelName price ht hprice entry hmem hcounts)).elim

/-- `RelayTask`, which has no channel data for `ResolveOriginTask`, never comes to price a remix.
With channel data the recorded ratios would be lost all the same: an attempt would apply them only
where its estimate replaces them all. -/
theorem remix_ratios_never_applied (s : PriceSetting) (t : RemixServices) (path videoId : String)
    (info : RelayInfo) (attempts : List RemixAttempt)
    (hremix : Middleware.isRemixPath path = true) :
    (∀ prices, relayRemix s t none path videoId info attempts ≠ .attempted prices) ∧
    ∀ channelId prices, relayRemix s t (some channelId) path videoId info attempts = .attempted prices →
      (RatiosApplied s (t.origin videoId) attempts prices ↔ RatiosReplaced s (t.origin videoId) attempts prices) := by
  constructor
  · intro prices h
    unfold relayRemix at h
    split at h
    · cases h
    · cases h
    · rename_i hresolved
      exact Middleware.resolveOriginTask_of_remix hremix _ _ hresolved
  · intro channelId prices h
    unfold relayRemix at h
    split at h
    · cases h
    · cases h
    · cases h
      exact ratiosApplied_iff s _ _ attempts

/-- One task, of eight seconds in the large size, and its enabled channel 7. -/
def sampleServices : RemixServices where
  originTask := fun id => .ok (if id = "task_1" then some ⟨7, "video-1", "", ""⟩ else none)
  channel := fun id => if id = 7 then some (⟨55, some []⟩, true) else none
  hasEnabledKey := fun _ => true
  origin := fun _ => ⟨none, "8", "1792x1024"⟩

def sampleRemixAttempt (estimated : RatioMap) : RemixAttempt where
  context := ⟨none, 0, false, "", ""⟩
  modelMapping := some []
  preConsumeBilling := fun _ => none
  orders := ordersGiven
  adaptor := sampleAdaptor estimated .empty

/-- A remix of the task at a call of 1000, with one retry. -/
def sampleRemix (channelId : Option Int) (estimated : RatioMap) : RemixEnd :=
  relayRemix (samplePrice 1000 []) sampleServices channelId "/v1/videos/task_1/remix" "task_1"
    (sampleSubmission "default" "default").info [sampleRemixAttempt estimated, sampleRemixAttempt estimated]

theorem seconds_size_nodup : (["seconds", "size"] : List String).Nodup := by
  simp

def sampleEstimate (seconds size : ℚ) : RatioMap := ⟨[("seconds", seconds), ("size", size)], seconds_size_nodup⟩

/-- The remix is never priced. With channel data, an adaptor that estimates both ratios anew would
have them applied. -/
theorem sample_remix_not_priced : Middleware.isRemixPath "/v1/videos/task_1/remix" = true ∧
    (∀ prices, sampleRemix none (sampleEstimate 8 (5 / 3)) ≠ .attempted prices) ∧
    ∃ prices, sampleRemix (some 7) (sampleEstimate 8 (5 / 3)) = .attempted prices ∧
      RatiosApplied (samplePrice 1000 []) (sampleServices.origin "task_1")
        [sampleRemixAttempt (sampleEstimate 8 (5 / 3)), sampleRemixAttempt (sampleEstimate 8 (5 / 3))] prices := by
  have hremix : Middleware.isRemixPath "/v1/videos/task_1/remix" = true := by decide +kernel
  refine ⟨hremix, (remix_ratios_never_applied _ _ _ _ _ _ hremix).1, _, rfl, ?_⟩
  refine ((remix_ratios_never_applied _ sampleServices _ "task_1" _ _ hremix).2 7 _ rfl).mpr ?_
  intro k t modelName price ht _ entry hmem _
  have hattempt : t = sampleRemixAttempt (sampleEstimate 8 (5 / 3)) := by
    have := List.mem_of_getElem? ht
    simpa using this
  have hrecorded : (sampleServices.origin "task_1").recorded = [("seconds", 8), ("size", 1666667 / 1000000)] := by
    decide +kernel
  rw [hrecorded, List.mem_pair] at hmem
  subst hattempt
  rcases hmem with rfl | rfl
  · exact ⟨8, by decide +kernel⟩
  · exact ⟨5 / 3, by decide +kernel⟩

/-- The remix panics. With channel data, and an adaptor that estimates nothing, it would be charged
1000 on both attempts, where the recorded ratios make 13333. -/
theorem remix_charged_without_ratios : sampleRemix none .empty = .panicked ∧
    (∃ prices, sampleRemix (some 7) .empty = .attempted prices ∧
      prices.map (fun p => p.map fun p => (p.1, p.2.otherRatios, p.2.quota)) =
        [some ("video-1", [], 1000), some ("video-1", [], 1000)]) ∧
    (applyOtherRatios (samplePrice 1000 []) .given "video-1"
      (presetRatios (sampleServices.origin "task_1") { PriceData.zero with quota := 1000 })).quota = 13333 :=
  ⟨by decide +kernel, ⟨_, rfl, by decide +kernel⟩, by decide +kernel⟩

end NewApi.Relay
