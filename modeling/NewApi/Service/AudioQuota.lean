import NewApi.Service.TextQuota

/-!
# Settling audio and realtime requests (`service/quota.go`)

Requests with audio tokens and realtime sessions are settled by a formula of their own, without tool
surcharges or other ratios. A price is truncated, a ratio amount is rounded and is at least one unit
when it is not positive. Unlike the settlement of text, a report without tokens settles 0 whatever
the frozen expression says.
-/

namespace NewApi.Relay

open NewApi.Decimal

structure TokenDetails where
  textTokens : Int
  audioTokens : Int
deriving DecidableEq, Repr

structure QuotaInfo where
  inputDetails : TokenDetails
  outputDetails : TokenDetails
  modelName : String
  usePrice : Bool
  modelPrice : ℚ
  modelRatio : ℚ
  groupRatio : ℚ
deriving DecidableEq, Repr

/-- The amount of `calculateAudioQuota` before rounding. -/
def audioCost (s : PriceSetting) (q : QuotaInfo) : ℚ :=
  if q.usePrice then q.modelPrice * s.quotaPerUnit * q.groupRatio
  else
    let audioRatio := s.getAudioRatio q.modelName
    (q.inputDetails.textTokens + q.outputDetails.textTokens * s.getCompletionRatio q.modelName +
      q.inputDetails.audioTokens * audioRatio +
      q.outputDetails.audioTokens * audioRatio * s.getAudioCompletionRatio q.modelName) *
      (q.groupRatio * q.modelRatio)

def calculateAudioQuota (s : PriceSetting) (q : QuotaInfo) : Int :=
  if q.usePrice then intPart (audioCost s q)
  else if q.groupRatio * q.modelRatio ≠ 0 ∧ audioCost s q ≤ 0 then 1
  else Decimal.round (audioCost s q)

theorem audioCost_eq (s : PriceSetting) (q : QuotaInfo) :
    audioCost s q = audioCost s { q with groupRatio := 1 } * q.groupRatio := by
  unfold audioCost
  split
  · ring
  · ring

structure RealtimeUsage where
  totalTokens : Int
  inputTokens : Int
  outputTokens : Int
  inputTokenDetails : TokenDetails
  outputTokenDetails : TokenDetails
deriving DecidableEq, Repr

/-- What the two settlements have in common: the frozen expression comes first, and no tokens settle
0. -/
def audioConsumption (totalTokens : Int) (tiered : Option (Int × Option TieredResult))
    (formula : Int) : Consumption :=
  let quota := (tiered.map Prod.fst).getD formula
  if totalTokens = 0 then ⟨0, 0, some 0⟩ else ⟨quota, quota, some quota⟩

def audioQuotaInfo (info : RelayInfo) (usage : Usage) : QuotaInfo where
  inputDetails := ⟨usage.promptTokensDetails.textTokens, usage.promptTokensDetails.audioTokens⟩
  outputDetails := ⟨usage.completionTokenDetails.textTokens, usage.completionTokenDetails.audioTokens⟩
  modelName := info.originModelName
  usePrice := info.priceData.usePrice
  modelPrice := info.priceData.modelPrice
  modelRatio := info.priceData.modelRatio
  groupRatio := info.priceData.groupRatioInfo.groupRatio

def postAudioConsumeQuota (s : PriceSetting) (info : RelayInfo) (usage : Usage) : Consumption :=
  audioConsumption usage.totalTokens (tryTieredSettle s info (buildTieredTokenParams usage false (snapshotVars s info)))
    (calculateAudioQuota s (audioQuotaInfo info usage))

def realtimeQuotaInfo (info : RelayInfo) (modelName : String) (usage : RealtimeUsage) :
    QuotaInfo where
  inputDetails := usage.inputTokenDetails
  outputDetails := usage.outputTokenDetails
  modelName := modelName
  usePrice := info.priceData.usePrice
  modelPrice := info.priceData.modelPrice
  modelRatio := info.priceData.modelRatio
  groupRatio := info.priceData.groupRatioInfo.groupRatio

/-- The token parameters of a realtime session: its totals. -/
def realtimeTokenParams (usage : RealtimeUsage) : TokenParams :=
  ⟨usage.inputTokens, usage.outputTokens, usage.inputTokens, 0, 0, 0, 0, 0, 0, 0⟩

/-- `PostWssConsumeQuota`; `modelName` is the upstream model. -/
def postWssConsumeQuota (s : PriceSetting) (info : RelayInfo) (modelName : String)
    (usage : RealtimeUsage) : Consumption :=
  audioConsumption usage.totalTokens (tryTieredSettle s info (realtimeTokenParams usage))
    (calculateAudioQuota s (realtimeQuotaInfo info modelName usage))

end NewApi.Relay
