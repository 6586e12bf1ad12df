import NewApi.Model.SubscriptionPeriods
import NewApi.Service.TaskEndings
import NewApi.Service.TaskDues
import NewApi.Service.TaskCounters
import NewApi.Service.ImageAdmission
import NewApi.Model.TopUpManual
import NewApi.Model.SubscriptionGroup
import NewApi.Model.TokenQuota
import NewApi.Service.PreConsumeRace
import NewApi.Model.BatchUpdate
import NewApi.Model.ChannelSelection
import NewApi.Service.ClaudeStreamWellFormed
import NewApi.Service.ClaudeStreamLossless
import NewApi.Pricing.RequestRulesRoundTrip
import NewApi.Model.MultiKeyEdit
import NewApi.Model.MultiKeyStatus
import NewApi.Model.UserEdits
import NewApi.Model.EpayOrder
import NewApi.Model.Redemption
import NewApi.Model.UserCache
import NewApi.Model.UserQuotaCache
import NewApi.Service.MidjourneyRefunds
import NewApi.Service.MidjourneyRound
import NewApi.Service.ModelPublicName
import NewApi.Relay.ImageQuota
import NewApi.Relay.AttemptContext
import NewApi.Middleware.ModelLimit
import NewApi.Relay.Remix
import NewApi.Middleware.RequestLimit
import NewApi.Relay.Realtime
import NewApi.Relay.RetryLoop
import NewApi.Relay.ClaudeRelay
import NewApi.Relay.OpenaiStream
import NewApi.Model.TwoFA
import NewApi.Relay.StreamRetry
import NewApi.Model.SubscriptionReset
import NewApi.Service.MonitorLease
import NewApi.Service.TokenEstimator
import NewApi.Service.SundaySearch
