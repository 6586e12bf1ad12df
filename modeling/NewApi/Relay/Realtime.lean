import NewApi.Service.AudioQuota
import NewApi.Service.TaskLife

/-!
# Realtime sessions (`relay/channel/openai/relay_realtime.go`, `service/quota.go`)

* `handle`, `openaiRealtimeHandler` — the three accumulators of a session, event by event, and the
  flush at its end.
-/

namespace NewApi.Realtime

open NewApi.Relay NewApi.Billing NewApi.Subscription List

/-! ## The handler -/

/-- The counters of `dto.RealtimeUsage`. -/
inductive Counter where
  | totalTokens | inputTokens | outputTokens | cachedTokens | inputText | inputAudio | outputText | outputAudio
  deriving DecidableEq

/-- A usage; `+=` on each of its counters is addition. -/
abbrev Tally := Counter → Int

def countInput (text audio : Nat) : Tally
  | .totalTokens | .inputTokens => text + audio
  | .inputText => text
  | .inputAudio => audio
  | _ => 0

def countOutput (text audio : Nat) : Tally
  | .totalTokens | .outputTokens => text + audio
  | .outputText => text
  | .outputAudio => audio
  | _ => 0

/-- An event that a reader handles, with the tokens `CountTokenRealtime` finds in it; `charged` says
whether `PreWssConsumeQuota` succeeds. -/
inductive Event where
  | client (text audio : Nat)
  | responseDone (usage : Option Tally) (text audio : Nat) (charged : Bool)
  /-- `session.updated` and `session.created`. -/
  | session
  | other (text audio : Nat)

structure Session where
  usage : Tally
  localUsage : Tally
  sumUsage : Tally
  /-- The usages that went to `PreWssConsumeQuota`. -/
  turns : List Tally
  /-- A reader has reported an error. -/
  failed : Bool

def Session.start : Session := ⟨0, 0, 0, [], false⟩

def preConsumeUsage (s : Session) (usage : Tally) : Session :=
  { s with sumUsage := s.sumUsage + usage, turns := s.turns ++ [usage] }

/-- One event; nothing is handled after an error. -/
def handle (s : Session) (e : Event) : Session :=
  if s.failed then s
  else
    match e with
    | .client text audio => { s with localUsage := s.localUsage + countInput text audio }
    | .responseDone (some reported) _ _ charged =>
      let s := { s with usage := s.usage + reported }
      let s := preConsumeUsage s s.usage
      if charged then { s with usage := 0, localUsage := 0 } else { s with failed := true }
    | .responseDone none text audio charged =>
      let s := { s with localUsage := s.localUsage + countInput text audio }
      let s := preConsumeUsage s s.localUsage
      if charged then { s with localUsage := 0 } else { s with failed := true }
    | .session => s
    | .other text audio => { s with localUsage := s.localUsage + countOutput text audio }

/-- The end of the handler: what is left is counted, whether or not it can be charged. -/
def finish (s : Session) : Session :=
  let s := if s.usage .totalTokens ≠ 0 then preConsumeUsage s s.usage else s
  if s.localUsage .totalTokens ≠ 0 then preConsumeUsage s s.localUsage else s

def openaiRealtimeHandler (events : List Event) : Session := finish (events.foldl handle .start)

/-! ## What is counted -/

/-- What a session should count: each reported usage, the local tokens of each turn without one, and
those since the last `response.done`. -/
def due (tokens : Tally) : List Event → Tally
  | [] => tokens
  | .client text audio :: es => due (tokens + countInput text audio) es
  | .responseDone (some reported) _ _ charged :: es => reported + if charged then due 0 es else 0
  | .responseDone none text audio charged :: es =>
    tokens + countInput text audio + if charged then due 0 es else 0
  | .session :: es => due tokens es
  | .other text audio :: es => due (tokens + countOutput text audio) es

/-- Where charging fails at a `response.done`: its reported usage, unless that has no total, and the
local tokens of its turn. -/
def leftOver (tokens : Tally) : List Event → Tally
  | [] => 0
  | .client text audio :: es => leftOver (tokens + countInput text audio) es
  | .responseDone (some reported) _ _ charged :: es =>
    if charged then leftOver 0 es else (if reported .totalTokens ≠ 0 then reported else 0) + tokens
  | .responseDone none text audio charged :: es =>
    if charged then leftOver 0 es else tokens + countInput text audio
  | .session :: es => leftOver tokens es
  | .other text audio :: es => leftOver (tokens + countOutput text audio) es

/-- Local tokens are counted in the total too. -/
def Local (tokens : Tally) : Prop := ∀ c, 0 ≤ tokens c ∧ tokens c ≤ tokens .totalTokens

theorem Local.zero : Local 0 := fun _ => ⟨le_refl _, le_refl _⟩

theorem Local.add {a b : Tally} (ha : Local a) (hb : Local b) : Local (a + b) := by
  intro c
  have hac := ha c
  have hbc := hb c
  simp only [Pi.add_apply]
  omega

theorem Local.input (text audio : Nat) : Local (countInput text audio) := by
  intro c
  cases c <;> simp only [countInput] <;> omega

theorem Local.output (text audio : Nat) : Local (countOutput text audio) := by
  intro c
  cases c <;> simp only [countOutput] <;> omega

theorem Local.eq_zero {a : Tally} (h : Local a) (htotal : a .totalTokens = 0) : a = 0 := by
  funext c
  have hc := h c
  simp only [Pi.zero_apply]
  omega

theorem sumUsage_finish {s : Session} (h : Local s.localUsage) :
    (finish s).sumUsage = s.sumUsage + (if s.usage .totalTokens ≠ 0 then s.usage else 0) + s.localUsage := by
  have hlocal : ∀ s' : Session, s'.localUsage = s.localUsage →
      (if s'.localUsage .totalTokens ≠ 0 then preConsumeUsage s' s'.localUsage else s').sumUsage =
        s'.sumUsage + s.localUsage := by
    intro s' hs'
    rw [hs']
    split
    · rfl
    · rename_i hzero
      rw [h.eq_zero (not_not.mp hzero), add_zero]
  unfold finish
  split
  · exact hlocal (preConsumeUsage s s.usage) rfl
  · rw [add_zero]
    exact hlocal s rfl

theorem foldl_handle_failed {s : Session} (h : s.failed = true) (events : List Event) :
    events.foldl handle s = s := by
  induction events with
  | nil => rfl
  | cons e es ih =>
    have hsame : handle s e = s := if_pos h
    rwa [foldl_cons, hsame]

/-- By induction on the events, with any tokens of the current turn: the sum gets what is due and
what is left over. -/
theorem sumUsage_eq (events : List Event) :
    ∀ {tokens sum : Tally} {turns : List Tally}, Local tokens →
    (finish (events.foldl handle ⟨0, tokens, sum, turns, false⟩)).sumUsage =
      sum + (due tokens events + leftOver tokens events) := by
  induction events with
  | nil =>
    intro tokens sum turns htokens
    refine (sumUsage_finish htokens).trans ?_
    simp [due, leftOver]
  | cons e es ih =>
    intro tokens sum turns htokens
    cases e with
    | client text audio => exact ih (htokens.add (.input text audio))
    | session => exact ih htokens
    | other text audio => exact ih (htokens.add (.output text audio))
    | responseDone reported text audio charged =>
      have hturn := htokens.add (.input text audio)
      cases reported with
      | some reported =>
        cases charged with
        | true =>
          refine (ih .zero).trans ?_
          simp only [due, leftOver, preConsumeUsage, zero_add, if_true]
          abel
        | false =>
          show (finish (es.foldl handle ⟨0 + reported, tokens, _, _, true⟩)).sumUsage = _
          rw [foldl_handle_failed rfl, sumUsage_finish htokens]
          simp only [due, leftOver, preConsumeUsage, zero_add, Bool.false_eq_true, if_false]
          abel
      | none =>
        cases charged with
        | true =>
          refine (ih .zero).trans ?_
          simp only [due, leftOver, preConsumeUsage, if_true]
          abel
        | false =>
          show (finish (es.foldl handle ⟨0, tokens + countInput text audio, _, _, true⟩)).sumUsage = _
          rw [foldl_handle_failed rfl, sumUsage_finish hturn]
          simp only [due, leftOver, preConsumeUsage, Pi.zero_apply, ne_eq, not_true_eq_false,
            Bool.false_eq_true, if_false]
          abel

/-- **The returned usage** is exact if and only if nothing is left over where charging fails. -/
theorem returned_usage_exact_iff (events : List Event) :
    (openaiRealtimeHandler events).sumUsage = due 0 events ↔ leftOver 0 events = 0 := by
  rw [openaiRealtimeHandler, Session.start, sumUsage_eq events .zero, zero_add, add_eq_left]

/-- A turn with a reported usage of 10 and 3 local tokens: it cannot be charged, and the session
counts 23. -/
theorem failed_turn_counted_twice :
    let events := [.client 3 0, .responseDone (some (countOutput 10 0)) 0 0 false]
    (openaiRealtimeHandler events).sumUsage .totalTokens = 23 ∧ due 0 events .totalTokens = 10 := by
  decide

/-! ## What is charged -/

/-- A usage that is charged, and what `PreWssConsumeQuota` reads. -/
structure Turn where
  usage : Tally
  setting : PriceSetting
  context : Context
  /-- `token.UnlimitedQuota`. -/
  tokenUnlimited : Bool
  env : Env

/-- The quota of a turn; nothing ever sets `relayInfo.UsePrice`. -/
def Turn.quota (price : Relay.RelayInfo) (t : Turn) : Int :=
  calculateAudioQuota t.setting
    { inputDetails := ⟨t.usage .inputText, t.usage .inputAudio⟩
      outputDetails := ⟨t.usage .outputText, t.usage .outputAudio⟩
      modelName := price.originModelName
      usePrice := false
      modelPrice := 0
      modelRatio := (t.setting.getModelRatio price.originModelName).1
      groupRatio := t.setting.ratioFor price.userGroup (servingGroup t.context price) }

def preWssConsumeQuota (price : Relay.RelayInfo) (info : Billing.RelayInfo) (l : Ledger)
    (t : Turn) : Ledger × Except String Unit :=
  match t.env.userRead, t.env.tokenRead with
  | .error err, _ => (l, .error err)
  | .ok _, .error err => (l, .error err)
  | .ok userQuota, .ok remainQuota =>
    let quota := t.quota price
    let need := ", need quota: " ++ t.env.formatQuota quota
    if userQuota < quota then
      (l, .error ("user quota is not enough, user quota: " ++ t.env.formatQuota userQuota ++ need))
    else if !t.tokenUnlimited ∧ remainQuota < quota then
      (l, .error ("token quota is not enough, token remain quota: " ++ t.env.formatQuota remainQuota ++ need))
    else postConsumeQuota t.env l info quota

def chargeTurns (price : Relay.RelayInfo) (info : Billing.RelayInfo) (l : Ledger) :
    List Turn → Ledger × Except String Unit
  | [] => (l, .ok ())
  | t :: ts =>
    match preWssConsumeQuota price info l t with
    | (l, .error err) => (l, .error err)
    | (l, .ok ()) => chargeTurns price info l ts

/-- What a session meets; `modelName` is the upstream model. -/
structure Surroundings where
  cal : Calendar
  opening : Env
  turn : Nat → Turn
  settling : Env
  setting : PriceSetting
  modelName : String

def Surroundings.turns (x : Surroundings) (events : List Event) : List Turn :=
  (openaiRealtimeHandler events).turns.mapIdx fun i usage => { x.turn i with usage }

def Tally.toUsage (u : Tally) : RealtimeUsage :=
  ⟨u .totalTokens, u .inputTokens, u .outputTokens, ⟨u .inputText, u .inputAudio⟩, ⟨u .outputText, u .outputAudio⟩⟩

/-- A session on the wallet in which all checks and writes succeed, with the quota that it
settles. -/
def walletSession (x : Surroundings) (price : Relay.RelayInfo) (info : Billing.RelayInfo)
    (pre : Nat) (events : List Event) (l : Ledger) : Option (Ledger × Int) :=
  match (newSession info pre .wallet).preConsume x.cal x.opening l pre with
  | (_, .error _) => none
  | (l, .ok s) =>
    match chargeTurns price s.relayInfo l (x.turns events) with
    | (_, .error _) => none
    | (l, .ok ()) =>
      match (postWssConsumeQuota x.setting price x.modelName (openaiRealtimeHandler events).sumUsage.toUsage).settled with
      | none => none
      | some quota =>
        match settleBilling x.settling l s.relayInfo (some s) quota with
        | (_, _, .error _) => none
        | (l, _, .ok ()) => some (l, quota)

section Wallet

variable {e : Env} {l l' : Ledger} {info : Billing.RelayInfo} {price : Relay.RelayInfo} {quota : Int}

theorem Turn.quota_nonneg (t : Turn) : 0 ≤ t.quota price := by
  show 0 ≤ if _ then (1 : Int) else Decimal.round _
  split
  · exact zero_le_one
  rename_i h
  rw [not_and_or, not_not, not_le] at h
  rcases h with hratio | hcost
  · exact Decimal.round_nonneg (mul_eq_zero_of_right _ hratio).ge
  · exact Decimal.round_nonneg hcost.le

theorem sum_quota_eq_zero_iff {turns : List Turn} :
    (turns.map (Turn.quota price)).sum = 0 ↔ ∀ t ∈ turns, t.quota price = 0 := by
  induction turns with
  | nil => simp
  | cons t ts ih =>
    have hts : 0 ≤ (ts.map (Turn.quota price)).sum := sum_nonneg (by simp [Turn.quota_nonneg])
    rw [map_cons, sum_cons, add_eq_zero_iff_of_nonneg t.quota_nonneg hts, ih, forall_mem_cons]

theorem postConsumeQuota_wallet (hsource : info.billingSource = some .wallet)
    (h : postConsumeQuota e l info quota = (l', .ok ())) :
    l'.userQuota = credit l.userQuota info.userId (-quota) := by
  unfold postConsumeQuota at h
  simp only [hsource, Option.some.injEq, reduceCtorEq, if_false] at h
  split at h
  · cases h
  rename_i l₁ hw
  have hl₁ : l₁.userQuota = credit l.userQuota info.userId (-quota) := by
    split at hw <;> rcases write_cases hw with ⟨_, _, hr⟩ | ⟨rfl, _⟩ <;> first | cases hr | rfl
  rcases settleToken_cases h with ⟨rfl, _⟩ | ⟨_, _, _, hr⟩
  · rw [chargeToken_userQuota, hl₁]
  · cases hr

theorem chargeTurns_wallet {turns : List Turn} (hsource : info.billingSource = some .wallet)
    (h : chargeTurns price info l turns = (l', .ok ())) :
    l'.userQuota = credit l.userQuota info.userId (-(turns.map (Turn.quota price)).sum) := by
  induction turns generalizing l with
  | nil =>
    cases h
    simp
  | cons t ts ih =>
    unfold chargeTurns at h
    split at h
    · cases h
    rename_i l₁ ht
    have hl₁ : l₁.userQuota = credit l.userQuota info.userId (-t.quota price) := by
      unfold preWssConsumeQuota at ht
      split at ht
      · cases ht
      · cases ht
      dsimp only at ht
      split at ht
      · cases ht
      split at ht
      · cases ht
      exact postConsumeQuota_wallet hsource ht
    rw [ih h, hl₁, credit_credit, map_cons, sum_cons, neg_add]

theorem settle_wallet {s s' : BillingSession} {w : WalletFunding} (hfunding : s.funding = .wallet w)
    (hsettled : s.settled = false) (hunsettled : s.fundingSettled = false)
    (h : s.settle e l quota = (l', s', .ok ())) :
    l'.userQuota = credit l.userQuota w.userId (s.preConsumedQuota - quota) := by
  rcases settle_cases h with ⟨-, -, herr⟩ | ⟨rfl, -, -, rfl⟩ | ⟨l₁, -, hpaid, ht, -⟩
  · obtain ⟨_, herr⟩ := herr hsettled
    cases herr
  · rw [sub_self, credit_zero]
  have hl₁ : Paid (quota - s.preConsumedQuota) l l₁ s.funding :=
    hpaid.resolve_left (by simp [hunsettled])
  rw [hfunding] at hl₁
  rcases settleToken_cases ht with ⟨rfl, _⟩ | ⟨_, _, _, hr⟩
  · rw [chargeToken_userQuota, show l₁ = _ from hl₁, neg_sub]
  · cases hr

/-- **A realtime session on the wallet** changes the user's quota by what `PostWssConsumeQuota`
settles if and only if every turn comes for nothing: `PreWssConsumeQuota` has charged the others
already. -/
theorem turns_charged_once_iff {x : Surroundings} {pre : Nat} {events : List Event}
    (he : x.opening.Compensates) (h : walletSession x price info pre events l = some (l', quota)) :
    l'.userQuota info.userId - l.userQuota info.userId = -quota ↔
      ∀ t ∈ x.turns events, t.quota price = 0 := by
  unfold walletSession at h
  split at h
  · cases h
  rename_i l₁ s hopen
  split at h
  · cases h
  rename_i l₂ hturns
  split at h
  · cases h
  split at h
  · cases h
  rename_i l₃ info' hsettle
  cases h
  rcases session_preConsume_cases he (Int.natCast_nonneg pre) (by simp) hopen with ⟨_, _, hr⟩ | ⟨s,
    hr, hsource, ho⟩
  · cases hr
  cases hr
  obtain ⟨w, hw⟩ : ∃ w, s.funding = .wallet w := by
    cases hf : s.funding with
    | wallet w => exact ⟨w, rfl⟩
    | subscription f => rw [hf] at hsource; cases hsource
  have hfunded := ho.funded
  rw [hw] at hfunded
  obtain ⟨hid, -, hl₁, -⟩ := hfunded
  have hl₂ := chargeTurns_wallet (ho.billingSource.trans (congrArg some hsource)) hturns
  simp only [settleBilling, Prod.mk.injEq] at hsettle
  have hl₃ := settle_wallet hw ho.settled ho.fundingSettled (Prod.ext hsettle.1 (Prod.ext rfl hsettle.2.2))
  have hcharged : l'.userQuota info.userId - l.userQuota info.userId =
      -quota - ((x.turns events).map (Turn.quota price)).sum := by
    rw [hl₃, hl₂, hl₁, hid, ho.userId, credit_credit, credit_credit, credit_apply, if_pos rfl]
    omega
  rw [hcharged, sub_eq_self, sum_quota_eq_zero_iff]

end Wallet

/-- One turn of 4 tokens at the ratio 37.5, charged at the settings `s`. -/
def shortSession (s : PriceSetting) : Option (Ledger × Int) :=
  walletSession ⟨utcCalendar, quietEnv, fun _ => ⟨0, s, .plain, false, quietEnv⟩, quietEnv, s, "model"⟩
    { flatTierInfo with
      tieredBillingSnapshot := none
      priceData := { flatTierInfo.priceData with modelRatio := 75 / 2 } }
    (smallInfo "wallet_only") 10 [.responseDone (some (countOutput 4 0)) 0 0 true] smallLedger

/-- The ratio is 0 when the turn ends: only the settlement charges it. -/
theorem free_turn_charged_once : ∃ l quota,
    shortSession { PriceSetting.unset with modelRatioMap := fun _ => some 0 } = some (l, quota) ∧
      l.userQuota 1 - smallLedger.userQuota 1 = -quota := by
  obtain ⟨out, hout⟩ := Option.isSome_iff_exists.mp
    (show (shortSession { PriceSetting.unset with modelRatioMap := fun _ => some 0 }).isSome by decide +kernel)
  refine ⟨out.1, out.2, hout, (turns_charged_once_iff quietEnv_compensates hout).mpr ?_⟩
  decide +kernel

/-- The turn is charged when it ends and again at the settlement. -/
theorem turn_charged_twice :
    (shortSession .unset).map (fun out => (out.1.userQuota 1 - smallLedger.userQuota 1, out.2)) = some (-300, 150) := by
  decide +kernel

end NewApi.Realtime
