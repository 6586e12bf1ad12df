import NewApi.Model.TopUp

/-!
# Epay orders from request to credit (`RequestEpay` in `controller/topup.go`)

A user asks for an amount in CNY and pays it times a group ratio and a discount. When the order is
completed, amount, money and exchange rate decide whether it is an old order with an amount in USD.

* `EpayConfig`, `epayMinTopup`, `lookupAmountDiscount`, `epayGetPayMoney`, `requestEpay` — the
  request; the order it stores is a `TopUp` of `NewApi.Model.TopUp`.
* `validate_modern` — the check of the quota passes what the present flow credits.
-/

namespace NewApi.Payment

open NewApi.Subscription (Faults)

/-! ## The request -/

structure EpayRequest where
  amount : Int
  paymentMethod : String
  deriving DecidableEq, Repr

/-- What the payment client is asked for; `money` is printed with two places. -/
structure PurchaseArgs where
  type : String
  serviceTradeNo : String
  name : String
  money : ℚ

structure EpayConfig where
  minTopUp : Int
  topupGroupRatio : String → Option ℚ
  amountDiscount : Int → Option ℚ
  payMethods : List String
  /-- `GetEpayClient`, by its `Purchase`. -/
  client : Option (PurchaseArgs → Except String Unit)

def EpayConfig.getTopupGroupRatio (cfg : EpayConfig) (group : String) : ℚ :=
  (cfg.topupGroupRatio group).getD 1

def lookupAmountDiscount (cfg : EpayConfig) (amount : Int) : ℚ :=
  match cfg.amountDiscount amount with
  | some ds => if 0 < ds then ds else 1
  | none => 1

/-- The ratio of a group, where zero stands for one. -/
def EpayConfig.groupRatio (cfg : EpayConfig) (group : String) : ℚ :=
  if cfg.getTopupGroupRatio group = 0 then 1 else cfg.getTopupGroupRatio group

def epayMinTopup (cfg : EpayConfig) (s : Settings) : Int :=
  ⌈(cfg.minTopUp : ℚ) * s.epayDisplayExchangeRate⌉

def epayGetPayMoney (cfg : EpayConfig) (cnyAmount : Int) (group : String) : ℚ :=
  cnyAmount * cfg.groupRatio group * lookupAmountDiscount cfg cnyAmount

def epayTradeNo (id : Int) (random : String) (now : Int) : String :=
  "USR" ++ toString id ++ "NO" ++ (random ++ toString now)

/-- `RequestEpay` by user `id`: the order it stores, or the text it answers with. `group` is what
`GetUserGroup` returns, `insert` an error of the last statement. -/
def requestEpay (cfg : EpayConfig) (s : Settings) (req : EpayRequest) (id : Int)
    (group : Except String String) (random : String) (now created : Int) (insert : Option String) :
    Except String TopUp :=
  if req.amount < epayMinTopup cfg s then .error ("充值数量不能小于 " ++ toString (epayMinTopup cfg s))
  else
    match group with
    | .error _ => .error "获取用户分组失败"
    | .ok group =>
      let payMoney := epayGetPayMoney cfg req.amount group
      if payMoney < 1 / 100 then .error "充值金额过低"
      else if req.paymentMethod ∉ cfg.payMethods then .error "支付方式不存在"
      else
        let tradeNo := epayTradeNo id random now
        match cfg.client with
        | none => .error "当前管理员未配置支付信息"
        | some purchase =>
          match purchase ⟨req.paymentMethod, tradeNo, "TUC" ++ toString req.amount, payMoney⟩ with
          | .error _ => .error "拉起支付失败"
          | .ok () =>
            match insert with
            | some _ => .error "创建订单失败"
            | none =>
              .ok { userId := id, amount := req.amount, money := payMoney, tradeNo := tradeNo,
                    paymentMethod := req.paymentMethod, paymentProvider := .epay, createTime := created,
                    completeTime := 0, status := .pending }

/-- The factor between the amount and the money of an order. -/
def EpayConfig.payFactor (cfg : EpayConfig) (group : String) (amount : Int) : ℚ :=
  cfg.groupRatio group * lookupAmountDiscount cfg amount

section Request

variable {cfg : EpayConfig} {s : Settings} {req : EpayRequest} {id now created : Int} {group random : String}
  {insert : Option String} {topUp : TopUp}

theorem lookupAmountDiscount_pos (amount : Int) : 0 < lookupAmountDiscount cfg amount := by
  unfold lookupAmountDiscount
  split
  · split
    · assumption
    · exact one_pos
  · exact one_pos

theorem payFactor_pos (h : 0 < cfg.groupRatio group) (amount : Int) :
    0 < cfg.payFactor group amount :=
  mul_pos h (lookupAmountDiscount_pos amount)

/-- What is known of an order that has been stored. -/
structure StoredEpay (cfg : EpayConfig) (group : String) (req : EpayRequest) (topUp : TopUp) : Prop where
  amount : topUp.amount = req.amount
  money : topUp.money = req.amount * cfg.payFactor group req.amount
  money_ge : 1 / 100 ≤ topUp.money
  provider : topUp.paymentProvider = .epay
  status : topUp.status = .pending
  tradeNo : topUp.tradeNo ≠ ""

theorem epayTradeNo_ne_empty (id : Int) (random : String) (now : Int) : epayTradeNo id random now ≠ "" := by
  intro h
  have := congrArg String.toList h
  simp [epayTradeNo] at this

theorem requestEpay_ok (h : requestEpay cfg s req id (.ok group) random now created insert = .ok topUp) :
    StoredEpay cfg group req topUp := by
  simp only [requestEpay] at h
  split at h
  · cases h
  split at h
  · cases h
  rename_i hmoney
  split at h
  · cases h
  split at h
  · cases h
  split at h
  · cases h
  split at h
  · cases h
  cases h
  exact ⟨rfl, mul_assoc _ _ _, not_lt.mp hmoney, rfl, rfl, epayTradeNo_ne_empty id random now⟩

theorem StoredEpay.amount_pos (h : StoredEpay cfg group req topUp)
    (hratio : 0 < cfg.groupRatio group) : 0 < req.amount := by
  have hpos : (0 : ℚ) < req.amount * cfg.payFactor group req.amount := by
    rw [← h.money]
    linarith [h.money_ge]
  exact_mod_cast pos_of_mul_pos_left hpos (payFactor_pos hratio req.amount).le

end Request

/-! ## Completion -/

section Completion

variable {cfg : EpayConfig} {s : Settings} {req : EpayRequest} {group : String} {topUp : TopUp}

/-- An order of the present flow is not taken for an old one if the factor is at most 4/3 of the
rate, or at most two for an amount of ten or more. -/
theorem not_legacy_iff (h : StoredEpay cfg group req topUp) (hratio : 0 < cfg.groupRatio group) :
    isLegacyEpayUsdTopUpAmount s topUp = false ↔
      3 / 4 * cfg.payFactor group req.amount ≤ s.epayDisplayExchangeRate ∨
        10 ≤ req.amount ∧ cfg.payFactor group req.amount ≤ 2 := by
  have hamount : 0 < req.amount := h.amount_pos hratio
  have ha : (0 : ℚ) < req.amount := by exact_mod_cast hamount
  have hmoney : ¬ (req.amount ≤ 0 ∨ req.amount * cfg.payFactor group req.amount ≤ 0) := by
    rw [← h.money]
    rintro (h0 | h0)
    · omega
    · linarith [h.money_ge]
  have hhalf : (req.amount : ℚ) * cfg.payFactor group req.amount * (1 / 2) ≤ req.amount ↔
      cfg.payFactor group req.amount ≤ 2 := by
    rw [mul_assoc, mul_le_iff_le_one_right ha]
    constructor <;> intro h' <;> linarith
  have hrate : ¬ (req.amount : ℚ) * s.epayDisplayExchangeRate < req.amount * cfg.payFactor group req.amount * (3 / 4) ↔
        3 / 4 * cfg.payFactor group req.amount ≤ s.epayDisplayExchangeRate := by
    rw [mul_assoc, not_lt, mul_le_mul_iff_right₀ ha, mul_comm]
  rw [isLegacyEpayUsdTopUpAmount, h.provider, h.amount, h.money, if_neg (not_not.mpr rfl),
    if_neg hmoney, ← hhalf]
  split
  · rename_i hten
    exact ⟨fun _ => .inr hten, fun _ => rfl⟩
  rename_i hten
  rw [decide_eq_false_iff_not, hrate]
  exact ⟨.inl, fun h' => h'.resolve_right hten⟩

theorem epayQuotaFromCny_pos_iff {cnyAmount : Int} (h : 0 < cnyAmount) :
    0 < epayQuotaFromCny s cnyAmount ↔
      1 / 2 ≤ Decimal.div cnyAmount s.epayDisplayExchangeRate * s.quotaPerUnit := by
  rw [epayQuotaFromCny, if_neg (not_le.mpr h), Decimal.round_pos_iff]

theorem epayQuotaFromCny_le_ceiling {cnyAmount : Int} (h : 0 < cnyAmount)
    (hrate : 1 ≤ s.epayDisplayExchangeRate) (hquota : 0 < s.quotaPerUnit) :
    epayQuotaFromCny s cnyAmount ≤ epayModernTopUpQuotaCeiling s cnyAmount := by
  have hnat : ((cnyAmount.toNat : ℕ) : ℚ) = cnyAmount := by exact_mod_cast Int.toNat_of_nonneg h.le
  have hdiv : Decimal.div cnyAmount s.epayDisplayExchangeRate ≤ cnyAmount := by
    rw [← hnat]
    exact Decimal.div_le_self hrate
  have hdiv0 : 0 ≤ Decimal.div cnyAmount s.epayDisplayExchangeRate :=
    Decimal.div_nonneg (by exact_mod_cast h.le) (by linarith)
  have ha : (0 : ℚ) ≤ cnyAmount := by exact_mod_cast h.le
  rw [epayQuotaFromCny, epayModernTopUpQuotaCeiling, if_neg (not_le.mpr h), if_neg (not_le.mpr h)]
  refine Decimal.round_le_round (mul_nonneg hdiv0 hquota.le) ?_
  calc Decimal.div cnyAmount s.epayDisplayExchangeRate * s.quotaPerUnit
      ≤ cnyAmount * s.quotaPerUnit := mul_le_mul_of_nonneg_right hdiv hquota.le
    _ ≤ cnyAmount * s.quotaPerUnit * epayModernTopUpQuotaMaxRatio :=
        le_mul_of_one_le_right (mul_nonneg ha hquota.le) (by norm_num [epayModernTopUpQuotaMaxRatio])

section Modern

variable (hprovider : topUp.paymentProvider = .epay) (hlegacy : isLegacyEpayUsdTopUpAmount s topUp = false)
include hprovider hlegacy

theorem epayTopUpQuota_modern : epayTopUpQuota s topUp = epayQuotaFromCny s topUp.amount :=
  if_pos ⟨hprovider, hlegacy⟩

theorem completeEpayTopUp_quota_error (paymentMethod : String)
    (hpos : ¬ 0 < epayQuotaFromCny s topUp.amount) :
    (completeEpayTopUp s paymentMethod).quota topUp = .error (.message "无效的充值额度") := by
  have herror : positive (epayQuotaFromCny s topUp.amount) = .error (.message "无效的充值额度") :=
    if_pos (not_lt.mp hpos)
  simp only [completeEpayTopUp, epayTopUpQuota_modern hprovider hlegacy, herror, bind, Except.bind]

variable (hamount : 0 < topUp.amount) (hrate : 1 ≤ s.epayDisplayExchangeRate) (hrate' : s.epayDisplayExchangeRate ≤ 15)
  (hpos : 0 < epayQuotaFromCny s topUp.amount) (hquota : 0 < s.quotaPerUnit)
include hamount hrate hrate' hpos hquota

theorem validate_modern :
    validateEpayModernTopUpQuota s topUp (epayQuotaFromCny s topUp.amount) = .ok () := by
  have hceiling := epayQuotaFromCny_le_ceiling hamount hrate hquota
  have hone : (epayQuotaFromCny s topUp.amount : ℚ) / epayQuotaFromCny s topUp.amount = 1 :=
    div_self (by exact_mod_cast hpos.ne')
  have hratio : ¬ ((1 : ℚ) < epayModernTopUpQuotaMinRatio ∨ epayModernTopUpQuotaMaxRatio < 1) := by
    norm_num [epayModernTopUpQuotaMinRatio, epayModernTopUpQuotaMaxRatio]
  have hrange : ¬ (s.epayDisplayExchangeRate ≤ 0 ∨ s.epayDisplayExchangeRate < 1 / 2 ∨
      15 < s.epayDisplayExchangeRate) := by
    rintro (h | h | h) <;> linarith
  have hpositive : ¬ (topUp.amount ≤ 0 ∨ epayQuotaFromCny s topUp.amount ≤ 0) := by omega
  simp only [validateEpayModernTopUpQuota, epayTopUpQuota_modern hprovider hlegacy, hone, hprovider,
    hlegacy, ne_eq,
    not_true_eq_false, if_false, Bool.false_eq_true, if_neg hpositive, if_neg (not_lt.mpr hceiling),
    if_neg (not_le.mpr hpos), if_neg hratio, if_neg hrange]

theorem completeEpayTopUp_quota (paymentMethod : String) :
    (completeEpayTopUp s paymentMethod).quota topUp = .ok (epayQuotaFromCny s topUp.amount : ℚ) := by
  have hvalid := validate_modern hprovider hlegacy hamount hrate hrate' hpos hquota
  have hok : positive (epayQuotaFromCny s topUp.amount) = .ok (epayQuotaFromCny s topUp.amount) :=
    if_neg (not_le.mpr hpos)
  simp only [completeEpayTopUp, epayTopUpQuota_modern hprovider hlegacy, hok, bind, Except.bind,
    hvalid, pure, Except.pure]

end Modern

theorem Completion.run_pending (c : Completion) (now : Int) (db : TopUpDB)
    (hget : db.topUps.get topUp.tradeNo = some topUp) (hno : topUp.tradeNo ≠ "") (hstatus : topUp.status = .pending)
    (hprovider : c.provider = some topUp.paymentProvider) (hreads : c.readsUser = false) :
    c.run (fun _ => none) now db topUp.tradeNo =
      match c.quota { topUp with paymentMethod := c.paymentMethod topUp } with
      | .error e => (db, .error (c.outer e))
      | .ok quota => (c.apply now db topUp quota, .ok (some quota)) := by
  cases hquota : c.quota { topUp with paymentMethod := c.paymentMethod topUp } <;>
    simp_all [run, body, creditUser, apply, transaction]

end Completion

/-- **An Epay order credits its face value** exactly if the factor between amount and money does not
make it look like an old order, and the amount is worth half a unit of quota. -/
theorem epay_order_credits_face_value_iff (cfg : EpayConfig) (s : Settings) (req : EpayRequest)
    (id : Int) (group random : String) (now created completed : Int) (paymentMethod : String)
    (topUp : TopUp) (db : TopUpDB)
    (hrate : 1 ≤ s.epayDisplayExchangeRate ∧ s.epayDisplayExchangeRate ≤ 15) (hratio : 0 < cfg.groupRatio group)
    (hreq : requestEpay cfg s req id (.ok group) random now created none = .ok topUp)
    (hdb : db.topUps.get topUp.tradeNo = some topUp) :
    (isLegacyEpayUsdTopUpAmount s topUp = false ∧
      (completeEpayTopUp s paymentMethod).run (fun _ => none) completed db topUp.tradeNo =
        ((completeEpayTopUp s paymentMethod).apply completed db topUp (epayQuotaFromCny s req.amount),
          .ok (some (epayQuotaFromCny s req.amount : ℚ)))) ↔
      (3 / 4 * cfg.payFactor group req.amount ≤ s.epayDisplayExchangeRate ∨
        10 ≤ req.amount ∧ cfg.payFactor group req.amount ≤ 2) ∧
      1 / 2 ≤ Decimal.div req.amount s.epayDisplayExchangeRate * s.quotaPerUnit := by
  have hstored := requestEpay_ok hreq
  have hamount := hstored.amount_pos hratio
  have hprovider : (completeEpayTopUp s paymentMethod).provider = some topUp.paymentProvider := by
    rw [hstored.provider]
    rfl
  rw [← not_legacy_iff hstored hratio, ← epayQuotaFromCny_pos_iff hamount, ← hstored.amount]
  rw [← hstored.amount] at hamount
  refine and_congr_right fun hlegacy => ?_
  rw [Completion.run_pending _ completed db hdb hstored.tradeNo hstored.status hprovider rfl]
  -- the quota does not depend on the payment method that the completion sets
  set paid : TopUp := { topUp with paymentMethod := (completeEpayTopUp s paymentMethod).paymentMethod topUp }
  have hlegacy' : isLegacyEpayUsdTopUpAmount s paid = false := hlegacy
  constructor
  · intro h
    by_contra hpos
    have hrefused : (completeEpayTopUp s paymentMethod).quota paid = .error (.message "无效的充值额度") :=
      completeEpayTopUp_quota_error hstored.provider hlegacy' paymentMethod hpos
    rw [hrefused] at h
    cases congrArg Prod.snd h
  · intro hpos
    have hunit : 0 < s.quotaPerUnit := by
      have hhalf := (epayQuotaFromCny_pos_iff hamount).mp hpos
      have hdiv := Decimal.div_nonneg (a := (topUp.amount : ℚ)) (by exact_mod_cast hamount.le)
        (lt_of_lt_of_le one_pos hrate.1)
      exact pos_of_mul_pos_right (by linarith) hdiv
    have hcredited : (completeEpayTopUp s paymentMethod).quota paid = .ok (epayQuotaFromCny s topUp.amount : ℚ) :=
      completeEpayTopUp_quota hstored.provider hlegacy' hamount hrate.1 hrate.2 hpos hunit paymentMethod
    rw [hcredited]

/-! ## Two orders at a rate of two -/

/-- Group `vip` pays three times the amount. -/
def vipConfig : EpayConfig where
  minTopUp := 1
  topupGroupRatio := fun group => if group = "vip" then some 3 else none
  amountDiscount := fun _ => none
  payMethods := ["alipay"]
  client := some fun _ => .ok ()

def rateTwo : Settings := ⟨500000, 2⟩

/-- The order over five that user 1 makes. -/
def orderOfFive (money : ℚ) : TopUp :=
  ⟨1, 5, money, epayTradeNo 1 "r" 100, "alipay", .epay, 100, 0, .pending⟩

def payerDB (topUp : TopUp) : TopUpDB :=
  ⟨⟨[topUp], List.nodup_singleton _⟩, ⟨[⟨1, 0, "", ""⟩], List.nodup_singleton _⟩⟩

/-- A user without a ratio of their own pays five for five: the order credits its amount. -/
theorem default_ratio_credits_face_value : epayQuotaFromCny rateTwo 5 = 1250000 ∧
      isLegacyEpayUsdTopUpAmount rateTwo (orderOfFive 5) = false ∧
      (completeEpayTopUp rateTwo "alipay").run (fun _ => none) 200 (payerDB (orderOfFive 5)) (orderOfFive 5).tradeNo =
        ((completeEpayTopUp rateTwo "alipay").apply 200 (payerDB (orderOfFive 5)) (orderOfFive 5)
          (epayQuotaFromCny rateTwo 5), .ok (some (epayQuotaFromCny rateTwo 5 : ℚ))) :=
  ⟨by decide +kernel,
    (epay_order_credits_face_value_iff vipConfig rateTwo ⟨5, "alipay"⟩ 1 "default" "r" 100 100 200 "alipay" (orderOfFive 5)
      (payerDB (orderOfFive 5)) (by decide +kernel) (by decide +kernel) (by decide +kernel) (by decide +kernel)).mpr
      (by decide +kernel)⟩

/-- In group `vip` the same order costs 15, is taken for one over 5 USD, and credits twice its
amount. -/
theorem high_ratio_taken_for_legacy :
    requestEpay vipConfig rateTwo ⟨5, "alipay"⟩ 1 (.ok "vip") "r" 100 100 none = .ok (orderOfFive 15) ∧
      isLegacyEpayUsdTopUpAmount rateTwo (orderOfFive 15) = true ∧
      epayQuotaFromCny rateTwo 5 = 1250000 ∧
      ((completeEpayTopUp rateTwo "alipay").run (fun _ => none) 200 (payerDB (orderOfFive 15))
        (orderOfFive 15).tradeNo).2 = .ok (some 2500000) := by
  decide +kernel

end NewApi.Payment
