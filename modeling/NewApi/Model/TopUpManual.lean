import NewApi.Model.TopUpRuns

/-!
# Manual completion against the provider's own

An administrator who completes an order should credit what the provider's webhook would have
credited. `ManualCompleteTopUp` repeats the formula of each provider; for two of them it is another
one.
-/

namespace NewApi.Payment

/-- The completion that the provider of an order runs; `payload` is what its webhook carries. -/
def ownCompletion (s : Settings) (payload : String) : PaymentProvider → Option Completion
  | .epay => some (completeEpayTopUp s payload)
  | .stripe => some (recharge s payload)
  | .creem => some (rechargeCreem payload)
  | .waffo => some (rechargeWaffo s)
  | .waffoPancake => some (rechargeWaffoPancake s)
  | _ => none

/-- Both completions credit an order of this provider alike. -/
def creditsAlike (s : Settings) (t : TopUp) : Prop :=
  match t.paymentProvider with
  | .stripe => 0 ≤ t.money * s.quotaPerUnit ∧ (t.money * s.quotaPerUnit).den = 1
  | .creem => t.amount = 0 ∨ 0 < t.amount ∧ 1 ≤ s.quotaPerUnit ∧ t.amount * (s.quotaPerUnit - 1) < 1
  | _ => True

/-! ## What is credited -/

/-- A refused order credits nothing. -/
def creditOf : Except TopUpError ℚ → ℚ
  | .ok quota => quota
  | .error _ => 0

theorem creditOf_positive (n : Int) :
    creditOf (do let quota ← positive n; return (quota : ℚ)) = if 0 < n then (n : ℚ) else 0 := by
  unfold positive
  split
  · rw [if_neg (by omega)]
    rfl
  · rw [if_pos (by omega)]
    rfl

section Quiet

variable {c : Completion} {now : Int} {db : TopUpDB} {order : TopUp} {user : Payer}

theorem Completion.run_quiet (horder : db.topUps.get order.tradeNo = some order) (htrade : order.tradeNo ≠ "")
    (hpending : order.status = .pending) (huser : db.users.get order.userId = some user)
    (hprovider : c.provider = none ∨ c.provider = some order.paymentProvider) :
    (c.run (fun _ => none) now db order.tradeNo).1.quotaOf order.userId =
      some (user.quota + creditOf (c.quota { order with paymentMethod := c.paymentMethod order })) := by
  have hprov : ¬ (c.provider ≠ none ∧ c.provider ≠ some order.paymentProvider) := by
    rintro ⟨h1, h2⟩
    exact hprovider.elim h1 h2
  have hquota : db.quotaOf order.userId = some user.quota := by rw [TopUpDB.quotaOf, huser]; rfl
  have hdone : ¬ (c.idempotent = true ∧ order.status = .success) := by
    rintro ⟨_, h⟩
    cases hpending.symm.trans h
  have hpend : ¬ order.status ≠ .pending := not_not.mpr hpending
  rcases hq : c.quota { order with paymentMethod := c.paymentMethod order } with e | quota
  · have hbody : c.body (fun _ => none) now order.tradeNo db = .error e := by
      simp only [body, horder, if_neg hprov, if_neg hdone, if_neg hpend, hq]
    simp [run, htrade, transaction, hbody, hquota, creditOf]
  have hbody : c.body (fun _ => none) now order.tradeNo db = .ok (c.apply now db order quota,
    some quota) := by
    simp only [body, horder, if_neg hprov, if_neg hdone, if_neg hpend, hq,
      creditUser, huser, ite_self]
    rfl
  simp only [run, if_neg htrade, transaction, hbody, Option.map_none, creditOf]
  rw [c.apply_quotaOf, hquota]
  simp

end Quiet

/-! ## The formulas -/

section Formulas

variable {s : Settings} {t : TopUp}

theorem manual_credit_stripe (h : t.paymentProvider = .stripe) :
    creditOf ((manualCompleteTopUp s).quota t) =
      if 0 < Decimal.intPart (t.money * s.quotaPerUnit) then (Decimal.intPart (t.money * s.quotaPerUnit) : ℚ)
      else 0 := by
  rw [← creditOf_positive]
  simp [manualCompleteTopUp, manualQuota, h]

theorem manual_credit_amount (hstripe : t.paymentProvider ≠ .stripe)
    (hepay : t.paymentProvider ≠ .epay) :
    (manualCompleteTopUp s).quota t = do let quota ← positive (amountQuota s t); return (quota : ℚ) := by
  simp [manualCompleteTopUp, manualQuota, hstripe, hepay]

theorem manual_credit_epay (h : t.paymentProvider = .epay) (payload : String) :
    (manualCompleteTopUp s).quota t = (completeEpayTopUp s payload).quota
      { t with paymentMethod := (completeEpayTopUp s payload).paymentMethod t } := by
  have hstripe : t.paymentProvider ≠ .stripe := by rw [h]; decide
  simp only [manualCompleteTopUp, manualQuota, if_neg hstripe, if_pos h]
  rfl

theorem truncated_eq_iff (q : ℚ) :
    (if 0 < Decimal.intPart q then (Decimal.intPart q : ℚ) else 0) = q ↔ 0 ≤ q ∧ q.den = 1 := by
  constructor
  · intro h
    split at h
    · rename_i hpos
      have hden : q.den = 1 := by rw [← h]; exact Rat.den_intCast _
      exact ⟨by linarith [Decimal.intPart_pos_iff.mp hpos], hden⟩
    · rw [← h]
      exact ⟨le_refl 0, rfl⟩
  · rintro ⟨h0, hden⟩
    have hq : q = (q.num : ℚ) := (Rat.den_eq_one_iff q).mp hden |>.symm
    rw [hq, Decimal.intPart_intCast]
    split
    · rfl
    have hnum : q.num = 0 := by
      have := Rat.num_nonneg.mpr h0
      omega
    rw [hnum]
    rfl

theorem amount_eq_iff (n : Int) (u : ℚ) :
    (if 0 < Decimal.intPart (n * u) then (Decimal.intPart (n * u) : ℚ) else 0) = n ↔
      n = 0 ∨ 0 < n ∧ 1 ≤ u ∧ n * (u - 1) < 1 := by
  constructor
  · intro h
    split at h
    · rename_i hpos
      have hn : Decimal.intPart (n * u) = n := by exact_mod_cast h
      rw [hn] at hpos
      have h1 := Decimal.intPart_pos_iff.mp (hn.symm ▸ hpos)
      rw [Decimal.intPart_eq_floor (by linarith), Int.floor_eq_iff] at hn
      refine .inr ⟨hpos, ?_, by linarith⟩
      nlinarith
    · exact .inl (by exact_mod_cast h.symm)
  · rintro (rfl | ⟨hpos, hu, hlt⟩)
    · simp [Decimal.intPart]
    have hnq : (0 : ℚ) < n := by exact_mod_cast hpos
    have hle : (n : ℚ) ≤ n * u := by nlinarith
    have hn : Decimal.intPart (n * u) = n := by
      rw [Decimal.intPart_eq_floor (by linarith), Int.floor_eq_iff]
      exact ⟨hle, by linarith⟩
    rw [hn, if_pos hpos]

end Formulas

/-- **Manual completion credits what the provider's own completion would**, exactly when
`creditsAlike` holds. -/
theorem manual_credits_like_provider_iff (s : Settings) (db : TopUpDB) (order : TopUp)
    (user : Payer) (own : Completion) (payload : String) (now : Int)
    (horder : db.topUps.get order.tradeNo = some order) (htrade : order.tradeNo ≠ "") (hpending : order.status = .pending)
    (huser : db.users.get order.userId = some user)
    (hown : ownCompletion s payload order.paymentProvider = some own) :
    ((manualCompleteTopUp s).run (fun _ => none) now db order.tradeNo).1.quotaOf order.userId =
        (own.run (fun _ => none) now db order.tradeNo).1.quotaOf order.userId ↔
      creditsAlike s order := by
  have hprovider : own.provider = none ∨ own.provider = some order.paymentProvider := by
    revert hown
    cases order.paymentProvider <;> intro hown <;> cases hown <;> exact .inr rfl
  rw [Completion.run_quiet horder htrade hpending huser (.inl rfl),
    Completion.run_quiet horder htrade hpending huser hprovider, Option.some.injEq, add_right_inj]
  unfold creditsAlike
  change creditOf ((manualCompleteTopUp s).quota order) = _ ↔ _
  cases hp : order.paymentProvider with
  | epay =>
    rw [hp] at hown
    cases hown
    simp [manual_credit_epay hp payload, hp]
  | stripe =>
    rw [hp] at hown
    cases hown
    rw [manual_credit_stripe hp]
    exact truncated_eq_iff _
  | creem =>
    rw [hp] at hown
    cases hown
    rw [manual_credit_amount (by rw [hp]; decide) (by rw [hp]; decide), creditOf_positive]
    exact amount_eq_iff order.amount s.quotaPerUnit
  | waffo | waffoPancake =>
    rw [hp] at hown
    cases hown
    rw [manual_credit_amount (by rw [hp]; decide) (by rw [hp]; decide)]
    exact iff_of_true rfl trivial
  | balance | other name =>
    rw [hp] at hown
    cases hown

/-- An Epay order: both credit 10 units at the display rate. -/
theorem manual_epay_agrees :
    ((manualCompleteTopUp ⟨500000, 1⟩).run (fun _ => none) 50 (sampleOrders .epay false) "T1").1.quotaOf 1 =
      some 5000000 ∧
    ((manualCompleteTopUp ⟨500000, 1⟩).run (fun _ => none) 50 (sampleOrders .epay false) "T1").1.quotaOf 1 =
      ((completeEpayTopUp ⟨500000, 1⟩ "alipay").run (fun _ => none) 50 (sampleOrders .epay false) "T1").1.quotaOf 1 :=
  ⟨by decide +kernel, (manual_credits_like_provider_iff ⟨500000, 1⟩ (sampleOrders .epay false) (sampleOrder .epay)
    ⟨1, 0, "", ""⟩ _ "alipay" 50 rfl (by decide) rfl rfl rfl).mpr trivial⟩

/-- A Stripe order of one unit at a group ratio of 0.1234567. -/
def fractionalOrder : TopUpDB :=
  { sampleOrders .stripe false with
    topUps := ⟨[{ sampleOrder .stripe with amount := 1, money := 1234567 / 10000000 }], by simp⟩ }

/-- A Creem order over 10 quota: the webhook credits 10, the administrator five million. And a
Stripe order that comes to a fraction, which the administrator drops. -/
theorem manual_creem_overcredits :
    ((rechargeCreem "").run (fun _ => none) 50 (sampleOrders .creem false) "T1").1.quotaOf 1 = some 10 ∧
    ((manualCompleteTopUp ⟨500000, 1⟩).run (fun _ => none) 50 (sampleOrders .creem false) "T1").1.quotaOf 1 =
      some 5000000 ∧
    ((recharge ⟨500000, 1⟩ "").run (fun _ => none) 50 fractionalOrder "T1").1.quotaOf 1 = some (6172835 / 100) ∧
    ((manualCompleteTopUp ⟨500000, 1⟩).run (fun _ => none) 50 fractionalOrder "T1").1.quotaOf 1 = some 61728 := by
  decide +kernel

end NewApi.Payment
