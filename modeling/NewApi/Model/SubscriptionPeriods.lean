import NewApi.Model.SubscriptionRuns

/-!
# Returns across a period reset

A reset zeroes `AmountUsed` and leaves the records alone; neither the records nor the deltas
carry the period they belong to. What a return of an old charge does to the new period is
therefore a matter of bookkeeping beside the database:

* `Books.step_covers` — one step keeps `live - late ≤ AmountUsed`.
* `late_return_lowers_new_period` — without the `late` term the bound fails.
-/

namespace NewApi.Subscription

structure Books where
  db : DB
  chargedIn : String → Option Int
  live : Int → Int
  late : Int → Int

/-- Books opened on a database: nothing consumed or returned yet. -/
def Books.start (db : DB) : Books := ⟨db, fun _ => none, fun _ => 0, fun _ => 0⟩

/-- The amount a step returns, with the request it belongs to: an effective refund, or a negative
delta that is applied. -/
def returnedBy (cal : Calendar) (db : DB) (id : Int) : Op → Option (String × Int)
  | .refund fault requestId =>
    match db.records.get requestId, (step cal db (.refund fault requestId)).records.get requestId with
    | some before, some after =>
      if before.status = .consumed ∧ after.status = .refunded ∧ before.userSubscriptionId = id then
        some (requestId, before.preConsumed)
      else none
    | _, _ => none
  | .delta fault origin i delta =>
    if appliedBy db id (.delta fault origin i delta) < 0 then some (origin, -delta) else none
  | _ => none

/-- The amount a step consumes from subscription `id`: a charge, or a positive delta. -/
def consumedBy (cal : Calendar) (db : DB) (id : Int) (op : Op) : Int :=
  match chargeBy cal db op with
  | some c => if c.userSubscriptionId = id then c.amount else 0
  | none => max 0 (appliedBy db id op)

/-- Has the step rolled subscription `id` over into a new period? -/
def rolled (cal : Calendar) (db : DB) (op : Op) (id : Int) : Bool :=
  decide ((step cal db op).period id ≠ db.period id)

/-- One step of the books. A return counts against `live` if its request was charged in the current
period, and as `late` otherwise. -/
def Books.step (cal : Calendar) (b : Books) (op : Op) : Books where
  db := Subscription.step cal b.db op
  chargedIn := fun requestId =>
    match chargeBy cal b.db op with
    | some c =>
      if c.requestId = requestId then (Subscription.step cal b.db op).period c.userSubscriptionId
      else b.chargedIn requestId
    | none => b.chargedIn requestId
  live := fun id =>
    (if rolled cal b.db op id then 0 else b.live id) + consumedBy cal b.db id op -
      match returnedBy cal b.db id op with
      | some (requestId, amount) => if b.chargedIn requestId = b.db.period id then amount else 0
      | none => 0
  late := fun id =>
    (if rolled cal b.db op id then 0 else b.late id) +
      match returnedBy cal b.db id op with
      | some (requestId, amount) => if b.chargedIn requestId = b.db.period id then 0 else amount
      | none => 0

def keepBooks (cal : Calendar) (db : DB) (ops : List Op) : Books :=
  ops.foldl (Books.step cal) (Books.start db)

/-- The amount a step returns, `0` if it returns nothing. -/
def returnedAmount (cal : Calendar) (db : DB) (id : Int) (op : Op) : Int :=
  match returnedBy cal db id op with
  | some (_, amount) => amount
  | none => 0

/-- `AmountUsed` covers what was consumed and not returned in the period, up to late returns. -/
structure Books.Covers (b : Books) : Prop where
  valid : b.db.Valid
  covers : ∀ id, b.live id - b.late id ≤ b.db.usedOf id

/-! ## One step -/

section Step

variable {cal : Calendar} {db : DB}

theorem not_rolled {op : Op} {id : Int} (h : ¬ rolled cal db op id = true) :
    (step cal db op).period id = db.period id := by
  unfold rolled at h
  simpa using h

theorem Charged.amount_le {db' : DB} {now : Int} {requestId : String} {userId amount : Int}
    {chosen : UserSubscription} (h : Charged cal now db db' requestId userId amount chosen)
    (hv : db.Valid) : amount ≤ db'.usedOf chosen.id := by
  rw [usedOf_of_get h.row]
  have hren := ((h.sub_valid hv).renew cal db now).nonneg
  simp only
  omega

theorem preConsume_used_ge (cal : Calendar) (hv : db.Valid) (fault : Faults PreConsumeStmt)
    (r : String) (userId amount now id : Int) :
    (if rolled cal db (.preConsume fault r userId amount now) id then 0 else db.usedOf id)
        + consumedBy cal db id (.preConsume fault r userId amount now) ≤
      (step cal db (.preConsume fault r userId amount now)).usedOf id := by
  have hnew : 0 ≤ (step cal db (.preConsume fault r userId amount now)).usedOf id :=
    usedOf_nonneg (step_valid hv _) id
  have hold := usedOf_nonneg hv id
  rcases chargeBy_cases cal db fault r userId amount now with ⟨hn, hdb⟩ | ⟨_, chosen, hs, hch⟩
  · simp only [consumedBy, hn, appliedBy, hdb]
    split <;> omega
  simp only [consumedBy, hs]
  split
  · split
    · rename_i hid
      subst hid
      have := hch.amount_le hv
      omega
    · omega
  · rename_i hr
    rw [hch.usedOf (not_rolled hr)]

theorem refund_used_ge (cal : Calendar) (hv : db.Valid) (fault : RefundFaults) (r : String)
    (id : Int) :
    db.usedOf id - returnedAmount cal db id (.refund fault r) ≤
      (step cal db (.refund fault r)).usedOf id := by
  simp only [returnedAmount, returnedBy, step]
  rcases refundAtomic_cases fault r hv with hdb | ⟨record, sub, hrec, hcons, hsub, hused, hdb⟩
  · rw [hdb]
    rcases hg : db.records.get r with _ | record
    · simp
    -- nothing was marked, so nothing counts as returned
    have hne : ¬ (record.status = .consumed ∧ record.status = .refunded ∧ record.userSubscriptionId = id) := by
      rintro ⟨h1, h2, _⟩
      rw [h1] at h2
      cases h2
    simp [hne]
  · have hk : record.requestId = r := Table.key_of_get hrec
    have hafter : (refundAtomic fault db r).records.get r = some { record with status := .refunded } := by
      rw [hdb]; exact Table.get_save_of_key hrec hk
    rw [hused, hafter, hrec]
    by_cases hid : record.userSubscriptionId = id
    · subst hid
      have := le_clampedUsed sub.amountUsed (-record.preConsumed)
      simp only [hcons, and_self, if_true, usedOf_of_get hsub]
      omega
    · simp [hid]

theorem delta_used_ge (cal : Calendar) (db : DB) (fault : Faults DeltaStmt) (origin : String)
    (i d id : Int) :
    db.usedOf id + consumedBy cal db id (.delta fault origin i d) - returnedAmount cal db id (.delta fault origin i d) ≤
      (step cal db (.delta fault origin i d)).usedOf id := by
  have happ : db.usedOf id + appliedBy db id (.delta fault origin i d) ≤
      (step cal db (.delta fault origin i d)).usedOf id := by
    simp only [appliedBy, step]
    rcases hd : postConsumeUserSubscriptionDelta fault db i d with ⟨db', r⟩
    rcases delta_cases hd with ⟨rfl, e, rfl⟩ | ⟨rfl, rfl, rfl⟩ | ⟨_, rfl, sub, hsub, _, hdb⟩
    · simp
    · simp
    have hused : db'.usedOf id = if i = id then clampedUsed sub.amountUsed d else db.usedOf id :=
      usedOf_setUsed hsub (by rw [hdb]) id
    have hle := le_clampedUsed sub.amountUsed d
    simp only [hused]
    split
    · rename_i hid
      subst hid
      rw [usedOf_of_get hsub]
      exact hle
    · omega
  have hneg : appliedBy db id (.delta fault origin i d) < 0 → appliedBy db id (.delta fault origin i d) = d := by
    simp only [appliedBy]
    split
    · split
      · intro _; rfl
      · intro h; omega
    · intro h; omega
  simp only [consumedBy, chargeBy, returnedAmount, returnedBy]
  split
  · rename_i heq
    split at heq
    · cases heq
      omega
    · cases heq
  · rename_i heq
    split at heq
    · cases heq
    · omega

theorem reset_used_ge (cal : Calendar) (hv : db.Valid) (fault : Faults ResetStmt) (i : Int)
    (plan : SubscriptionPlan) (now id : Int) :
    (if rolled cal db (.reset fault i plan now) id then 0 else db.usedOf id) ≤
      (step cal db (.reset fault i plan now)).usedOf id := by
  have hnew : 0 ≤ (step cal db (.reset fault i plan now)).usedOf id :=
    usedOf_nonneg (step_valid hv _) id
  split
  · exact hnew
  rename_i hr
  have hbal := step_balance hv (.reset fault i plan now) (not_rolled hr) rfl
  have hopen : (step cal db (.reset fault i plan now)).openOf id = db.openOf id := by
    simp only [step]
    rcases hd : resetDueTx cal fault db i plan now with ⟨db', r⟩
    rcases resetDueTx_cases hd with rfl | ⟨sub, _, _, rfl⟩ <;> rfl
  simp only [appliedBy] at hbal
  omega

/-- **The used amount after one step**, from the one before it or from zero when the step rolls
the period over. -/
theorem step_used_ge (cal : Calendar) (hv : db.Valid) (op : Op) (id : Int) :
    (if rolled cal db op id then 0 else db.usedOf id) + consumedBy cal db id op
        - returnedAmount cal db id op ≤ (step cal db op).usedOf id := by
  have hold := usedOf_nonneg hv id
  cases op with
  | preConsume fault r userId amount now =>
    have := preConsume_used_ge cal hv fault r userId amount now id
    simp only [returnedAmount, returnedBy]
    omega
  | refund fault r =>
    have := refund_used_ge cal hv fault r id
    simp only [consumedBy, chargeBy, appliedBy]
    omega
  | delta fault origin i d =>
    have := delta_used_ge cal db fault origin i d id
    omega
  | reset fault i plan now =>
    have := reset_used_ge cal hv fault i plan now id
    simp only [consumedBy, chargeBy, appliedBy, returnedAmount, returnedBy]
    omega

theorem Books.step_covers {b : Books} (h : b.Covers) (op : Op) : (b.step cal op).Covers := by
  refine ⟨step_valid h.valid op, fun id => ?_⟩
  have hused := step_used_ge cal h.valid op id
  have hcov := h.covers id
  unfold returnedAmount at hused
  simp only [Books.step]
  cases hret : returnedBy cal b.db id op with
  | none | some ra =>
    simp only [hret] at hused ⊢
    split_ifs at hused ⊢ <;> omega

end Step

/-! ## Whole runs -/

/-- **Returns across resets.** In every run, `AmountUsed` covers what was consumed and not returned
since the last reset, less what was charged in an earlier period and returned since. -/
theorem used_covers_live_up_to_late (cal : Calendar) (db : DB) (hv : db.Valid) (ops : List Op)
    (id : Int) :
    (keepBooks cal db ops).live id - (keepBooks cal db ops).late id ≤ (run cal db ops).usedOf id ∧
    ((keepBooks cal db ops).late id = 0 → (keepBooks cal db ops).live id ≤ (run cal db ops).usedOf id) := by
  have hstart : (Books.start db).Covers := by
    refine ⟨hv, fun id => ?_⟩
    have := usedOf_nonneg hv id
    simp only [Books.start]
    omega
  have hrun : (keepBooks cal db ops).Covers :=
    foldl_invariant (P := Books.Covers) (fun _ op h => Books.step_covers h op) ops hstart
  have hcov := hrun.covers id
  have hsame : (keepBooks cal db ops).db = run cal db ops :=
    (List.foldl_hom Books.db (fun _ _ => rfl)).symm
  rw [hsame] at hcov
  exact ⟨hcov, fun hlate => by omega⟩

/-- A plan whose period is 100 seconds. -/
theorem duration_short : (100 : Int) * 1000000000 < 2 ^ 63 := by decide

def shortPlan : SubscriptionPlan := ⟨3, "short", .custom, 100, duration_short⟩

/-- Request `old` charges 10 at second 50; at second 150 the period rolls over and request `new`
charges 5. -/
def twoPeriods : List Op :=
  [.preConsume (fun _ => none) "old" 1 10 50, .preConsume (fun _ => none) "new" 1 5 150]

theorem used_covers_live_two_periods :
    (keepBooks utcCalendar (smallDB shortPlan) twoPeriods).live 7 = 5 ∧
    (keepBooks utcCalendar (smallDB shortPlan) twoPeriods).live 7 ≤
      (run utcCalendar (smallDB shortPlan) twoPeriods).usedOf 7 :=
  ⟨by decide, (used_covers_live_up_to_late utcCalendar (smallDB shortPlan) (smallDB_valid _) twoPeriods 7).2
      (by decide)⟩

/-- A refund of a charge of the previous period: 5 were consumed since the reset, and `AmountUsed`
is 0. -/
theorem late_return_lowers_new_period :
    ¬ ∀ (cal : Calendar) (db : DB) (ops : List Op) (id : Int), db.Valid →
      (keepBooks cal db ops).live id ≤ (run cal db ops).usedOf id := by
  intro h
  have hbad := h utcCalendar (smallDB shortPlan) (twoPeriods ++ [.refund RefundFaults.none "old"]) 7 (smallDB_valid _)
  exact absurd hbad (by decide)

end NewApi.Subscription
