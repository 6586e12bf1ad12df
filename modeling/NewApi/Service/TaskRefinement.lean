import NewApi.Service.TaskCopies

/-!
# The system refines the steps of a single task

* `step_view` — every careful action is one `ViewStep` of every task.
-/

namespace NewApi.Tasks

open NewApi.Billing NewApi.Subscription List Table World Bool

/-- The writes that give the quota of `t` back go through. -/
def payable (e : Env) (l : Ledger) (t : Task) : Bool :=
  if taskIsSubscription t then
    (e.deltaFault .findSub).isNone && (e.deltaFault .saveSub).isNone && (e.deltaFault .commit).isNone &&
      (l.db.subs.get t.subscriptionId).any fun sub =>
        decide (0 < sub.amountTotal → clampedUsed sub.amountUsed (-t.quota) ≤ sub.amountTotal)
  else (e.fault .userWrite).isNone

/-- The row of `id` may be failed in bulk, if the statement hits it. -/
def BulkOk (G : Guard) (rows : TaskTable) (id : Int) (u : TaskUpdate) : Prop :=
  ∀ r, rows.get id = some r → u.hits r = true → G.bulk r (u.set r)

/-- The guard at the next piece of a poller's round. -/
def CarefulWork (cfg : Config) (G : Guard) (s : World) (id : Int) (n : Nat) (e : PollEnv) : Work →
      Prop
  | .repair ids => e.writeOk = true → BulkOk G s.rows id (taskBulkUpdateByID ids none e.env.now)
  | .channel platform channelId taskIds taskM =>
    e.channelOk = false → e.writeOk = true → BulkOk G s.rows id
      (taskBulkUpdateByID (taskIds.filterMap fun id => findKey id taskM)
        (some (if platform = .suno then sunoChannelReason channelId else videoChannelReason channelId))
        e.env.now)
  | .single _ => True
  | .item obj item =>
    ∀ task, obj.bind (s.poller n).mem = some task → taskNeedsUpdate task item = true →
      ∀ t, applySunoItem task item = (t, true) → t.id = id → (cfg.returns (.refund t t.failReason) ≠ none →
          ∀ old, s.rows.get id = some old → G.prepay (s.view id) old) ∧
        (G.refundsSucceed = true → payable e.env s.ledger t = true)

/-- The guard at what a party has to do next. -/
def CarefulPending (G : Guard) (s : World) (e : Env) (ok : Bool) : Pending → Prop
  | .save t returned =>
    if ok then ∀ old, s.rows.get t.id = some old → G.save old t returned else G.drop returned
  | .refund t _ => G.refundsSucceed = true → payable e s.ledger t = true
  | _ => True

/-- The action meets the guard, as far as the task `id` is concerned. -/
def Carefully (cfg : Config) (G : Guard) (id : Int) (s : World) : Act → Prop
  | .poll n e => ∀ w rest, (s.poller n).todo = w :: rest → CarefulWork cfg G s id n e w
  | .expire n _ ok =>
    ∀ t rest old, (s.sweeper n).todo = t :: rest → t.id = id → ok = true → s.rows.get id = some old →
      old.status = t.status → old.platform = .suno → G.cas (s.view id) old
  | .finish n _ _ ok =>
    ∀ t old, s.worker n = .working t → t.id = id → ok = true → s.rows.get id = some old →
      old.status = .inProgress → old.leaseOwner = cfg.owner n → old.platform = .suno →
      G.cas (s.view id) old
  | .proceed p e ok => ∀ b, findKey p s.pending = some b → b.task.id = id → CarefulPending G s e ok b
  | .foreign row =>
    ∀ old, row.id = id → s.rows.get id = some old → identity row = identity old → G.other old row
  | _ => True

/-! ## Refunds -/

section Refunds

variable {cfg : Config} {s : World} {e : Env} {t : Task} {reason : String}

theorem taskAdjustFunding_payable {l : Ledger} (h : payable e l t = true) (hq : t.quota ≠ 0) :
    (taskAdjustFunding e l t (-t.quota)).2 = .ok () := by
  unfold payable at h
  unfold taskAdjustFunding
  split at h
  · rename_i hs
    simp only [and_eq_true, Option.isNone_iff_eq_none, Option.any_eq_true, decide_eq_true_eq] at h
    obtain ⟨⟨⟨hf, hsv⟩, hc⟩, sub, hsub, hfit⟩ := h
    have hfault : ∀ q, e.deltaFault q = none := by
      intro q
      cases q with
      | findSub => exact hf
      | saveSub => exact hsv
      | commit => exact hc
    have hid : 0 < t.subscriptionId := (of_decide_eq_true hs).2
    rw [if_pos hs, subscriptionDelta, delta_applies hfault hid (by omega) hsub hfit]
  · rename_i hs
    have hf : e.fault .userWrite = none := Option.isNone_iff_eq_none.mp h
    rw [if_neg hs]
    split
    · rw [decreaseUserQuota, hf, write_ok (by omega)]
    · rw [increaseUserQuota, hf, write_ok (by omega)]

theorem refund_cases (cfg : Config) (s : World) (e : Env) (t : Task) (reason : String) :
    (s.refund cfg e t reason).2 = cfg.returns (.refund t reason) ∨
    (s.refund cfg e t reason).2 = none ∧ payable e s.ledger t = false := by
  unfold refund Config.returns refundTaskQuota shouldRefundTaskOnFailure Config.refundable Config.taskEnv
  by_cases hq : t.quota = 0
  · simp [hq]
  cases hk : cfg.keepsCharge t.userId t.action reason "" with
  | true => simp [hq, hk]
  | false =>
    rcases hadj : taskAdjustFunding e s.ledger t (-t.quota) with ⟨l, r⟩
    cases r with
    | error err =>
      refine .inr ⟨by simp [hq, hk], eq_false_of_ne_true fun h => ?_⟩
      have hok := taskAdjustFunding_payable h hq
      rw [hadj] at hok
      cases hok
    | ok _ => left; simp [hq, hk]

theorem returns_of_refund {G : Guard} (h : G.refundsSucceed = true → payable e s.ledger t = true) :
    G.Returns cfg (.refund t reason) (s.refund cfg e t reason).2 := by
  rcases refund_cases cfg s e t reason with hr | ⟨hr, hfails⟩
  · exact .inl hr
  · exact .inr ⟨eq_false_of_ne_true fun hG => absurd (h hG) (by simp [hfails]), hr⟩

end Refunds

/-! ## Compare-and-set writes -/

section Cas

variable {cfg : Config} {s : World} {p : Party} {body : String} {u : TaskUpdate} {id k : Int}
  {b : Option Pending} {ok : Bool}

theorem view_cas_ne (hu : ∀ r, u.hits r = true → r.id = k) (hb : ∀ x, b = some x → x.task.id = k)
    (hne : id ≠ k) : (s.cas cfg p u body ok b).view id = s.view id := by
  unfold cas
  split
  · rw [view_hold_ne fun x hx => (hb x hx).trans_ne hne.symm]
    refine view_exec_miss fun old hold => ?_
    rw [eq_false_iff]
    intro hh
    exact hne ((key_of_get hold).symm.trans (hu old hh))
  · rfl

theorem view_cas (cfg : Config) (s : World) (p : Party) (body : String) (ok : Bool)
    (hu : ∀ r, u.hits r = true → r.id = k) (hb : ∀ x, b = some x → x.task.id = k) :
    (s.cas cfg p u body ok b).view k = s.view k ∨
    ∃ old, ok = true ∧ s.rows.get k = some old ∧ u.hits old = true ∧
      (s.cas cfg p u body ok b).view k = ⟨some (u.set old),
        (s.view k).history ++ (move cfg p body old (u.set old)).toList,
        (s.view k).pending ++ (b.map fun x => (p, x)).toList⟩ := by
  unfold cas
  split
  · rename_i hc
    simp only [and_eq_true] at hc
    obtain ⟨old, hold, hh⟩ := (affected_iff hu).mp hc.2
    refine .inr ⟨old, hc.1, hold, hh, ?_⟩
    rw [view_hold hb, view_exec_hit hold hh]
  · exact .inl rfl

/-- What a write that bills must know of the row it hits. -/
structure Wins (cfg : Config) (G : Guard) (s : World) (p : Party) (body : String) (b : Option Pending)
    (old new : Task) : Prop where
  live : old.status.terminal = false
  ident : identity new = identity old
  terminal : new.status.terminal = true
  bill : ∀ x, b = some x → x.isSave = false
  due : p.isLoop = true → cfg.due new body = true → ∃ x, b = some x ∧ cfg.returns x = some new.quota
  suno : old.platform = .suno → G.cas (s.view old.id) old

theorem viewStep_cas {G : Guard}
    (hu : ∀ r, u.hits r = true → r.id = k) (hb : ∀ x, b = some x → x.task.id = k)
    (hwins : k = id → ∀ old, ok = true → s.rows.get k = some old → u.hits old = true →
      Wins cfg G s p body b old (u.set old)) :
    ViewStep cfg G id (s.view id) ((s.cas cfg p u body ok b).view id) := by
  by_cases hne : id = k
  · subst hne
    rcases view_cas cfg s p body ok hu hb with hv | ⟨old, hok, hold, hh, hv⟩
    · rw [hv]; exact .stay
    rw [hv]
    have hw := hwins rfl old hok hold hh
    refine .cas p body old _ b hold hw.live hw.ident (fun x hx => ⟨hw.terminal, hw.bill x hx⟩) hw.due
      fun hs => ⟨hw.terminal, ?_⟩
    have hid : old.id = id := key_of_get hold
    rw [← hid]
    exact hw.suno hs
  · rw [view_cas_ne hu hb hne]
    exact .stay

end Cas

/-! ## Pollers -/

variable {now : Int}

section Polling

variable {distinct : Prop} {cfg : Config} {G : Guard} {s : World} {n : Nat} {e : PollEnv} {task t : Task} {id : Int}

@[simp] theorem view_setMem (s : World) (n : Nat) (t : Task) (id : Int) :
    (s.setMem n t).view id = s.view id := rfl

@[simp] theorem view_hold_none (s : World) (p : Party) (id : Int) :
    (s.hold p none).view id = s.view id :=
  view_hold_ne fun _ hx => (by cases hx)

theorem updateWithStatus_hits {old : TaskStatus} {r : Task}
    (h : (t.updateWithStatus old now).hits r = true) : r.id = t.id := (of_decide_eq_true h).1

theorem videoBill_live {r : VideoResult} {body : String} (h : t.status.terminal = false) :
    videoBill cfg t r body = none := by
  unfold videoBill
  cases hs : t.status <;> simp only <;> simp [hs, TaskStatus.terminal] at h

theorem videoBill_due {r : VideoResult} {body : String}
    (h : cfg.due { t with updatedAt := now } body = true) :
    ∃ x, videoBill cfg t r body = some x ∧ cfg.returns x = some t.quota := by
  simp only [Config.due, Config.refundable, and_eq_true, decide_eq_true_eq] at h
  obtain ⟨⟨⟨⟨hs, -⟩, hq⟩, hb⟩, hn⟩ := h
  refine ⟨.refund t t.failReason, ?_, ?_⟩
  · simp [videoBill, hs, hq, Config.refundable, hb]
  · simp [Config.returns, hq, Config.refundable, hn]

theorem view_pollVideo_ne (hne : id ≠ task.id) :
    (s.pollVideo cfg n e task).view id = s.view id := by
  unfold pollVideo
  split
  · rfl
  · rfl
  rename_i r data body _
  split
  · rfl
  rename_i t ht
  obtain ⟨hid, -, -⟩ := applyVideoResult_ok ht
  have hne' : id ≠ t.id := hid ▸ hne
  have hbill : ∀ x, videoBill cfg t r body = some x → x.task.id = t.id := fun x hx =>
    congrArg Task.id (videoBill_task hx).1
  split
  · exact view_cas_ne (fun _ => updateWithStatus_hits) hbill hne'
  rw [view_hold_ne fun x hx => (hbill x hx).trans_ne hne'.symm]
  split
  · exact view_cas_ne (fun _ => updateWithStatus_hits) (fun _ hx => (by cases hx)) hne'
  · rfl

/-- A live copy of a video task: its write is the only thing that lets it bill. -/
theorem viewStep_pollVideo (hst : Stored s.rows task) (hlive : task.status.terminal = false)
    (hvideo : task.platform ≠ .suno) :
    ViewStep cfg G task.id (s.view task.id) ((s.pollVideo cfg n e task).view task.id) := by
  unfold pollVideo
  split
  · exact .stay
  · exact .stay
  rename_i r data body _
  split
  · exact .stay
  rename_i t ht
  obtain ⟨hid, hi, -⟩ := applyVideoResult_ok ht
  have hcopy : Stored s.rows t := hst.copy hid hi
  have hplat : t.platform ≠ .suno := fun h => hvideo ((congrArg Prod.fst hi).symm.trans h)
  rw [← hid]
  -- a row the write hits is live and has the identity of the copy
  have hrow : ∀ old, s.rows.get t.id = some old → (t.updateWithStatus task.status e.env.now).hits old = true →
      old.status.terminal = false ∧ identity t = identity old := by
    intro old hold hh
    refine ⟨?_, hcopy.identity_row (mem_of_get hold) (key_of_get hold)⟩
    rw [(of_decide_eq_true hh).2]
    exact hlive
  split
  · rename_i hterm
    refine viewStep_cas (s := s.setMem n t) (fun _ => updateWithStatus_hits)
      (fun x hx => congrArg Task.id (videoBill_task hx).1) (fun _ old _ hold hh => ?_)
    obtain ⟨hold_live, hident⟩ := hrow old hold hh
    exact {
      live := hold_live
      ident := hident
      terminal := hterm.1
      bill := fun x hx => (videoBill_task hx).2.1
      due := fun _ hdue => videoBill_due hdue
      suno := fun hs => absurd ((congrArg Prod.fst hident).trans hs) hplat }
  · rename_i hterm
    have htlive : t.status.terminal = false := by
      rw [eq_false_iff]
      intro hc
      refine hterm ⟨hc, fun he => ?_⟩
      rw [he, hc] at hlive
      cases hlive
    rw [videoBill_live htlive]
    simp only [view_hold_none]
    split
    · rcases view_cas (b := none) cfg (s.setMem n t) (.poller n) body e.writeOk
        (fun _ => updateWithStatus_hits) (fun _ hx => (by cases hx)) with hv | ⟨old, -, hold, hh, hv⟩
      · rw [hv]; exact .stay
      obtain ⟨hold_live, hident⟩ := hrow old hold hh
      have hmove : move cfg (.poller n) body old
          ((t.updateWithStatus task.status e.env.now).set old) = none := move_live hold_live htlive
      rw [hv, hmove]
      simp only [Option.map_none, Option.toList_none, append_nil]
      refine .edit old _ hold ⟨hident, fun h => ?_, fun _ => htlive, fun hs => ?_⟩
      · rw [hold_live] at h; cases h
      · exact absurd ((congrArg Prod.fst hident).trans hs) hplat
    · exact .stay

variable {item : SunoItem}

theorem applySunoItem_finished (h : (applySunoItem task item).2 = true) :
    (applySunoItem task item).1.unfinished = false := by
  have hprogress : (applySunoItem task item).1.progress = "100%" := by
    simp only [applySunoItem] at h ⊢
    rw [h]
    rfl
  simp [Task.unfinished, hprogress]

theorem applySunoItem_not_failed (h : (applySunoItem task item).2 = false) :
    (applySunoItem task item).1.status ≠ .failure := by
  simp only [applySunoItem, or_eq_false_iff, decide_eq_false_iff_not] at h
  exact h.2

theorem view_pollSuno_ne (hne : id ≠ task.id) :
    (s.pollSuno cfg n e task item).view id = s.view id := by
  have hsave : ∀ x returned, some (Pending.save (applySunoItem task item).1 returned) = some x → x.task.id ≠ id := by
    intro x returned hx
    cases hx
    exact hne.symm
  unfold pollSuno
  split
  · simp only
    split
    · rw [view_hold_ne (hsave · _)]
      simp [view, setMem, setPoller, Event.id, applySunoItem, hne.symm]
    · rw [view_hold_ne (hsave · _), view_setMem]
  · rfl

theorem viewStep_pollSuno (hst : Stored s.rows task) (hsuno : task.platform = .suno)
    (hG : taskNeedsUpdate task item = true → ∀ t, applySunoItem task item = (t, true) → t.id = task.id →
      (cfg.returns (.refund t t.failReason) ≠ none →
        ∀ old, s.rows.get task.id = some old → G.prepay (s.view task.id) old) ∧
      (G.refundsSucceed = true → payable e.env s.ledger t = true)) :
    ViewStep cfg G task.id (s.view task.id) ((s.pollSuno cfg n e task item).view task.id) := by
  obtain ⟨old, hold, hi⟩ := hst
  unfold pollSuno
  split
  · rename_i hneeds
    rcases hsi : applySunoItem task item with ⟨t, failed⟩
    have ht : t = (applySunoItem task item).1 := by rw [hsi]
    have hid : t.id = task.id := by rw [ht]; rfl
    have hident : identity t = identity old := by rw [ht]; exact hi.symm
    have hplat : t.platform = .suno := by rw [ht]; exact hsuno
    rw [← hid] at hold hG ⊢
    simp only
    split
    · rename_i hfailed
      subst hfailed
      obtain ⟨hpre, hpay⟩ := hG hneeds t hsi rfl
      have hret : G.Returns cfg (.refund t t.failReason) ((s.setMem n t).refund cfg e.env t t.failReason).2 :=
        returns_of_refund hpay
      rcases hr : (s.setMem n t).refund cfg e.env t t.failReason with ⟨l, returned⟩
      rw [hr] at hret
      rw [view_hold fun x hx => (by cases hx; rfl)]
      have hview : ({ s.setMem n t with ledger := l, log := (s.setMem n t).log ++ [.billed (.poller n) t.id returned] } :
          World).view t.id = ⟨(s.view t.id).row, (s.view t.id).history ++ [.billed (.poller n) t.id returned],
            (s.view t.id).pending⟩ := by
        simp [view, setMem, setPoller, Event.id]
      rw [hview]
      refine .prepay (.poller n) t old true returned hold hident hplat (fun h => (by cases h))
        (fun _ => ⟨hret, ?_⟩) fun hne => hpre ?_ old hold
      · rw [ht]
        exact applySunoItem_finished (by rw [hsi])
      rcases hret with hret | ⟨-, hnone⟩
      · rwa [← hret]
      · exact absurd hnone hne
    · rename_i hfailed
      rw [view_hold fun x hx => (by cases hx; rfl), view_setMem]
      have hnofail : t.status ≠ .failure := by
        rw [ht]
        exact applySunoItem_not_failed (by rw [hsi]; simpa using hfailed)
      have hstep : ViewStep cfg G t.id (s.view t.id) ⟨(s.view t.id).row,
          (s.view t.id).history ++ (if false = true then [.billed (.poller n) t.id none] else []),
          (s.view t.id).pending ++ [(.poller n, .save t none)]⟩ :=
        .prepay (.poller n) t old false none hold hident hplat (fun _ => ⟨rfl, hnofail⟩)
          (fun h => (by cases h)) fun h => absurd rfl h
      simpa using hstep
  · exact .stay

theorem viewStep_exec {msg : String} (hhit : ∀ old, s.rows.get id = some old → u.hits old = true →
      ViewStep cfg G id (s.view id) ((s.exec cfg p u msg).view id)) :
    ViewStep cfg G id (s.view id) ((s.exec cfg p u msg).view id) := by
  by_cases hmiss : ∀ old, s.rows.get id = some old → u.hits old = false
  · rw [view_exec_miss hmiss]
    exact .stay
  push Not at hmiss
  obtain ⟨old, hrow, hh⟩ := hmiss
  exact hhit old hrow (by simpa using hh)

theorem viewStep_bulk {ids : List Int} {reason : Option String}
    (hG : BulkOk G s.rows id (taskBulkUpdateByID ids reason now)) :
    ViewStep cfg G id (s.view id)
      ((s.exec cfg (.poller n) (taskBulkUpdateByID ids reason now) "").view id) := by
  refine viewStep_exec fun old hrow hh => ?_
  rw [view_exec_hit hrow hh]
  exact .bulk (.poller n) old _ hrow rfl ⟨rfl, rfl⟩ (hG old hrow hh)

theorem viewStep_poll (h : WF distinct s)
    (hG : ∀ w rest, (s.poller n).todo = w :: rest → CarefulWork cfg G s id n e w)
    (hid : distinct ∨ ∃ r, s.rows.get id = some r ∧ r.platform = .suno) :
    ViewStep cfg G id (s.view id) ((s.poll cfg n e).view id) := by
  unfold poll
  split
  · exact .stay
  rename_i w rest htodo
  have hw := hG w rest htodo
  have htyped := (h.pollers n).typed w (htodo ▸ mem_cons_self)
  simp only [setPoller_poller]
  split
  · split
    · rename_i hok
      exact viewStep_bulk (hw hok)
    · exact .stay
  · unfold pollChannel
    split
    · exact .stay
    rename_i hc
    simp only
    split
    · rename_i hok
      exact viewStep_bulk (hw (by simpa using hc) hok)
    · exact .stay
  · split
    · rename_i task hobj
      obtain ⟨hi, hmem⟩ := copy_of_bind (h.pollers n) hobj
      by_cases hne : id = task.id
      · subst hne
        obtain ⟨-, hst⟩ := (h.pollers n).mem _ _ hmem
        have hvideo := htyped _ _ hi hmem
        rcases hid with hd | ⟨r, hr, hsuno⟩
        · have hlive : task.status.terminal = false := by
            refine (h.once hd n).live task.id ?_ task hmem
            rw [htodo, hi]
            exact mem_append_left _ (by simp [Work.targets])
          exact viewStep_pollVideo (s := s.setPoller n _) hst hlive hvideo
        · exact absurd ((hst.platform hr).trans hsuno) hvideo
      · rw [view_pollVideo_ne hne]
        exact .stay
    · exact .stay
  · split
    · rename_i task hobj
      obtain ⟨hi, hmem⟩ := copy_of_bind (h.pollers n) hobj
      by_cases hne : id = task.id
      · subst hne
        exact viewStep_pollSuno (s := s.setPoller n _) ((h.pollers n).mem _ _ hmem).2 (htyped _ _ hi hmem)
          (hw task hobj)
      · rw [view_pollSuno_ne hne]
        exact .stay
    · exact .stay

end Polling

/-! ## Sweepers and workers -/

section Others

variable {distinct : Prop} {cfg : Config} {G : Guard} {s : World} {n : Nat} {p : Party} {u : TaskUpdate}

theorem Edits.move_none {old new : Task} (h : Edits old new) (cfg : Config) (p : Party)
    (body : String) : move cfg p body old new = none := by
  cases ht : old.status.terminal with
  | true => exact move_same (h.terminal ht).symm
  | false => exact move_live ht (h.live ht)

theorem viewStep_edit (hedit : ∀ old, u.hits old = true → Edits old (u.set old)) (id : Int) :
    ViewStep cfg G id (s.view id) ((s.exec cfg p u "").view id) := by
  refine viewStep_exec fun old hrow hh => ?_
  rw [view_exec_hit hrow hh, (hedit old hh).move_none]
  simp only [Option.toList_none, append_nil]
  exact .edit old _ hrow (hedit old hh)

theorem viewStep_lease {ok : Bool}
    (hedit : ∀ old, u.hits old = true → Edits old (u.set old)) (id : Int) :
    ViewStep cfg G id (s.view id) ((s.lease cfg n u ok).view id) := by
  unfold lease
  split
  · exact viewStep_edit hedit id
  · exact .stay

theorem edits_claim (taskId owner : String) (leaseDuration now : Int) (channelIds : List Int)
    (included : Bool) (old : Task)
    (hh : (claimImageAsyncTask taskId owner leaseDuration now channelIds included).hits old = true) :
    Edits old ((claimImageAsyncTask taskId owner leaseDuration now channelIds included).set old) := by
  simp only [claimImageAsyncTask, and_eq_true, decide_eq_true_eq, Task.claimable] at hh
  obtain ⟨⟨⟨-, -, -, -, hplat⟩, -⟩, hst⟩ := hh
  have hlive : old.status.terminal = false := by rcases hst with hs | hs | ⟨hs, -⟩ <;> rw [hs] <;> rfl
  refine ⟨rfl, fun h => ?_, fun _ => rfl, fun h => ?_⟩
  · rw [hlive] at h; cases h
  · rw [hplat] at h; cases h

theorem edits_renew (taskId owner : String) (leaseDuration now : Int) (old : Task) :
    Edits old ((renewImageAsyncTaskLease taskId owner leaseDuration now).set old) :=
  ⟨rfl, fun _ => rfl, fun h => h, fun _ => rfl⟩

theorem edits_release (taskId owner : String) (now : Int) (old : Task) :
    Edits old ((releaseImageAsyncTaskLease taskId owner now).set old) :=
  ⟨rfl, fun _ => rfl, fun h => h, fun _ => rfl⟩

theorem timedOut_due {t : Task} {minutes now' : Int}
    (h : cfg.due { timedOut t minutes now with updatedAt := now' } "" = true) :
    ∃ x, (if (!isLegacy t && decide (t.quota ≠ 0)) = true then
        some (Pending.refund (timedOut t minutes now) (timeoutReason minutes)) else none) = some x ∧
      cfg.returns x = some t.quota := by
  have hlegacy : isLegacy { timedOut t minutes now with updatedAt := now' } = isLegacy t := rfl
  simp only [Config.due, hlegacy, and_eq_true, decide_eq_true_eq] at h
  obtain ⟨⟨⟨⟨-, hl⟩, hq⟩, -⟩, hn⟩ := h
  have hq' : t.quota ≠ 0 := hq
  have hl' : isLegacy t = false := by simpa using hl
  have hreason : (timedOut t minutes now).failReason = timeoutReason minutes := by simp [timedOut, hl']
  have hn' : cfg.refundable (timedOut t minutes now) (timeoutReason minutes) "" = true := by rw [← hreason]; exact hn
  refine ⟨_, if_pos (by simp [hl', hq']), ?_⟩
  simp only [Config.returns, hn', Bool.and_true]
  rw [if_pos (by simpa using hq)]
  rfl

theorem viewStep_expire {id : Int} (h : WF distinct s) (now : Int) (ok : Bool)
    (hG : Carefully cfg G id s (.expire n now ok)) :
    ViewStep cfg G id (s.view id) ((s.expire cfg n now ok).view id) := by
  unfold expire
  split
  · exact .stay
  rename_i t rest htodo
  obtain ⟨hst, hlive⟩ := h.sweepers n t (htodo ▸ mem_cons_self)
  have hcopy : Stored s.rows (timedOut t (s.sweeper n).minutes (s.sweeper n).now) :=
    hst.copy rfl rfl
  refine viewStep_cas (s := s.setSweeper n _) (fun _ => updateWithStatus_hits) (fun x hx => ?_)
    (fun hid old hok hold hh => ?_)
  · split at hx
    · cases hx; rfl
    · cases hx
  have hstatus : old.status = t.status := (of_decide_eq_true hh).2
  have hkey : old.id = t.id := key_of_get hold
  exact {
    live := hstatus ▸ hlive
    ident := hcopy.identity_row (mem_of_get hold) hkey
    terminal := rfl
    bill := fun x hx => by
      split at hx
      · cases hx; rfl
      · cases hx
    due := fun _ hdue => timedOut_due hdue
    suno := fun hs => by
      have hkid : old.id = id := hkey.trans hid
      rw [hkid]
      exact hG t rest old htodo hid hok (hid ▸ hold) hstatus hs }

theorem viewStep_finish {id : Int} (h : WF distinct s) {t : Task} (ht : s.worker n = .working t)
    (r : ImageResult) (now : Int) (ok : Bool) (hG : Carefully cfg G id s (.finish n r now ok)) :
    ViewStep cfg G id (s.view id) (((s.setWorker n .idle).cas cfg (.worker n)
      (updateImageTaskWithLease (finishImage cfg t r now).1 (cfg.owner n) now) "" ok
      (some (finishImage cfg t r now).2)).view id) := by
  obtain ⟨hid, hi, hterm, htask, hsave⟩ := finishImage_copy cfg t r now
  have hcopy : Stored s.rows (finishImage cfg t r now).1 := (h.workers n t ht).copy hid hi
  refine viewStep_cas (s := s.setWorker n .idle) (k := t.id) (fun r' hr' => ?_) (fun x hx => ?_)
    (fun hkid old hok hold hh => ?_)
  · exact (of_decide_eq_true hr').2.1.trans hid
  · cases hx
    rw [htask, hid]
  obtain ⟨-, -, hstatus, howner⟩ := of_decide_eq_true hh
  have hkey : old.id = t.id := key_of_get hold
  exact {
    live := by rw [hstatus]; rfl
    ident := hcopy.identity_row (mem_of_get hold) (hkey.trans hid.symm)
    terminal := hterm
    bill := fun x hx => by cases hx; exact hsave
    due := fun hloop => by cases hloop
    suno := fun hs => by
      have hid' : old.id = id := hkey.trans hkid
      rw [hid']
      exact hG t old ht hkid hok (hkid ▸ hold) hstatus howner hs }

end Others

/-! ## What is pending -/

section Proceed

variable {distinct : Prop} {cfg : Config} {G : Guard} {s : World} {p : Party} {b : Pending} {e : Env}
  {ok : Bool} {id : Int}

theorem Edits.quota (t : Task) (q now : Int) : Edits t { t with quota := q, updatedAt := now } :=
  ⟨rfl, fun _ => rfl, fun h => h, fun _ => rfl⟩

theorem WF.pending_unique (h : WF distinct s) (hb : findKey p s.pending = some b)
    {x : Party × Pending} (hx : x ∈ s.pending) (hp : x.1 = p) : x = (p, b) :=
  inj_on_of_nodup_map h.parties hx (mem_of_findKey hb) hp

/-- The system once the party has taken up its work. -/
def World.taken (s : World) (p : Party) : World :=
  { s with pending := s.pending.filter fun x => decide (x.1 ≠ p) }

theorem view_taken (s : World) (p : Party) (id : Int) : (s.taken p).view id =
    { s.view id with pending := (s.view id).pending.filter fun x => decide (x.1 ≠ p) } := by
  simp only [view, taken, filter_filter]
  congr 2
  funext x
  rw [Bool.and_comm]

theorem view_taken_ne (h : WF distinct s) (hb : findKey p s.pending = some b)
    (hne : b.task.id ≠ id) : (s.taken p).view id = s.view id := by
  rw [view_taken]
  have hall : (s.view id).pending.filter (fun x => decide (x.1 ≠ p)) = (s.view id).pending := by
    refine filter_eq_self.mpr fun x hx => ?_
    obtain ⟨hx, hid⟩ := mem_filter.mp hx
    refine decide_eq_true fun hp => hne ?_
    rw [h.pending_unique hb hx hp] at hid
    exact of_decide_eq_true hid
  rw [hall]

/-- Work that is pending shows in the view of its task, as the only work of its party. -/
theorem pending_view (h : WF distinct s) (hb : findKey p s.pending = some b) :
    (p, b) ∈ (s.view b.task.id).pending ∧
    ∀ x ∈ (s.view b.task.id).pending, x.1 = p → x = (p, b) :=
  ⟨mem_filter.mpr ⟨mem_of_findKey hb, by simp⟩,
    fun _ hx hp => h.pending_unique hb (mem_filter.mp hx).1 hp⟩

theorem viewStep_billed (h : WF distinct s) (hb : findKey p s.pending = some b)
    (hsave : b.isSave = false)
    {returned : Option Int}
    (hret : b.task.id = id → G.Returns cfg b returned) {us : List TaskUpdate} (hus : QuotaOnly us) (l : Ledger) :
    ViewStep cfg G id (s.view id) (({ s.taken p with
      ledger := l
      rows := us.foldl Table.exec s.rows
      log := s.log ++ [.billed p b.task.id returned] } : World).view id) := by
  obtain ⟨q, now, hget⟩ := get_quotaOnly hus id s.rows
  have hview : ({ s.taken p with
      ledger := l
      rows := us.foldl exec s.rows
      log := s.log ++ [.billed p b.task.id returned] } : World).view id =
      ⟨(s.rows.get id).map fun old => { old with quota := q, updatedAt := now },
        (s.view id).history ++ (if b.task.id = id then [.billed p b.task.id returned] else []),
        ((s.taken p).view id).pending⟩ := by
    have hlog : ([.billed p b.task.id returned] : List Event).filter (fun x => decide (x.id = id)) =
        if b.task.id = id then [.billed p b.task.id returned] else [] := by
      by_cases hid : b.task.id = id <;> simp [Event.id, hid]
    simp [view, hget, hlog]
  rw [hview]
  by_cases hne : b.task.id = id
  · subst hne
    obtain ⟨hmem, hone⟩ := pending_view h hb
    obtain ⟨old, hold, -⟩ := (h.pending _ (mem_of_findKey hb)).1
    rw [if_pos rfl, view_taken, hold]
    exact .bill p b returned old _ hmem hone hsave (hret rfl) hold (.quota old q now)
  rw [if_neg hne, append_nil, view_taken_ne h hb hne]
  cases hold : s.rows.get id with
  | none =>
    have hsame : (⟨none, (s.view id).history, (s.view id).pending⟩ : View) = s.view id := by rw [← hold]; rfl
    rw [Option.map_none, hsame]
    exact .stay
  | some old => exact .edit old _ hold (.quota old q now)

theorem viewStep_proceed (h : WF distinct s) (hG : Carefully cfg G id s (.proceed p e ok)) :
    ViewStep cfg G id (s.view id) ((s.proceed cfg p e ok).view id) := by
  unfold proceed
  split
  · exact .stay
  rename_i b hb
  have hcare := hG b hb
  split
  · rename_i t returned
    obtain ⟨hst, hplat⟩ := h.pending _ (mem_of_findKey hb)
    by_cases hne : t.id = id
    · subst hne
      obtain ⟨hmem, hone⟩ := pending_view h hb
      obtain ⟨old, hold, hi⟩ := hst
      split
      · rename_i hok
        have hcare' := hcare rfl
        rw [CarefulPending, if_pos hok] at hcare'
        have hhit : (t.update e.now).hits old = true := decide_eq_true (key_of_get hold)
        have hv : ((s.taken p).exec cfg p (t.update e.now) "").view t.id = _ := view_exec_hit hold hhit
        rw [view_taken] at hv
        refine Eq.mpr (congrArg _ hv) ?_
        exact .save p t old returned e.now hmem hone hold hi.symm (hplat rfl) (hcare' old hold)
      · rename_i hok
        have hcare' := hcare rfl
        rw [CarefulPending, if_neg hok] at hcare'
        refine Eq.mpr (congrArg _ (view_taken s p t.id)) ?_
        exact .drop p t returned hmem hone hcare'
    · have htaken : (s.taken p).view id = s.view id := view_taken_ne h hb hne
      have hstay : ViewStep cfg G id (s.view id) ((s.taken p).view id) := by rw [htaken]; exact .stay
      split
      · have hmiss : ((s.taken p).exec cfg p (t.update e.now) "").view id = (s.taken p).view id := by
          refine view_exec_miss fun old hold => decide_eq_false fun hc => ?_
          exact hne (hc.symm.trans (key_of_get hold))
        exact Eq.mpr (congrArg _ hmiss) hstay
      · exact hstay
  · exact viewStep_billed h hb rfl (fun hid => returns_of_refund (s := s.taken p) (hcare hid)) quotaOnly_nil _
  · exact viewStep_billed h hb rfl (fun _ => .inl rfl) (settle_quotaOnly _ _ _ _ _) _
  · exact viewStep_billed h hb rfl (fun _ => .inl rfl) (recalculate_quotaOnly _ _ _ _) _

theorem viewStep_foreign {row old : Task} (hold : s.rows.get row.id = some old)
    (hi : identity row = identity old) (hG : row.id = id → G.other old row) :
    ViewStep cfg G id (s.view id) ((s.exec cfg .other (row.update row.updatedAt) "").view id) := by
  by_cases hne : row.id = id
  · subst hne
    have hhit : (row.update row.updatedAt).hits old = true := decide_eq_true (key_of_get hold)
    rw [view_exec_hit hold hhit]
    exact .other old row hold hi (hG rfl)
  have hmiss : (s.exec cfg .other (row.update row.updatedAt) "").view id = s.view id := by
    refine view_exec_miss fun old' hold' => decide_eq_false fun hc => ?_
    exact hne (hc.symm.trans (key_of_get hold'))
  rw [hmiss]
  exact .stay

end Proceed

/-- **Every careful action is one step of every task.**  For a video or image task the upstream ids
must be distinct. -/
theorem step_view {distinct : Prop} {cfg : Config} {G : Guard} {s : World} (h : WF distinct s)
    (a : Act) {id : Int} (hG : Carefully cfg G id s a)
    (hid : distinct ∨ ∃ r, s.rows.get id = some r ∧ r.platform = .suno) :
    ViewStep cfg G id (s.view id) ((s.step cfg a).view id) := by
  cases a with
  | load n limit round | sweep n minutes now | select n =>
    simp only [World.step]
    split <;> exact .stay
  | poll n e =>
    rw [World.step]
    split
    · exact viewStep_poll h hG hid
    · exact .stay
  | expire n now ok =>
    rw [World.step]
    split
    · exact viewStep_expire h now ok hG
    · exact .stay
  | claim n taskId now ok =>
    rw [World.step]
    split
    · exact viewStep_lease (edits_claim taskId (cfg.owner n) cfg.leaseDuration now [] false) id
    · exact .stay
  | release n now ok =>
    rw [World.step]
    split
    · rename_i taskId _
      exact viewStep_lease (fun old _ => edits_release taskId (cfg.owner n) now old) id
    · exact .stay
  | renew n now ok =>
    rw [World.step]
    split
    · rename_i t _
      exact viewStep_lease (fun old _ => edits_renew t.taskId (cfg.owner n) cfg.leaseDuration now old) id
    · exact .stay
  | finish n r now ok =>
    rw [World.step]
    split
    · rename_i t ht
      split
      · exact viewStep_finish h ht r now ok hG
      · exact .stay
    · exact .stay
  | proceed p e ok => exact viewStep_proceed h hG
  | foreign row =>
    rw [World.step]
    split
    · rename_i old hold
      split
      · rename_i hi
        exact viewStep_foreign hold hi fun hid => hG old hid (hid ▸ hold) hi
      · exact .stay
    · exact .stay

end NewApi.Tasks
