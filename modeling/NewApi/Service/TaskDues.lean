import NewApi.Service.TaskRefunds

/-!
# What the polling loop owes

The loop writes `FAILURE` from five places: the timeout sweep, the video update, the Suno update,
and two bulk updates by id that know nothing of billing or of the status of the row.

* `Dues` — the failures whose quota is due against the refunds under way and done; `dues_step`.
-/

namespace NewApi.Tasks

open NewApi.Billing List Bool Event

/-- A move by the loop into a failure whose quota is due. -/
def Event.dueMove : Event → Option (Party × Task)
  | .moved p _ row true => if p.isLoop then some (p, row) else none
  | _ => none

def View.dueMoves (v : View) : List (Party × Task) := v.history.filterMap Event.dueMove

/-- The loop has dealt with the failures of one task. -/
structure LoopRefunds (cfg : Config) (s : World) (id : Int) : Prop where
  exactlyOnce : ∀ p old row, Event.moved p old row true ∈ (s.view id).history → p.isLoop = true →
    (s.view id).returned = [row.quota] ∨
    (s.view id).returned = [] ∧ ∃ b, (p, b) ∈ (s.view id).pending ∧ cfg.returns b = some row.quota
  keepsSuccess : ∀ p row due, Event.moved p .success row due ∈ (s.view id).history → p.isLoop = true →
    row.status ≠ .failure

/-! ## Careful steps -/

/-- A bulk update may turn `r` into `new`: `r` has failed before, or has not succeeded and is owed
nothing. -/
def bulkCare (cfg : Config) (r new : Task) : Bool :=
  decide (r.status = .failure) || (decide (r.status ≠ .success) && !cfg.due new "")

/-- What a bulk statement does to the row of `id` is harmless. -/
def World.bulkCare (cfg : Config) (s : World) (id : Int) (u : TaskUpdate) : Bool :=
  (s.rows.get id).all fun r => !u.hits r || Tasks.bulkCare cfg r (u.set r)

/-- The row of `id` is not of a Suno task, or is unfinished without a refund under way. -/
def World.sunoFree (s : World) (id : Int) : Bool :=
  (s.rows.get id).all (fun r => decide (r.platform ≠ .suno)) || s.refundFree id

/-- Steps after which the loop owes the task `id` nothing: bulk updates of it are harmless; writes
of refunds go through; a Suno task is refunded, timed out and saved only while its row is
unfinished, and never twice at once; other writers leave terminal statuses and finished Suno
rows. -/
def loopCare (cfg : Config) (id : Int) (s : World) : Act → Bool
  | .poll n e =>
    match (s.poller n).todo with
    | .repair ids :: _ => !e.writeOk || s.bulkCare cfg id (taskBulkUpdateByID ids none e.env.now)
    | .channel platform channelId taskIds taskM :: _ =>
      e.channelOk || !e.writeOk || s.bulkCare cfg id (taskBulkUpdateByID (taskIds.filterMap fun id => findKey id taskM)
          (some (if platform = .suno then sunoChannelReason channelId else videoChannelReason channelId))
          e.env.now)
    | .item obj item :: _ =>
      match obj.bind (s.poller n).mem with
      | some task =>
        let (t, failed) := applySunoItem task item
        !(taskNeedsUpdate task item && failed && decide (t.id = id)) ||
          ((!(cfg.returns (.refund t t.failReason)).isSome || s.refundFree id) && payable e.env s.ledger t)
      | none => true
    | _ => true
  | .expire n _ ok =>
    match (s.sweeper n).todo with
    | t :: _ => !(ok && decide (t.id = id)) || s.sunoFree id
    | [] => true
  | .finish n _ _ ok =>
    match s.worker n with
    | .working t => !(ok && decide (t.id = id)) || s.sunoFree id
    | _ => true
  | .proceed p e ok =>
    match findKey p s.pending with
    | some (.save t returned) =>
      decide (t.id ≠ id) || (if ok then (s.rows.get id).any Task.unfinished else returned.isNone)
    | some (.refund t _) => decide (t.id ≠ id) || payable e s.ledger t
    | _ => true
  | .foreign row =>
    decide (row.id ≠ id) || (s.rows.get id).all fun old =>
      (!old.status.terminal || decide (row.status = old.status)) &&
        (decide (old.platform ≠ .suno) || old.unfinished || !row.unfinished)
  | _ => true

def loopGuard (cfg : Config) : Guard where
  cas v old := old.unfinished = true ∧ v.refunders = []
  bulk old new := bulkCare cfg old new = true
  prepay v old := old.unfinished = true ∧ v.refunders = []
  save old _ _ := old.unfinished = true
  drop returned := returned = none
  other old new := new.platform = old.platform ∧ (old.status.terminal = true → new.status = old.status) ∧
    (old.platform = .suno → old.unfinished = false → new.unfinished = false)
  refundsSucceed := true

theorem loopGuard_paces (cfg : Config) : Paces (loopGuard cfg) where
  cas _ _ h := h
  prepay _ _ h := h
  save _ _ _ h _ := h
  drop _ h := h
  other old new h hc := by
    obtain ⟨hplat, hterm, hsuno⟩ := h
    unfold isClosed at hc ⊢
    rw [hplat]
    split at hc
    · rename_i hs
      rw [if_pos hs, hsuno hs (by simpa using hc)]
      rfl
    rename_i hs
    rw [if_neg hs, hterm hc]
    exact hc

variable {old : Task}

section Care

variable {cfg : Config} {id : Int} {s : World}

theorem bulkOk_of_bulkCare {u : TaskUpdate} (h : s.bulkCare cfg id u = true) :
    BulkOk (loopGuard cfg) s.rows id u := by
  intro r hr hh
  simp only [World.bulkCare, hr, Option.all_some, hh, Bool.not_true, Bool.false_or] at h
  exact h

theorem sunoFree_spec (h : s.sunoFree id = true) (hold : s.rows.get id = some old)
    (hs : old.platform = .suno) : old.unfinished = true ∧ (s.view id).refunders = [] := by
  simp only [World.sunoFree, hold, Option.all_some, hs, ne_eq, not_true_eq_false, decide_false,
    Bool.false_or] at h
  exact refundFree_spec h hold

theorem carefully_of_loopCare {a : Act} (h : loopCare cfg id s a = true) :
    Carefully cfg (loopGuard cfg) id s a := by
  cases a with
  | poll n e =>
    intro w rest htodo
    simp only [loopCare, htodo] at h
    rcases w with ids | ⟨platform, channelId, taskIds, taskM⟩ | obj | ⟨obj, item⟩
    · intro hok
      simp only [hok, Bool.not_true, Bool.false_or] at h
      exact bulkOk_of_bulkCare h
    · intro hc hok
      simp only [hc, hok, Bool.not_true, Bool.false_or] at h
      exact bulkOk_of_bulkCare h
    · trivial
    intro task htask hneeds t ht hid
    simp only [htask, ht, hneeds, hid, Bool.and_self, decide_true, Bool.not_true, Bool.false_or,
      Bool.and_eq_true] at h
    obtain ⟨hfree, hpay⟩ := h
    refine ⟨fun hret old hold => ?_, fun _ => hpay⟩
    have hsome : (cfg.returns (.refund t t.failReason)).isSome = true :=
      Option.isSome_iff_ne_none.mpr hret
    simp only [hsome, Bool.not_true, Bool.false_or] at hfree
    exact refundFree_spec hfree hold
  | expire n now ok =>
    intro t rest old htodo hid hok hold _ hs
    simp only [loopCare, htodo, hid, hok, Bool.and_self, decide_true, Bool.not_true,
      Bool.false_or] at h
    exact sunoFree_spec h hold hs
  | finish n r now ok =>
    intro t old ht hid hok hold _ _ hs
    simp only [loopCare, ht, hid, hok, Bool.and_self, decide_true, Bool.not_true,
      Bool.false_or] at h
    exact sunoFree_spec h hold hs
  | proceed p e ok =>
    intro b hb hid
    simp only [loopCare, hb] at h
    cases b with
    | save t returned =>
      have htid : t.id = id := hid
      simp only [htid, ne_eq, not_true_eq_false, decide_false, Bool.false_or] at h
      simp only [CarefulPending]
      split
      · rename_i hok
        intro old hold
        rw [htid] at hold
        rw [if_pos hok, hold] at h
        exact h
      · rename_i hok
        rw [if_neg hok] at h
        exact Option.isNone_iff_eq_none.mp h
    | refund t reason =>
      have htid : t.id = id := hid
      simp only [htid, ne_eq, not_true_eq_false, decide_false, Bool.false_or] at h
      exact fun _ => h
    | settle | recalculate => trivial
  | foreign row =>
    intro old hid hold hident
    simp only [loopCare, hid, hold, ne_eq, not_true_eq_false, decide_false, Bool.false_or,
      Option.all_some, Bool.and_eq_true, Bool.or_eq_true, Bool.not_eq_true', decide_eq_true_eq] at h
    obtain ⟨hterm, hsuno⟩ := h
    refine ⟨congrArg Prod.fst hident, fun ht => ?_, fun hs hu => ?_⟩
    · rcases hterm with hl | hst
      · rw [ht] at hl; cases hl
      · exact hst
    rcases hsuno with (hns | hu') | hu'
    · exact absurd hs hns
    · rw [hu] at hu'; cases hu'
    · exact hu'
  | load | sweep | claim | select | release | renew => trivial

end Care

/-! ## The books of one task -/

/-- A failure whose quota is due is paid, or the refund is the next thing its party does. -/
inductive Settled (cfg : Config) (v : View) : Prop
  | nothing (hdue : v.dueMoves = [])
  | owed (p : Party) (row : Task) (b : Pending) (hdue : v.dueMoves = [(p, row)]) (hret : v.returned = [])
      (href : v.refunders = [(p, b)]) (hb : b.isSave = false) (hq : cfg.returns b = some row.quota)
  | paid (p : Party) (row : Task) (hdue : v.dueMoves = [(p, row)]) (hret : v.returned = [row.quota])
      (href : v.refunders = [])

structure Dues (cfg : Config) (v : View) : Prop where
  settled : Settled cfg v
  /-- A save makes no failure that is due unless the refund has come before. -/
  saves : ∀ p t returned, (p, .save t returned) ∈ v.pending → cfg.due t "" = true → returned = some t.quota
  keepsSuccess : ∀ p row due, Event.moved p .success row due ∈ v.history → p.isLoop = true → row.status ≠ .failure

section Books

variable {cfg : Config} {v : View} {old new t : Task} {p : Party} {body : String}

theorem Settled.nothing_of (h : Settled cfg v) (hret : v.returned = []) (href : v.refunders = []) :
    v.dueMoves = [] := by
  cases h with
  | nothing hdue => exact hdue
  | owed p row b _ _ href' _ _ => rw [href] at href'; cases href'
  | paid p row _ hret' _ => rw [hret] at hret'; cases hret'

theorem Settled.same (h : Settled cfg v) {v' : View} (hdue : v'.dueMoves = v.dueMoves)
    (hret : v'.returned = v.returned) (href : v'.refunders = v.refunders) : Settled cfg v' := by
  cases h with
  | nothing h1 => exact .nothing (hdue.trans h1)
  | owed p row b h1 h2 h3 hb hq => exact .owed p row b (hdue.trans h1) (hret.trans h2) (href.trans h3) hb hq
  | paid p row h1 h2 h3 => exact .paid p row (hdue.trans h1) (hret.trans h2) (href.trans h3)

theorem due_failure (h : cfg.due t body = true) : t.status = .failure := by
  simp only [Config.due, and_eq_true, decide_eq_true_eq] at h
  exact h.1.1.1.1

theorem returns_of_due (h : cfg.due t body = true) :
    cfg.returns (.refund t t.failReason) = some t.quota := by
  simp only [Config.due, and_eq_true, decide_eq_true_eq] at h
  simp [Config.returns, h.1.1.2, h.2]

theorem isRefund_of_returns {b : Pending} {q : Int} (h : cfg.returns b = some q) :
    b.isRefund = true := by
  cases b with
  | refund t reason => rfl
  | settle | recalculate | save => cases h

theorem move_dueMove (cfg : Config) (p : Party) (body : String)
    (hlive : old.status.terminal = false) :
    (move cfg p body old new).toList.filterMap Event.dueMove =
      if p.isLoop && cfg.due new body then [(p, new)] else [] := by
  unfold move
  cases hd : cfg.due new body with
  | true =>
    have hf : new.status = .failure := due_failure hd
    have hne : old.status ≠ new.status := by
      intro he
      rw [he, hf] at hlive
      cases hlive
    rw [if_pos ⟨hne, .inr (by rw [hf]; rfl)⟩]
    cases hp : p.isLoop <;> simp [dueMove, hp]
  | false =>
    split
    · simp [dueMove]
    · simp

theorem move_nothing_due (h : old.status = new.status ∨ cfg.due new body = false ∨ p.isLoop = false) :
    (move cfg p body old new).toList.filterMap Event.dueMove = [] := by
  unfold move
  split
  · rename_i hc
    rcases h with h | h | h
    · exact absurd h hc.1
    · simp [dueMove, h]
    · cases cfg.due new body <;> simp [dueMove, h]
  · rfl

theorem dueMoves_append (h : List Event) (row : Option Task) (pending : List (Party × Pending))
    (hadd : h.filterMap Event.dueMove = []) :
    (View.mk row (v.history ++ h) pending).dueMoves = v.dueMoves := by
  simp [View.dueMoves, hadd]

theorem returned_append (h : List Event) (row : Option Task) (pending : List (Party × Pending)) :
    (View.mk row (v.history ++ h) pending).returned = v.returned ++ h.filterMap Event.returned := by
  simp [View.returned]

theorem keepsSuccess_append (h : ∀ p row due, Event.moved p .success row due ∈ v.history →
      p.isLoop = true → row.status ≠ .failure) {es : List Event}
    (hes : ∀ p row due, Event.moved p .success row due ∈ es → p.isLoop = true → row.status ≠ .failure) :
    ∀ p row due, Event.moved p .success row due ∈ v.history ++ es → p.isLoop = true →
      row.status ≠ .failure := by
  intro p row due hm hloop
  rcases mem_append.mp hm with hm | hm
  · exact h p row due hm hloop
  · exact hes p row due hm hloop

theorem move_keepsSuccess (h : old.status ≠ .success ∨ old.status = new.status ∨ p.isLoop = false) :
    ∀ q row due, Event.moved q .success row due ∈ (move cfg p body old new).toList →
      q.isLoop = true →
      row.status ≠ .failure := by
  intro q row due hm hloop
  unfold move at hm
  split at hm
  · rename_i hc
    have heq : moved q .success row due = .moved p old.status new (cfg.due new body) := by simpa using hm
    simp only [moved.injEq] at heq
    obtain ⟨rfl, hs, -, -⟩ := heq
    rcases h with h | h | h
    · exact absurd hs.symm h
    · exact absurd h hc.1
    · rw [h] at hloop; cases hloop
  · cases hm

end Books

/-! ## One step -/

section Step

variable {cfg : Config} {id : Int} {v v' : View} {b : Option Pending}

theorem saves_append (h : Dues cfg v) {p : Party} (hb : ∀ x, b = some x → x.isSave = false) :
    ∀ q t returned, (q, .save t returned) ∈ v.pending ++ (b.map fun x => (p, x)).toList →
      cfg.due t "" = true → returned = some t.quota := by
  intro q t returned hm hdue
  rcases mem_append.mp hm with hm | hm
  · exact h.saves q t returned hm hdue
  cases b with
  | none => cases hm
  | some x =>
    have heq : (q, Pending.save t returned) = (p, x) := by simpa using hm
    cases heq
    cases hb _ rfl

theorem saves_filter (h : Dues cfg v) (p : Party) :
    ∀ q t returned, (q, .save t returned) ∈ v.pending.filter (fun x => decide (x.1 ≠ p)) →
      cfg.due t "" = true → returned = some t.quota :=
  fun q t returned hm => h.saves q t returned (mem_filter.mp hm).1

theorem dueMoves_move (cfg : Config) (p : Party) (body : String) (new : Task)
    (pending : List (Party × Pending)) (hlive : old.status.terminal = false)
    (hnothing : v.dueMoves = []) :
    (View.mk (some new) (v.history ++ (move cfg p body old new).toList) pending).dueMoves =
      if p.isLoop && cfg.due new body then [(p, new)] else [] := by
  rw [← move_dueMove cfg p body hlive]
  simp only [View.dueMoves, filterMap_append] at hnothing ⊢
  rw [hnothing, nil_append]

theorem ne_success_of_live (hlive : old.status.terminal = false) : old.status ≠ .success := by
  intro hs
  rw [hs] at hlive
  cases hlive

variable {returned : Option Int}

section Careful

variable (hphase : Phase v) (h : Dues cfg v) {p : Party}

include hphase h

theorem dues_cas {body : String} {new : Task} (hrow : v.row = some old)
    (hlive : old.status.terminal = false) (hbill : ∀ x, b = some x → x.isSave = false)
    (hdue : p.isLoop = true → cfg.due new body = true → ∃ x, b = some x ∧ cfg.returns x = some new.quota)
    (hcas : old.platform = .suno → (loopGuard cfg).cas v old) :
    Dues cfg ⟨some new, v.history ++ (move cfg p body old new).toList,
      v.pending ++ (b.map fun x => (p, x)).toList⟩ := by
  obtain ⟨hret, href⟩ := hphase.live (loopGuard_paces cfg) hrow hlive hcas
  have hdues := dueMoves_move cfg p body new (v.pending ++ (b.map fun x => (p, x)).toList) hlive
    (h.settled.nothing_of hret href)
  refine ⟨?_, saves_append h hbill,
    keepsSuccess_append h.keepsSuccess (move_keepsSuccess (.inl (ne_success_of_live hlive)))⟩
  rcases hc : p.isLoop && cfg.due new body with _ | _
  · rw [hc] at hdues
    exact .nothing hdues
  rw [hc] at hdues
  simp only [and_eq_true] at hc
  obtain ⟨x, hx, hq⟩ := hdue hc.1 hc.2
  refine .owed p new x hdues ?_ ?_ (hbill x hx) hq
  · rw [returned_append, returned_move, hret]
    rfl
  · rw [refunders_append href, hx]
    simp [isRefund_of_returns hq]

theorem dues_prepay {t : Task} {called : Bool} (hrow : v.row = some old)
    (hident : identity t = identity old) (hsuno : t.platform = .suno)
    (hskip : called = false → returned = none ∧ t.status ≠ .failure)
    (hcall : called = true → returned = cfg.returns (.refund t t.failReason))
    (hpre : returned ≠ none → (loopGuard cfg).prepay v old) :
    Dues cfg ⟨v.row, v.history ++ (if called then [.billed p id returned] else []),
      v.pending ++ [(p, .save t returned)]⟩ := by
  have hold : old.platform = .suno := (congrArg Prod.fst hident).symm.trans hsuno
  have hbilled : (if called then [billed p id returned] else []).filterMap dueMove = [] := by split <;> rfl
  refine ⟨?_, ?_, keepsSuccess_append h.keepsSuccess ?_⟩
  · cases returned with
    | none =>
      refine h.settled.same (dueMoves_append _ _ _ hbilled) ?_ ?_
      · rw [returned_append]
        have hnil : (if called then [billed p id none] else []).filterMap returned = [] := by split <;> rfl
        rw [hnil, append_nil]
      · simp only [View.refunders, filter_append]
        exact append_nil _
    | some q =>
      -- nothing is due before the refund, and the refund alone moves nothing
      obtain ⟨hopen, href⟩ := hpre (by simp)
      have hret := hphase.untouched_of hrow (by rw [closed_suno hold, hopen]; rfl) href
      exact .nothing ((dueMoves_append _ _ _ hbilled).trans (h.settled.nothing_of hret href))
  · intro q t' returned' hm hdue
    rcases mem_append.mp hm with hm | hm
    · exact h.saves q t' returned' hm hdue
    have heq : (q, Pending.save t' returned') = (p, .save t returned) := by simpa using hm
    cases heq
    cases hc : called with
    | false => exact absurd (due_failure hdue) (hskip hc).2
    | true => rw [hcall hc, returns_of_due hdue]
  · intro q row due hm
    split at hm
    · cases mem_singleton.mp hm
    · cases hm

theorem dues_save {t : Task} {now : Int} (hmem : (p, .save t returned) ∈ v.pending)
    (hone : ∀ x ∈ v.pending, x.1 = p → x = (p, .save t returned))
    (hopen : old.unfinished = true) :
    Dues cfg ⟨some { t with updatedAt := now }, v.history ++ (move cfg p "" old { t with updatedAt := now }).toList,
      v.pending.filter fun x => decide (x.1 ≠ p)⟩ := by
  have hlive := unfinished_not_terminal hopen
  have hdue : cfg.due { t with updatedAt := now } "" = cfg.due t "" := rfl
  refine ⟨?_, saves_filter h p, keepsSuccess_append h.keepsSuccess (move_keepsSuccess (.inl ?_))⟩
  · cases returned with
    | none =>
      have hnot : cfg.due t "" = false := by
        rw [eq_false_iff]
        intro hd
        cases h.saves p t none hmem hd
      refine h.settled.same (dueMoves_append _ _ _ (move_nothing_due (.inr (.inl (hdue.trans hnot))))) ?_
        (refunders_keep hone rfl)
      rw [returned_append, returned_move, append_nil]
    | some q =>
      obtain ⟨hq, href, -⟩ := hphase.prepaid_of hmem
      have hnothing : v.dueMoves = [] := by
        cases h.settled with
        | nothing hd => exact hd
        | owed p' row b _ hret' _ _ _ => rw [hq] at hret'; cases hret'
        | paid p' row _ _ href' => rw [href] at href'; cases href'
      have hdues := dueMoves_move cfg p "" { t with updatedAt := now } (v.pending.filter fun x => decide (x.1 ≠ p)) hlive
        hnothing
      rw [hdue] at hdues
      rcases hc : p.isLoop && cfg.due t "" with _ | _
      · rw [hc] at hdues
        exact .nothing hdues
      rw [hc] at hdues
      simp only [and_eq_true] at hc
      refine .paid p { t with updatedAt := now } hdues ?_ (refunders_drop hmem rfl href).2
      rw [returned_append, returned_move, append_nil, hq]
      cases h.saves p t (some q) hmem hc.2
      rfl
  · exact ne_success_of_live hlive

theorem dues_bill {b : Pending} {new : Task} (hmem : (p, b) ∈ v.pending)
    (hone : ∀ x ∈ v.pending, x.1 = p → x = (p, b)) (hb : b.isSave = false) (hret : returned = cfg.returns b) :
    Dues cfg ⟨some new, v.history ++ [.billed p id returned],
      v.pending.filter fun x => decide (x.1 ≠ p)⟩ := by
  have hreturned : (View.mk (some new) (v.history ++ [.billed p id returned])
      (v.pending.filter fun x => decide (x.1 ≠ p))).returned = v.returned ++ (cfg.returns b).toList := by
    rw [returned_append, hret]
    cases cfg.returns b <;> rfl
  refine ⟨?_, saves_filter h p, keepsSuccess_append h.keepsSuccess ?_⟩
  · cases hr : b.isRefund with
    | true =>
      obtain ⟨hnone, href, -⟩ := hphase.owed_of hmem hr hb
      have hdrop := (refunders_drop hmem hr href).2
      cases h.settled with
      | nothing hd => exact .nothing ((dueMoves_append _ _ _ rfl).trans hd)
      | owed p' row b' hd _ href' _ hq =>
        rw [href] at href'
        cases href'
        refine .paid p row ((dueMoves_append _ _ _ rfl).trans hd) ?_ hdrop
        rw [hreturned, hnone, hq]
        rfl
      | paid p' row _ hret' _ => rw [hnone] at hret'; cases hret'
    | false =>
      have hq : cfg.returns b = none := by
        cases hq : cfg.returns b with
        | none => rfl
        | some q => rw [isRefund_of_returns hq] at hr; cases hr
      refine h.settled.same (dueMoves_append _ _ _ rfl) ?_ (refunders_keep hone hr)
      rw [hreturned, hq]
      exact append_nil _
  · intro q row due hm
    cases mem_singleton.mp hm

end Careful

theorem returns_of_succeed {b : Pending} (h : (loopGuard cfg).Returns cfg b returned) :
    returned = cfg.returns b := by
  rcases h with h | ⟨h, -⟩
  · exact h
  · cases h

/-- **Every careful step keeps the books of a task.** -/
theorem dues_step (hphase : Phase v) (h : Dues cfg v) (hs : ViewStep cfg (loopGuard cfg) id v v') :
    Dues cfg v' := by
  cases hs with
  | stay => exact h
  | cas p body old new b hrow hlive hident hbill hdue hcas =>
    exact dues_cas hphase h hrow hlive (fun x hx => (hbill x hx).2) hdue fun hs => (hcas hs).2
  | bulk p old new hrow hident hnew hbulk =>
    have hcare : old.status = .failure ∨ old.status ≠ .success ∧ cfg.due new "" = false := by
      simpa [loopGuard, bulkCare] using hbulk
    have hstatus : old.status = .failure → old.status = new.status := fun hf => hf.trans hnew.1.symm
    refine ⟨h.settled.same (dueMoves_append _ _ _ (move_nothing_due ?_)) ?_ rfl, h.saves,
      keepsSuccess_append h.keepsSuccess (move_keepsSuccess ?_)⟩
    · rcases hcare with hf | ⟨-, hd⟩
      · exact .inl (hstatus hf)
      · exact .inr (.inl hd)
    · rw [returned_append, returned_move, append_nil]
    rcases hcare with hf | ⟨hne, -⟩
    · exact .inr (.inl (hstatus hf))
    · exact .inl hne
  | edit old new hrow hedit => exact ⟨h.settled.same rfl rfl rfl, h.saves, h.keepsSuccess⟩
  | prepay p t old called returned hrow hident hsuno hskip hcall hpre =>
    exact dues_prepay hphase h hrow hident hsuno hskip (fun hc => returns_of_succeed (hcall hc).1) hpre
  | save p t old returned now hmem hone hrow hident hsuno hsave => exact dues_save hphase h hmem hone hsave
  | drop p t returned hmem hone hdrop =>
    have hnone : returned = none := hdrop
    refine ⟨h.settled.same rfl rfl (refunders_keep hone ?_), saves_filter h p, h.keepsSuccess⟩
    rw [hnone]
    rfl
  | bill p b returned old new hmem hone hb hret hrow hedit =>
    exact dues_bill hphase h hmem hone hb (returns_of_succeed hret)
  | other old new hrow hident hother =>
    refine ⟨h.settled.same (dueMoves_append _ _ _ (move_nothing_due (.inr (.inr rfl)))) ?_ rfl,
      h.saves, keepsSuccess_append h.keepsSuccess (move_keepsSuccess (.inr (.inr rfl)))⟩
    rw [returned_append, returned_move, append_nil]

end Step

theorem Dues.loopRefunds {cfg : Config} {s : World} {id : Int} (h : Dues cfg (s.view id)) :
    LoopRefunds cfg s id := by
  refine ⟨fun p old row hm hloop => ?_, h.keepsSuccess⟩
  have hdue : (p, row) ∈ (s.view id).dueMoves :=
    mem_filterMap.mpr ⟨_, hm, by simp [dueMove, hloop]⟩
  cases h.settled with
  | nothing hnone => rw [hnone] at hdue; cases hdue
  | owed p' row' b hone hret href hb hq =>
    rw [hone] at hdue
    cases mem_singleton.mp hdue
    refine .inr ⟨hret, b, ?_, hq⟩
    have hb' : (p, b) ∈ (s.view id).refunders := by rw [href]; exact mem_singleton_self _
    exact (mem_filter.mp hb').1
  | paid p' row' hone hret _ =>
    rw [hone] at hdue
    cases mem_singleton.mp hdue
    exact .inl hret

/-- **Careful steps return what the loop owes exactly once** and leave successes alone, whatever
other writers do in between. -/
theorem loop_refunds_exactly_once (cfg : Config) (rows : TaskTable) (ledger : Ledger)
    (acts : List Act) (hd : DistinctUpstream rows.rows) (id : Int)
    (hcare : Guarded (World.step cfg) (fun s a => loopCare cfg id s a = true) (World.start rows ledger) acts) :
    LoopRefunds cfg ((World.start rows ledger).run cfg acts) id := by
  have hinv : WF True ((World.start rows ledger).run cfg acts) ∧
      Phase (((World.start rows ledger).run cfg acts).view id) ∧
      Dues cfg (((World.start rows ledger).run cfg acts).view id) := by
    refine Guarded.invariant (P := fun s => WF True s ∧ Phase (s.view id) ∧ Dues cfg (s.view id)) ?_ hcare
      ⟨.start rows ledger fun _ => hd, .untouched rfl rfl, .nothing rfl, ?_, ?_⟩
    · rintro s a hok ⟨hwf, hphase, hdues⟩
      have hstep := step_view hwf a (carefully_of_loopCare hok) (.inl trivial)
      exact ⟨wf_step hwf a, phase_step (loopGuard_paces cfg) hphase hstep,
        dues_step hphase hdues hstep⟩
    · intro p t returned hm
      cases hm
    · intro p row due hm
      cases hm
  exact hinv.2.2.loopRefunds

/-! ## Runs of one task -/

def videoAnswer (channelOk : Bool) (status : TaskStatus) : PollEnv where
  env := quietEnv
  writeOk := true
  channelOk := channelOk
  adaptorOk := true
  suno := none
  video := .result ⟨status, "rejected", "", "", none, 0, none⟩ "" ""

def oneTask (t : Task) : TaskTable := ⟨[t], by simp⟩

def loadOne (n : Nat) (t : Task) : Act :=
  .load n 1000 (plan (getAllUnFinishSyncTasks (oneTask t) 1000))

def runOne (t : Task) (acts : List Act) : World :=
  (World.start (oneTask t) smallLedger).run refundingConfig acts

/-- The upstream reports a failure, a second poller and the sweeper come too late. -/
def failedRun : List Act :=
  [loadOne 0 (sampleTask 1 7 "a"), loadOne 1 (sampleTask 1 7 "a"), .sweep 0 30 1900000000,
    .poll 0 (videoAnswer true .failure), .poll 0 (videoAnswer true .failure), .expire 0 1900000001 true,
    .poll 1 (videoAnswer true .failure), .poll 1 (videoAnswer true .failure),
    .proceed (.poller 0) quietEnv true]

theorem failed_run_refunds_once : LoopRefunds refundingConfig (runOne (sampleTask 1 7 "a") failedRun) 1 ∧
    ((runOne (sampleTask 1 7 "a") failedRun).view 1).returned = [100] := by
  refine ⟨?_, by decide⟩
  exact loop_refunds_exactly_once refundingConfig (oneTask (sampleTask 1 7 "a")) smallLedger failedRun
    (by decide) 1 (by decide)

/-- A task that was stored without an upstream id. -/
def lostTask : Task := { sampleTask 1 7 "" with taskId := "" }

/-- The first poller finds the channel gone after the second one has completed the task. -/
def overtakenRun : List Act :=
  [loadOne 0 (sampleTask 1 7 "a"), loadOne 1 (sampleTask 1 7 "a"), .poll 1 (videoAnswer true .success),
    .poll 1 (videoAnswer true .success), .proceed (.poller 1) quietEnv true,
    .poll 0 (videoAnswer false .success)]

/-- The repair fails a task with quota 100 and nobody refunds it; and a bulk update turns a settled
success into a failure. -/
theorem bulk_failure_keeps_quota :
    (((runOne lostTask [loadOne 0 lostTask, .poll 0 (videoAnswer true .failure)]).view 1).dueMoves.length = 1 ∧
      (runOne lostTask [loadOne 0 lostTask, .poll 0 (videoAnswer true .failure)]).pending = [] ∧
      ¬ LoopRefunds refundingConfig (runOne lostTask [loadOne 0 lostTask, .poll 0 (videoAnswer true .failure)]) 1) ∧
    ¬ LoopRefunds refundingConfig (runOne (sampleTask 1 7 "a") overtakenRun) 1 := by
  refine ⟨⟨by decide, by decide, fun h => ?_⟩, fun h => ?_⟩
  · have hdue : moved (.poller 0) .inProgress
        { lostTask with status := .failure, progress := "100%", updatedAt := 50 } true ∈
        ((runOne lostTask [loadOne 0 lostTask, .poll 0 (videoAnswer true .failure)]).view 1).history := by
      decide
    rcases h.exactlyOnce _ _ _ hdue rfl with hret | ⟨-, b, hb, -⟩
    · revert hret
      decide
    cases hb
  · have hflip : moved (.poller 0) .success
        { sampleTask 1 7 "a" with
          status := .failure
          progress := "100%"
          failReason := videoChannelReason 7
          finishTime := 50
          resultUrl := buildProxyURL refundingConfig "task_a"
          updatedAt := 50 } true ∈ ((runOne (sampleTask 1 7 "a") overtakenRun).view 1).history := by
      decide
    exact h.keepsSuccess _ _ _ hflip rfl rfl

end NewApi.Tasks
