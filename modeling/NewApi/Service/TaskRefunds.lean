import NewApi.Service.TaskRefinement

/-!
# How often a quota is returned

A Suno task is refunded before its row is written, and the write has no condition: nothing in the
database keeps a second poller, the sweeper or the next round from refunding again.

* `Paces` — what a guard must ask for to keep a task in these phases; `phase_step`.
-/

namespace NewApi.Tasks

open NewApi.Billing List Event

/-- Where the refund of a task stands. -/
inductive Phase (v : View) : Prop
  | untouched (hret : v.returned = []) (href : v.refunders = [])
  /-- A write has moved the task, its refund comes next. -/
  | owed (p : Party) (b : Pending) (hret : v.returned = []) (href : v.refunders = [(p, b)])
      (hb : b.isSave = false) (hclosed : v.closed = true)
  /-- A poller has refunded a Suno task and has to save it. -/
  | prepaid (p : Party) (t : Task) (q : Int) (hret : v.returned = [q])
      (href : v.refunders = [(p, .save t (some q))]) (ht : t.unfinished = false)
      (hsuno : ∃ row, v.row = some row ∧ row.platform = .suno)
  | paid (hret : v.returned.length ≤ 1) (href : v.refunders = []) (hclosed : v.closed = true)

theorem Phase.returned_once {v : View} (h : Phase v) : v.returned.length ≤ 1 := by
  cases h with
  | untouched hret _ | owed _ _ hret _ _ _ => rw [hret]; exact Nat.zero_le 1
  | prepaid _ _ _ hret _ _ _ => rw [hret]; exact Nat.le_refl 1
  | paid hret _ _ => exact hret

/-- What a guard must ask for. -/
structure Paces (G : Guard) : Prop where
  cas : ∀ v old, G.cas v old → old.unfinished = true ∧ v.refunders = []
  prepay : ∀ v old, G.prepay v old → old.unfinished = true ∧ v.refunders = []
  save : ∀ old t returned, G.save old t returned → t.unfinished = true → old.unfinished = true
  drop : ∀ returned, G.drop returned → returned = none
  other : ∀ old new, G.other old new → isClosed old = true → isClosed new = true

/-! ## Lemmas on views -/

section Views

variable {v : View} {old new : Task} {p : Party} {b : Pending} {l : List (Party × Pending)}

theorem closed_suno (h : old.platform = .suno) : isClosed old = !old.unfinished := by
  unfold isClosed
  rw [if_pos h]

theorem View.closed_row (hrow : v.row = some old) : v.closed = isClosed old := by
  unfold View.closed
  rw [hrow]
  rfl

theorem not_closed_of_live (hlive : old.status.terminal = false)
    (hsuno : old.platform = .suno → old.unfinished = true) : isClosed old = false := by
  unfold isClosed
  split
  · rename_i hs; rw [hsuno hs]; rfl
  · exact hlive

theorem closed_of_terminal (h : new.status.terminal = true) : isClosed new = true := by
  unfold isClosed
  split
  · cases hu : new.unfinished with
    | false => rfl
    | true => rw [unfinished_not_terminal hu] at h; cases h
  · exact h

theorem Edits.closed (h : Edits old new) (hc : isClosed old = true) : isClosed new = true := by
  have hplat : new.platform = old.platform := congrArg Prod.fst h.ident
  unfold isClosed at hc ⊢
  rw [hplat]
  split at hc
  · rename_i hs
    rw [if_pos hs, h.suno hs]
    exact hc
  rename_i hs
  rw [if_neg hs, h.terminal hc]
  exact hc

theorem returned_move (cfg : Config) (p : Party) (body : String) (old new : Task) :
    (move cfg p body old new).toList.filterMap Event.returned = [] := by
  unfold move
  split <;> rfl

theorem refunders_keep (hone : ∀ x ∈ l, x.1 = p → x = (p, b)) (hb : b.isRefund = false) :
    (l.filter fun x => decide (x.1 ≠ p)).filter (fun x => x.2.isRefund) =
      l.filter fun x => x.2.isRefund := by
  rw [filter_filter]
  refine filter_congr fun x hx => ?_
  cases hr : x.2.isRefund with
  | false => rfl
  | true =>
    refine decide_eq_true fun hp => ?_
    rw [hone x hx hp] at hr
    rw [hb] at hr
    cases hr

theorem refunders_drop (hmem : (p, b) ∈ l) (hb : b.isRefund = true) {x : Party × Pending}
    (h : l.filter (fun x => x.2.isRefund) = [x]) :
    x = (p, b) ∧ (l.filter fun x => decide (x.1 ≠ p)).filter (fun x => x.2.isRefund) = [] := by
  have hx : (p, b) ∈ l.filter fun x => x.2.isRefund := mem_filter.mpr ⟨hmem, hb⟩
  rw [h] at hx
  have heq : x = (p, b) := (mem_singleton.mp hx).symm
  refine ⟨heq, ?_⟩
  rw [filter_comm, h, heq]
  simp

theorem mem_refunders (hmem : (p, b) ∈ v.pending) (hb : b.isRefund = true) : (p, b) ∈ v.refunders :=
  mem_filter.mpr ⟨hmem, hb⟩

end Views

/-! ## One step -/

variable {old : Task}

section Step

variable {cfg : Config} {G : Guard} {id : Int} {v v' : View}

theorem Phase.row (h : Phase v) {row' : Option Task} {history' : List Event}
    {pending' : List (Party × Pending)} (hret : history'.filterMap Event.returned = v.returned)
    (href : (pending'.filter fun x => x.2.isRefund) = v.refunders)
    (hclosed : v.closed = true → (View.mk row' history' pending').closed = true)
    (hsuno : (∃ row, v.row = some row ∧ row.platform = .suno) →
      ∃ row, row' = some row ∧ row.platform = .suno) : Phase ⟨row', history', pending'⟩ := by
  cases h with
  | untouched h1 h2 => exact .untouched (hret.trans h1) (href.trans h2)
  | owed p b h1 h2 hb hc => exact .owed p b (hret.trans h1) (href.trans h2) hb (hclosed hc)
  | prepaid p t q h1 h2 ht hs => exact .prepaid p t q (hret.trans h1) (href.trans h2) ht (hsuno hs)
  | paid h1 h2 hc =>
    refine .paid ?_ (href.trans h2) (hclosed hc)
    exact (congrArg length hret).trans_le h1

theorem suno_of_ident {new : Task} (hrow : v.row = some old) (hident : identity new = identity old)
    (h : ∃ row, v.row = some row ∧ row.platform = .suno) : ∃ row, some new = some row ∧
      row.platform = .suno := by
  obtain ⟨row, hr, hs⟩ := h
  rw [hrow] at hr
  cases hr
  exact ⟨new, rfl, (congrArg Prod.fst hident).trans hs⟩

theorem Phase.untouched_of (h : Phase v) (hrow : v.row = some old)
    (hopen : isClosed old = false) (href : v.refunders = []) : v.returned = [] := by
  have hc : v.closed = false := (View.closed_row hrow).trans hopen
  cases h with
  | untouched hret _ | owed p b hret _ _ _ => exact hret
  | prepaid p t q _ href' _ _ => rw [href] at href'; cases href'
  | paid _ _ hclosed => rw [hc] at hclosed; cases hclosed

theorem Phase.live (hG : Paces G) (h : Phase v) (hrow : v.row = some old)
    (hlive : old.status.terminal = false) (hcas : old.platform = .suno → G.cas v old) :
    v.returned = [] ∧ v.refunders = [] := by
  have hopen : isClosed old = false := not_closed_of_live hlive fun hs => (hG.cas v old (hcas hs)).1
  have hc : v.closed = false := (View.closed_row hrow).trans hopen
  -- an open row is not owed anything, and prepaid only if it is a Suno task
  have href : v.refunders = [] := by
    cases h with
    | untouched _ href | paid _ href _ => exact href
    | owed p b _ _ _ hclosed => rw [hc] at hclosed; cases hclosed
    | prepaid p t q _ _ _ hs =>
      obtain ⟨row, hr, hs⟩ := hs
      rw [hrow] at hr
      cases hr
      exact (hG.cas v old (hcas hs)).2
  exact ⟨h.untouched_of hrow hopen href, href⟩

theorem refunders_append (href : v.refunders = []) (row : Option Task) (history : List Event)
    (xs : List (Party × Pending)) :
    (View.mk row history (v.pending ++ xs)).refunders = xs.filter fun x => x.2.isRefund := by
  have hnil : v.pending.filter (fun x => x.2.isRefund) = [] := href
  simp [View.refunders, hnil]

variable {p : Party}

theorem phase_cas (hG : Paces G) (h : Phase v) {body : String} {new : Task}
    {b : Option Pending} (hrow : v.row = some old) (hlive : old.status.terminal = false)
    (hbill : ∀ x, b = some x → new.status.terminal = true ∧ x.isSave = false)
    (hcas : old.platform = .suno → G.cas v old) :
    Phase ⟨some new, v.history ++ (move cfg p body old new).toList,
      v.pending ++ (b.map fun x => (p, x)).toList⟩ := by
  obtain ⟨hnone, href⟩ := h.live hG hrow hlive hcas
  have hret : (v.history ++ (move cfg p body old new).toList).filterMap returned = [] := by
    rw [filterMap_append, returned_move, append_nil]
    exact hnone
  have hpending := refunders_append href (some new) (v.history ++ (move cfg p body old new).toList)
    (b.map fun x => (p, x)).toList
  rcases b with _ | x
  · exact .untouched hret hpending
  obtain ⟨hterm, hsave⟩ := hbill x rfl
  cases hx : x.isRefund with
  | true =>
    refine .owed p x hret (hpending.trans ?_) hsave (closed_of_terminal hterm)
    simp [hx]
  | false =>
    refine .untouched hret (hpending.trans ?_)
    simp [hx]

variable {returned : Option Int}

theorem phase_prepay (hG : Paces G) (h : Phase v) {t : Task} {called : Bool}
    (hrow : v.row = some old) (hident : identity t = identity old) (hsuno : t.platform = .suno)
    (hskip : called = false → returned = none) (hcall : called = true → t.unfinished = false) (hpre : returned ≠ none → G.prepay v old) :
    Phase ⟨v.row, v.history ++ (if called then [.billed p id returned] else []),
      v.pending ++ [(p, .save t returned)]⟩ := by
  have hold : old.platform = .suno := (congrArg Prod.fst hident).symm.trans hsuno
  cases returned with
  | none =>
    refine h.row ?_ ?_ (fun hc => hc) (fun hs => hs)
    · rw [filterMap_append]
      have hnil : (if called then [billed p id none] else []).filterMap returned = [] := by split <;> rfl
      rw [hnil, append_nil]
      rfl
    · rw [filter_append]
      exact append_nil _
  | some q =>
    obtain ⟨hopen, href⟩ := hG.prepay v old (hpre (by simp))
    have hcalled : called = true := by
      cases called with
      | true => rfl
      | false => cases hskip rfl
    have hnone := h.untouched_of hrow (by rw [closed_suno hold, hopen]; rfl) href
    refine .prepaid p t q ?_ ?_ (hcall hcalled) ⟨old, hrow, hold⟩
    · rw [hcalled]
      have : v.history.filterMap returned = [] := hnone
      simp [View.returned, this, returned]
    · exact refunders_append href _ _ _

theorem Phase.prepaid_of (h : Phase v) {t : Task} {q : Int}
    (hmem : (p, .save t (some q)) ∈ v.pending) :
    v.returned = [q] ∧ v.refunders = [(p, .save t (some q))] ∧ t.unfinished = false := by
  have hx : (p, Pending.save t (some q)) ∈ v.refunders := mem_refunders hmem rfl
  cases h with
  | untouched _ href | paid _ href _ => rw [href] at hx; cases hx
  | owed p' b _ href hb _ =>
    rw [href] at hx
    cases mem_singleton.mp hx
    cases hb
  | prepaid p' t' q' hret href ht _ =>
    rw [href] at hx
    cases mem_singleton.mp hx
    exact ⟨hret, href, ht⟩

theorem Phase.owed_of (h : Phase v) {b : Pending} (hmem : (p, b) ∈ v.pending)
    (hb : b.isRefund = true) (hsave : b.isSave = false) :
    v.returned = [] ∧ v.refunders = [(p, b)] ∧ v.closed = true := by
  have hx : (p, b) ∈ v.refunders := mem_refunders hmem hb
  cases h with
  | untouched _ href | paid _ href _ => rw [href] at hx; cases hx
  | owed p' b' hret href _ hc =>
    rw [href] at hx
    cases mem_singleton.mp hx
    exact ⟨hret, href, hc⟩
  | prepaid p' t' q' _ href _ _ =>
    rw [href] at hx
    cases mem_singleton.mp hx
    cases hsave

theorem phase_save (hG : Paces G) (h : Phase v) {t : Task} {now : Int}
    (hmem : (p, .save t returned) ∈ v.pending)
    (hone : ∀ x ∈ v.pending, x.1 = p → x = (p, .save t returned)) (hrow : v.row = some old)
    (hident : identity t = identity old) (hsuno : t.platform = .suno)
    (hsave : G.save old t returned) :
    Phase ⟨some { t with updatedAt := now }, v.history ++ (move cfg p "" old { t with updatedAt := now }).toList,
      v.pending.filter fun x => decide (x.1 ≠ p)⟩ := by
  have hret : (v.history ++ (move cfg p "" old { t with updatedAt := now }).toList).filterMap
      Event.returned = v.returned := by
    rw [filterMap_append, returned_move, append_nil]
    rfl
  have hold : old.platform = .suno := (congrArg Prod.fst hident).symm.trans hsuno
  have hnew : isClosed { t with updatedAt := now } = !t.unfinished := closed_suno hsuno
  cases returned with
  | none =>
    refine h.row hret (refunders_keep hone rfl) (fun hc => ?_) (suno_of_ident hrow hident)
    -- a closed row is not reopened
    rw [View.closed_row hrow, closed_suno hold] at hc
    rw [View.closed_row rfl, hnew]
    cases ht : t.unfinished with
    | false => rfl
    | true => rw [hG.save old t none hsave ht] at hc; cases hc
  | some q =>
    obtain ⟨hq, href, ht⟩ := h.prepaid_of hmem
    refine .paid ?_ (refunders_drop hmem rfl href).2 ?_
    · exact (congrArg length (hret.trans hq)).le
    · rw [View.closed_row rfl, hnew, ht]
      rfl

theorem phase_bill (h : Phase v) {b : Pending} {new : Task}
    (hmem : (p, b) ∈ v.pending)
    (hone : ∀ x ∈ v.pending, x.1 = p → x = (p, b)) (hb : b.isSave = false)
    (hret : G.Returns cfg b returned) (hrow : v.row = some old) (hedit : Edits old new) :
    Phase ⟨some new, v.history ++ [.billed p id returned],
      v.pending.filter fun x => decide (x.1 ≠ p)⟩ := by
  have happend : (v.history ++ [Event.billed p id returned]).filterMap Event.returned =
      v.returned ++ returned.toList := by
    rw [filterMap_append]
    cases returned <;> rfl
  have hclosed : v.closed = true → isClosed new = true := by
    intro hc
    rw [View.closed_row hrow] at hc
    exact hedit.closed hc
  cases hr : b.isRefund with
  | true =>
    obtain ⟨hnone, href, hc⟩ := h.owed_of hmem hr hb
    refine .paid ?_ (refunders_drop hmem hr href).2 (hclosed hc)
    rw [View.returned, happend, hnone]
    cases returned with
    | none => exact Nat.zero_le 1
    | some q => exact Nat.le_refl 1
  | false =>
    have hnone : returned = none := by
      have hb' : cfg.returns b = none := by
        cases b with
        | refund t reason => cases hr
        | settle | recalculate => rfl
        | save t r => cases hb
      rcases hret with hret | ⟨-, hret⟩
      · rw [hret, hb']
      · exact hret
    refine h.row ?_ (refunders_keep hone hr) hclosed (suno_of_ident hrow hedit.ident)
    rw [happend, hnone]
    exact append_nil _

/-- **Under a guard that paces refunds a task goes through its phases in order.** -/
theorem phase_step (hG : Paces G) (h : Phase v) (hs : ViewStep cfg G id v v') : Phase v' := by
  cases hs with
  | stay => exact h
  | cas p body old new b hrow hlive hident hbill hdue hcas => exact phase_cas hG h hrow hlive hbill fun hs => (hcas hs).2
  | bulk p old new hrow hident hnew hbulk =>
    refine h.row ?_ rfl (fun _ => closed_of_terminal (by rw [hnew.1]; rfl)) (suno_of_ident hrow hident)
    rw [filterMap_append, returned_move, append_nil]
    rfl
  | edit old new hrow hedit =>
    refine h.row rfl rfl (fun hc => ?_) (suno_of_ident hrow hedit.ident)
    rw [View.closed_row hrow] at hc
    exact hedit.closed hc
  | prepay p t old called returned hrow hident hsuno hskip hcall hpre =>
    exact phase_prepay hG h hrow hident hsuno (fun hc => (hskip hc).1) (fun hc => (hcall hc).2) hpre
  | save p t old returned now hmem hone hrow hident hsuno hsave =>
    exact phase_save hG h hmem hone hrow hident hsuno hsave
  | drop p t returned hmem hone hdrop =>
    have hnone := hG.drop returned hdrop
    refine h.row rfl (refunders_keep hone ?_) (fun hc => hc) (fun hs => hs)
    rw [hnone]
    rfl
  | bill p b returned old new hmem hone hb hret hrow hedit => exact phase_bill h hmem hone hb hret hrow hedit
  | other old new hrow hident hother =>
    refine h.row ?_ rfl (fun hc => ?_) (suno_of_ident hrow hident)
    · rw [filterMap_append, returned_move, append_nil]
      rfl
    · rw [View.closed_row hrow] at hc
      exact hG.other old new hother hc

theorem viewStep_ident (hs : ViewStep cfg G id v v') (hrow : v.row = some old) :
    ∃ new, v'.row = some new ∧ identity new = identity old := by
  have hkeep : ∀ {old' new : Task}, v.row = some old' → identity new = identity old' →
      ∃ x, some new = some x ∧ identity x = identity old := by
    intro old' new hrow' hident
    rw [hrow] at hrow'
    cases hrow'
    exact ⟨new, rfl, hident⟩
  cases hs with
  | stay | prepay _ _ _ _ _ _ _ _ _ _ _ | drop _ _ _ _ _ _ => exact ⟨old, hrow, rfl⟩
  | cas _ _ _ _ _ hr _ hident _ _ _ | bulk _ _ _ hr hident _ _ => exact hkeep hr hident
  | save _ _ _ _ _ _ _ hr hident _ _ => exact hkeep hr hident
  | other _ _ hr hident _ => exact hkeep hr hident
  | edit _ _ hr hedit | bill _ _ _ _ _ _ _ _ _ hr hedit => exact hkeep hr hedit.ident

end Step

/-! ## Suno tasks -/

/-- The row of the task is unfinished and no refund of it is under way. -/
def World.refundFree (s : World) (id : Int) : Bool :=
  (s.rows.get id).any Task.unfinished && (s.view id).refunders.isEmpty

/-- Steps that cannot return the quota of the Suno task `id` twice: refunds and timeouts start only
from an unfinished row without a refund under way, the save after a refund succeeds, and no save
reopens a finished row. Pollers and sweepers only. -/
def sunoCare (cfg : Config) (id : Int) (s : World) : Act → Bool
  | .poll n _ =>
    match (s.poller n).todo with
    | .item obj item :: _ =>
      match obj.bind (s.poller n).mem with
      | some task =>
        let (t, failed) := applySunoItem task item
        !(taskNeedsUpdate task item && failed && decide (t.id = id) &&
          (cfg.returns (.refund t t.failReason)).isSome) || s.refundFree id
      | none => true
    | _ => true
  | .expire n _ ok =>
    match (s.sweeper n).todo with
    | t :: _ =>
      !(ok && decide (t.id = id) && (s.rows.get id).any fun r => decide (r.status = t.status)) || s.refundFree id
    | [] => true
  | .proceed p _ ok =>
    match findKey p s.pending with
    | some (.save t returned) =>
      decide (t.id ≠ id) || (if ok then !t.unfinished || (s.rows.get id).any Task.unfinished else returned.isNone)
    | _ => true
  | .claim .. | .select .. | .release .. | .renew .. | .finish .. | .foreign .. => false
  | _ => true

def sunoGuard : Guard where
  cas v old := old.unfinished = true ∧ v.refunders = []
  bulk _ _ := True
  prepay v old := old.unfinished = true ∧ v.refunders = []
  save old t _ := t.unfinished = true → old.unfinished = true
  drop returned := returned = none
  other _ _ := False
  refundsSucceed := false

theorem sunoGuard_paces : Paces sunoGuard where
  cas _ _ h := h
  prepay _ _ h := h
  save _ _ _ h := h
  drop _ h := h
  other _ _ h := False.elim h

section Suno

variable {cfg : Config} {id : Int} {s : World}

theorem refundFree_spec (h : s.refundFree id = true) (hold : s.rows.get id = some old) :
    old.unfinished = true ∧ (s.view id).refunders = [] := by
  simp only [World.refundFree, hold, Bool.and_eq_true, List.isEmpty_iff] at h
  exact h

theorem carefully_of_sunoCare {a : Act} (h : sunoCare cfg id s a = true) :
    Carefully cfg sunoGuard id s a := by
  cases a with
  | poll n e =>
    intro w rest htodo
    simp only [sunoCare, htodo] at h
    rcases w with ids | ⟨platform, channelId, taskIds, taskM⟩ | obj | ⟨obj, item⟩
    · exact fun _ _ _ _ => trivial
    · exact fun _ _ _ _ _ => trivial
    · trivial
    intro task htask hneeds t ht hid
    refine ⟨fun hret old hold => ?_, fun hf => (by cases hf)⟩
    have hsome : (cfg.returns (.refund t t.failReason)).isSome = true :=
      Option.isSome_iff_ne_none.mpr hret
    simp only [htask, ht, hneeds, hid, hsome, Bool.and_self, decide_true, Bool.not_true,
      Bool.false_or] at h
    exact refundFree_spec h hold
  | expire n now ok =>
    intro t rest old htodo hid hok hold hstatus _
    simp only [sunoCare, htodo, hid, hok, hold, Option.any_some, hstatus, Bool.and_self,
      decide_true, Bool.not_true, Bool.false_or] at h
    exact refundFree_spec h hold
  | proceed p e ok =>
    intro b hb hid
    simp only [sunoCare, hb] at h
    cases b with
    | save t returned =>
      have htid : t.id = id := hid
      simp only [htid, ne_eq, not_true_eq_false, decide_false, Bool.false_or] at h
      simp only [CarefulPending]
      split
      · rename_i hok
        intro old hold ht
        rw [htid] at hold
        rw [if_pos hok, ht, hold] at h
        simpa using h
      · rename_i hok
        rw [if_neg hok] at h
        exact Option.isNone_iff_eq_none.mp h
    | refund t reason => exact fun hf => (by cases hf)
    | settle | recalculate => trivial
  | claim | select | release | renew | finish | foreign => cases h
  | load | sweep => trivial

/-- **Careful steps return the quota of a Suno task at most once**, whatever the upstream reports
and however pollers and sweepers interleave. -/
theorem suno_quota_returned_once (cfg : Config) (rows : TaskTable) (ledger : Ledger)
    (acts : List Act) (id : Int) (task : Task) (htask : rows.get id = some task)
    (hsuno : task.platform = .suno)
    (hcare : Guarded (World.step cfg) (fun s a => sunoCare cfg id s a = true) (World.start rows ledger) acts) :
    (((World.start rows ledger).run cfg acts).view id).returned.length ≤ 1 := by
  have hinv : (WF False ((World.start rows ledger).run cfg acts) ∧
      ∃ r, ((World.start rows ledger).run cfg acts).rows.get id = some r ∧ r.platform = .suno) ∧
      Phase (((World.start rows ledger).run cfg acts).view id) := by
    refine Guarded.invariant (P := fun s => (WF False s ∧ ∃ r, s.rows.get id = some r ∧
      r.platform = .suno) ∧ Phase (s.view id)) ?_ hcare
      ⟨⟨.start rows ledger False.elim, task, htask, hsuno⟩, .untouched rfl rfl⟩
    rintro s a hok ⟨⟨hwf, r, hr, hs⟩, hphase⟩
    have hstep := step_view hwf a (carefully_of_sunoCare hok) (.inr ⟨r, hr, hs⟩)
    obtain ⟨r', hr', hident⟩ := viewStep_ident hstep hr
    exact ⟨⟨wf_step hwf a, r', hr', (congrArg Prod.fst hident).trans hs⟩,
      phase_step sunoGuard_paces hphase hstep⟩
  exact hinv.2.returned_once

end Suno

/-! ## One failed Suno task -/

/-- A Suno task in progress, quota 100. -/
def sunoTable : TaskTable := ⟨[{ sampleTask 1 7 "a" with platform := .suno }], by decide⟩

def sunoFailed : PollEnv where
  env := quietEnv
  writeOk := true
  channelOk := true
  adaptorOk := true
  suno := some [⟨"a", .failure, "rejected", 0, 0, 0, ""⟩]
  video := .failed

/-- A poller's round up to the refund; the save is still to come. -/
def sunoRound (n : Nat) : List Act :=
  [.load n 1000 (plan (getAllUnFinishSyncTasks sunoTable 1000)), .poll n sunoFailed, .poll n sunoFailed]

def sunoRun (acts : List Act) : World :=
  (World.start sunoTable smallLedger).run refundingConfig acts

/-- The first poller saves before the second one looks. -/
def sunoTurns : List Act := sunoRound 0 ++ [.proceed (.poller 0) quietEnv true] ++ sunoRound 1

theorem suno_turns_return_once :
    ((sunoRun sunoTurns).view 1).returned.length ≤ 1 ∧
      ((sunoRun sunoTurns).view 1).returned = [100] := by
  refine ⟨?_, by decide⟩
  exact suno_quota_returned_once refundingConfig sunoTable smallLedger sunoTurns 1
    { sampleTask 1 7 "a" with platform := .suno } (by decide) rfl (by decide)

/-- The save after the refund fails and the next round finds the task unfinished; or a second poller
has read it before the first one saves. Both times the user gets 200 for 100. -/
theorem suno_quota_returned_twice :
    ((sunoRun (sunoRound 0 ++ [.proceed (.poller 0) quietEnv false] ++ sunoRound 0)).view 1).returned = [100, 100] ∧
    (sunoRun (sunoRound 0 ++ [.proceed (.poller 0) quietEnv false] ++ sunoRound 0)).ledger.userQuota 1 =
      smallLedger.userQuota 1 + 200 ∧
    ((sunoRun (sunoRound 0 ++ sunoRound 1 ++ [.proceed (.poller 0) quietEnv true,
      .proceed (.poller 1) quietEnv true])).view 1).returned = [100, 100] := by
  refine ⟨by decide, by decide, by decide⟩

end NewApi.Tasks
