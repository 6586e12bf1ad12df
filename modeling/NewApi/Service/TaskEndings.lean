import NewApi.Service.TaskRefinement

/-!
# Every task ends once

Video pollers, timeout sweepers and image workers race for the rows of the `tasks` table. Each of
them bills only after a compare-and-set of the status, and the loser of the race does nothing.

* `Ended` — the stages of one task; `ended_step` — a step goes to the same or the next one.
-/

namespace NewApi.Tasks

open NewApi.Billing

def Event.isMove : Event → Bool
  | .moved _ _ _ _ => true
  | .billed _ _ _ => false

/-- The log and the row of a task that ends once. -/
structure EndsOnce (s : World) (id : Int) : Prop where
  /-- Moves out of a terminal status count too. -/
  moves : ((s.view id).history.filter Event.isMove).length ≤ 1
  stays : ∀ p old row due, Event.moved p old row due ∈ (s.view id).history →
    old.terminal = false ∧ row.status.terminal = true ∧
    ∃ r, s.rows.get id = some r ∧ r.status = row.status
  bills : ((s.view id).history.filter fun e => !e.isMove).length ≤ 1
  winner : ∀ p i returned, Event.billed p i returned ∈ (s.view id).history →
    ∃ old row due, Event.moved p old row due ∈ (s.view id).history

/-- Pollers whose channel lookups succeed, sweepers and workers; nobody else writes, neither does
the repair of tasks without an upstream id. -/
def videoScope (s : World) : Act → Bool
  | .poll n e =>
    match (s.poller n).todo with
    | .repair _ :: _ => !e.writeOk
    | _ => e.channelOk
  | .foreign _ => false
  | _ => true

/-- Only compare-and-set writes reach a row. -/
def casOnly : Guard where
  cas _ _ := True
  bulk _ _ := False
  prepay _ _ := True
  save _ _ _ := True
  drop _ := True
  other _ _ := False
  refundsSucceed := false

theorem carefully_of_videoScope {cfg : Config} {s : World} {a : Act} (h : videoScope s a = true)
    (id : Int) : Carefully cfg casOnly id s a := by
  cases a with
  | poll n e =>
    intro w rest htodo
    simp only [videoScope, htodo] at h
    cases w with
    | repair ids =>
      intro hok
      rw [hok] at h
      cases h
    | channel platform channelId taskIds taskM =>
      intro hc
      simp only [hc] at h
      cases h
    | single obj => trivial
    | item obj item => exact fun _ _ _ _ _ _ => ⟨fun _ _ _ => trivial, fun hf => (by cases hf)⟩
  | expire n now ok | finish n r now ok => exact fun _ _ _ _ _ _ _ _ _ => trivial
  | proceed p e ok =>
    intro b _ _
    cases b with
    | save t returned =>
      simp only [CarefulPending]
      split
      · exact fun _ _ => trivial
      · trivial
    | refund t reason => exact fun hf => (by cases hf)
    | settle t q b | recalculate t => trivial
  | foreign row => cases h
  | _ => trivial

/-! ## Stages -/

/-- The stages of a video or image task. -/
inductive Ended (id : Int) : View → Prop
  | absent : Ended id ⟨none, [], []⟩
  | running (row : Task) (hp : row.platform ≠ .suno) (hlive : row.status.terminal = false) : Ended id ⟨some row, [], []⟩
  /-- The party whose write took effect may have billing to do. -/
  | won (row : Task) (p : Party) (old : TaskStatus) (r : Task) (due : Bool) (b : Option Pending)
      (hp : row.platform ≠ .suno) (hold : old.terminal = false) (hrow : row.status.terminal = true)
      (hr : r.status = row.status) (hb : ∀ x, b = some x → x.isSave = false) :
      Ended id ⟨some row, [.moved p old r due], (b.map fun x => (p, x)).toList⟩
  | billed (row : Task) (p : Party) (old : TaskStatus) (r : Task) (due : Bool) (returned : Option Int)
      (hp : row.platform ≠ .suno) (hold : old.terminal = false) (hrow : row.status.terminal = true)
      (hr : r.status = row.status) :
      Ended id ⟨some row, [.moved p old r due, .billed p id returned], []⟩

variable {id : Int} {v : View}

theorem Ended.platform (h : Ended id v) {row : Task} (hrow : v.row = some row) :
    row.platform ≠ .suno := by
  cases h with
  | absent => cases hrow
  | running _ hp _ | won _ _ _ _ _ _ hp _ _ _ _ | billed _ _ _ _ _ _ hp _ _ _ => cases hrow; exact hp

theorem Ended.edit (h : Ended id v) {old new : Task} (hrow : v.row = some old)
    (hedit : Edits old new) : Ended id { v with row := some new } := by
  have hp : new.platform ≠ .suno := by
    have hplat : new.platform = old.platform := congrArg Prod.fst hedit.ident
    rw [hplat]
    exact h.platform hrow
  cases h with
  | absent => cases hrow
  | running _ _ hlive => cases hrow; exact .running new hp (hedit.live hlive)
  | won _ p st r due b _ hst hterm hr hb =>
    cases hrow
    have hs := hedit.terminal hterm
    exact .won new p st r due b hp hst (hs ▸ hterm) (hr.trans hs.symm) hb
  | billed _ p st r due returned _ hst hterm hr =>
    cases hrow
    have hs := hedit.terminal hterm
    exact .billed new p st r due returned hp hst (hs ▸ hterm) (hr.trans hs.symm)

theorem Ended.of_pending (h : Ended id v) {p : Party} {b : Pending} (hmem : (p, b) ∈ v.pending) :
    b.isSave = false ∧ ∃ row old r due, v = ⟨some row, [.moved p old r due], [(p, b)]⟩ ∧
      row.platform ≠ .suno ∧ old.terminal = false ∧ row.status.terminal = true ∧
      r.status = row.status := by
  cases h with
  | absent | running _ _ _ | billed _ _ _ _ _ _ _ _ _ _ => cases hmem
  | won row p' old r due b' hp hold hterm hr hb =>
    cases b' with
    | none => cases hmem
    | some x =>
      have heq : (p, b) = (p', x) := by simpa using hmem
      cases heq
      exact ⟨hb b rfl, row, old, r, due, rfl, hp, hold, hterm, hr⟩

/-- **A step leaves a task in its stage or takes it to the next one.** -/
theorem ended_step {cfg : Config} {v' : View} (h : Ended id v) (hs : ViewStep cfg casOnly id v v') :
    Ended id v' := by
  cases hs with
  | stay => exact h
  | cas p body old new b hrow hlive hident hbill hdue hG =>
    have hp : new.platform ≠ .suno := by
      have hplat : new.platform = old.platform := congrArg Prod.fst hident
      rw [hplat]
      exact h.platform hrow
    -- a live row is in the first stage
    cases h with
    | absent => cases hrow
    | running row _ _ =>
      cases hrow
      cases hterm : new.status.terminal with
      | true =>
        have hne : old.status ≠ new.status := fun he => (by rw [he, hterm] at hlive; cases hlive)
        have hmove : move cfg p body old new = some (.moved p old.status new (cfg.due new body)) := by
          unfold move
          rw [if_pos ⟨hne, .inr hterm⟩]
        rw [hmove]
        exact .won new p old.status new _ b hp hlive hterm rfl fun x hx => (hbill x hx).2
      | false =>
        have hb : b = none := by
          cases b with
          | none => rfl
          | some x => have := (hbill x rfl).1; rw [hterm] at this; cases this
        rw [move_live hlive hterm, hb]
        exact .running new hp hterm
    | won row _ _ _ _ _ _ _ hterm _ _ => cases hrow; rw [hterm] at hlive; cases hlive
    | billed row _ _ _ _ _ _ _ hterm _ => cases hrow; rw [hterm] at hlive; cases hlive
  | bulk p old new hrow hident hnew hG | other old new hrow hident hG => exact False.elim hG
  | edit old new hrow hedit => exact h.edit hrow hedit
  | prepay p t old called returned hrow hident hsuno hskip hcall hG =>
    exact absurd ((congrArg Prod.fst hident).symm.trans hsuno) (h.platform hrow)
  | save p t old returned now hmem hone hrow hident hsuno hG =>
    exact absurd ((congrArg Prod.fst hident).symm.trans hsuno) (h.platform hrow)
  | drop p t returned hmem hone hG => cases (h.of_pending hmem).1
  | bill p b returned old new hmem hone hb hret hrow hedit =>
    obtain ⟨-, row, st, r, due, rfl, hp, hst, hterm, hr⟩ := h.of_pending hmem
    cases hrow
    have hdone : Ended id ⟨some old, [.moved p st r due, .billed p id returned], []⟩ :=
      .billed old p st r due returned hp hst hterm hr
    simpa using hdone.edit rfl hedit

theorem Ended.endsOnce {s : World} (h : Ended id (s.view id)) : EndsOnce s id := by
  generalize hv : s.view id = v at h
  have hget : s.rows.get id = v.row := by rw [← hv]; rfl
  cases h with
  | absent | running row hp hlive => exact ⟨by simp [hv], by simp [hv], by simp [hv], by simp [hv]⟩
  | won row p old r due b hp hold hrow hr hb =>
    refine ⟨by rw [hv]; exact Nat.le_refl 1, ?_, by rw [hv]; exact Nat.zero_le 1, by simp [hv]⟩
    intro p' old' row' due' hm
    rw [hv] at hm
    cases List.mem_singleton.mp hm
    exact ⟨hold, hr ▸ hrow, row, hget, hr.symm⟩
  | billed row p old r due returned hp hold hrow hr =>
    refine ⟨by rw [hv]; exact Nat.le_refl 1, ?_, by rw [hv]; exact Nat.le_refl 1, ?_⟩
    · intro p' old' row' due' hm
      rw [hv] at hm
      have hm' : Event.moved p' old' row' due' = .moved p old r due := by simpa using hm
      cases hm'
      exact ⟨hold, hr ▸ hrow, row, hget, hr.symm⟩
    intro p' i returned' hm
    rw [hv] at hm ⊢
    have hm' : p' = p := by
      have : Event.billed p' i returned' = .billed p id returned := by simpa using hm
      cases this
      rfl
    subst hm'
    exact ⟨old, r, due, List.mem_cons_self⟩

/-! ## Runs -/

theorem ended_start {rows : TaskTable} (ledger : Ledger)
    (hrows : ∀ t ∈ rows.rows, t.unfinished = true ∧ t.platform ≠ .suno) (id : Int) :
    Ended id ((World.start rows ledger).view id) := by
  have hview : (World.start rows ledger).view id = ⟨rows.get id, [], []⟩ := rfl
  rw [hview]
  cases hrow : rows.get id with
  | none => exact .absent
  | some t =>
    obtain ⟨hu, hp⟩ := hrows t (Table.mem_of_get hrow)
    exact .running t hp (unfinished_not_terminal hu)

/-- **With distinct upstream ids every task ends once**, whatever the interleaving of pollers,
sweepers and workers. -/
theorem every_task_ends_once (cfg : Config) (rows : TaskTable) (ledger : Ledger) (acts : List Act)
    (hrows : ∀ t ∈ rows.rows, t.unfinished = true ∧ t.platform ≠ .suno)
    (hscope : Guarded (World.step cfg) (fun s a => videoScope s a = true) (World.start rows ledger) acts)
    (hd : DistinctUpstream rows.rows) (id : Int) :
    EndsOnce ((World.start rows ledger).run cfg acts) id := by
  have hinv : WF True ((World.start rows ledger).run cfg acts) ∧
      Ended id (((World.start rows ledger).run cfg acts).view id) := by
    refine Guarded.invariant (P := fun s => WF True s ∧ Ended id (s.view id)) ?_ hscope
      ⟨.start rows ledger fun _ => hd, ended_start ledger hrows id⟩
    rintro s a hok ⟨hwf, hended⟩
    exact ⟨wf_step hwf a,
      ended_step hended (step_view hwf a (carefully_of_videoScope hok id) (.inl trivial))⟩
  exact hinv.2.endsOnce

/-! ## Two tasks and one round -/

def failedVideo : PollEnv where
  env := quietEnv
  writeOk := true
  channelOk := true
  adaptorOk := true
  suno := none
  video := .result ⟨.failure, "rejected", "", "", none, 0, none⟩ "" ""

def twoTasks (upstreamId : String) : TaskTable :=
  ⟨[sampleTask 1 7 "a", sampleTask 2 8 upstreamId], by simp [sampleTask]⟩

/-- One round of one poller: for each channel the lookup, the task, the billing. -/
def oneRound (upstreamId : String) : List Act :=
  [.load 0 1000 (plan (getAllUnFinishSyncTasks (twoTasks upstreamId) 1000)),
    .poll 0 failedVideo, .poll 0 failedVideo, .proceed (.poller 0) quietEnv true,
    .poll 0 failedVideo, .poll 0 failedVideo, .proceed (.poller 0) quietEnv true]

def afterRound (upstreamId : String) : World :=
  (World.start (twoTasks upstreamId) smallLedger).run refundingConfig (oneRound upstreamId)

theorem round_ends_tasks_once : EndsOnce (afterRound "b") 1 ∧ EndsOnce (afterRound "b") 2 ∧
    (afterRound "b").log.map (fun e => (e.id, e.isMove)) =
      [(1, true), (1, false), (2, true), (2, false)] := by
  have h : ∀ id, EndsOnce (afterRound "b") id :=
    every_task_ends_once refundingConfig (twoTasks "b") smallLedger (oneRound "b") (by decide) (by decide) (by decide)
  exact ⟨h 1, h 2, by decide⟩

/-- Both channels issued the upstream id `a`: the second task is refunded twice, the user gets 200
for 100; the first keeps running. -/
theorem shared_upstream_id_bills_twice :
    (afterRound "a").log.map (fun e => (e.id, e.isMove)) = [(2, true), (2, false), (2, false)] ∧
    (afterRound "a").ledger.userQuota 1 = smallLedger.userQuota 1 + 200 ∧
    ¬ EndsOnce (afterRound "a") 2 := by
  refine ⟨by decide, by decide, fun h => ?_⟩
  have hbills := h.bills
  revert hbills
  decide

end NewApi.Tasks
