import NewApi.Service.TaskSystem

/-!
# Leases of image tasks

A worker process claims an image task for a while (`ClaimImageAsyncTaskForChannels`), renews the
lease while it works, and ends the task under the lease (`UpdateImageTaskWithLease`). When the lease
runs out anybody may claim the task again, so attempts of one task overlap. Each claim that takes
effect starts an attempt of its own here, numbered in the order of the claims; `latest` remembers
which attempt was the last to claim a row.

The lease names the process and not the attempt. `stale_attempt_completes` is the consequence: after
a process has claimed a task a second time, its first attempt still completes it.

* `Leases`, `LeaseAct`, `Leases.step` — one statement a step; time passes by `tick`.
-/

namespace NewApi.Tasks

open List

/-! ## Attempts -/

inductive AttemptPhase where
  | claimed
  /-- The claimed row is not an image task. -/
  | releasing
  | working (task : Task)
  | over
  deriving DecidableEq, Repr

/-- `owner` is `imageWorkerOwner`: node, host and process. -/
structure Attempt where
  owner : String
  taskId : String
  phase : AttemptPhase
  deriving DecidableEq, Repr

def Attempt.live (a : Attempt) : Bool := decide (a.phase ≠ .over)

structure Leases where
  rows : TaskTable
  now : Int
  /-- The `k`-th claim that took effect started the `k`-th attempt. -/
  attempts : List Attempt
  /-- The last attempt that claimed a row, by row id. -/
  latest : Int → Option Nat

def Leases.start (rows : TaskTable) (now : Int) : Leases := ⟨rows, now, [], fun _ => none⟩

def Leases.setPhase (s : Leases) (k : Nat) (p : AttemptPhase) : Leases :=
  { s with attempts := s.attempts.modify k fun a => { a with phase := p } }

/-- A statement that may fail. -/
def Leases.exec (s : Leases) (u : TaskUpdate) (ok : Bool) : Leases :=
  if ok then { s with rows := s.rows.exec u } else s

inductive LeaseAct where
  | tick (seconds : Nat)
  | claim (owner taskId : String) (leaseDuration : Int) (channelIds : List Int) (included ok : Bool)
  /-- The read after a claim. -/
  | select (k : Nat)
  | release (k : Nat) (ok : Bool)
  /-- The lease heartbeat. -/
  | renew (k : Nat) (leaseDuration : Int) (ok : Bool)
  | finish (k : Nat) (r : ImageResult) (ok : Bool)

/-- A claim that took effect. -/
def Leases.began (s : Leases) (owner taskId : String) (u : TaskUpdate) : Leases :=
  { s with
    rows := s.rows.exec u
    attempts := s.attempts ++ [⟨owner, taskId, .claimed⟩]
    latest := fun id => if ((s.rows.get id).map u.hits).getD false then some s.attempts.length else s.latest id }

/-- The statement by which attempt `k` ends its task with the result `r`. -/
def Leases.terminalWrite (cfg : Config) (s : Leases) (k : Nat) (r : ImageResult) :
    Option TaskUpdate :=
  match s.attempts[k]? with
  | some ⟨owner, _, .working t⟩ =>
    some (updateImageTaskWithLease (finishImage cfg t r s.now).1 owner s.now)
  | _ => none

def Leases.step (cfg : Config) (s : Leases) : LeaseAct → Leases
  | .tick seconds => { s with now := s.now + seconds }
  | .claim owner taskId leaseDuration channelIds included ok =>
    let u := claimImageAsyncTask taskId owner leaseDuration s.now channelIds included
    if ok && s.rows.affected u then s.began owner taskId u else s
  | .select k =>
    match s.attempts[k]? with
    | some ⟨owner, taskId, .claimed⟩ =>
      s.setPhase k <| match getImageTaskByLease s.rows taskId owner with
        | none => .over
        | some t => if t.taskKind ≠ taskKindImage then .releasing else .working t
    | _ => s
  | .release k ok =>
    match s.attempts[k]? with
    | some ⟨owner, taskId, .releasing⟩ =>
      (s.exec (releaseImageAsyncTaskLease taskId owner s.now) ok).setPhase k .over
    | _ => s
  | .renew k leaseDuration ok =>
    match s.attempts[k]? with
    | some ⟨owner, _, .working t⟩ => s.exec (renewImageAsyncTaskLease t.taskId owner leaseDuration s.now) ok
    | _ => s
  | .finish k r ok =>
    match s.terminalWrite cfg k r with
    | some u => (s.exec u ok).setPhase k .over
    | none => s

def Leases.run (cfg : Config) (s : Leases) (acts : List LeaseAct) : Leases :=
  acts.foldl (Leases.step cfg) s

/-- Only the attempt that was the last to claim a row can end it. -/
def LatestEnds (cfg : Config) (s : Leases) : Prop :=
  ∀ k r u row, s.terminalWrite cfg k r = some u → row ∈ s.rows.rows → u.hits row = true → s.latest row.id = some k

/-- Whoever claims a task has no attempt of it under way, and the task id names one row. -/
def fenced (s : Leases) : LeaseAct → Bool
  | .claim owner taskId _ _ _ _ =>
    s.attempts.all (fun a => !(a.live && decide (a.owner = owner ∧ a.taskId = taskId))) &&
      decide ((s.rows.rows.filter fun r => decide (r.taskId = taskId)).length ≤ 1)
  | _ => true

/-! ## The invariant of fenced runs -/

/-- What a lease says about its holder. -/
structure Held (s : Leases) : Prop where
  owner_ne : ∀ (k : Nat) a, s.attempts[k]? = some a → a.owner ≠ ""
  /-- A lease that names a running attempt's process was taken by that attempt. -/
  held : ∀ (k : Nat) a, s.attempts[k]? = some a → a.live = true → ∀ row ∈ s.rows.rows,
    row.taskId = a.taskId → row.leaseOwner = a.owner → s.latest row.id = some k
  /-- The copy an attempt works on has the task id of its row. -/
  copy : ∀ (k : Nat) a t, s.attempts[k]? = some a → a.phase = .working t →
    t.taskId = a.taskId ∧ ∀ row ∈ s.rows.rows, row.id = t.id → row.taskId = t.taskId

section Fencing

variable {cfg : Config} {s : Leases}

theorem Held.start (rows : TaskTable) (now : Int) : Held (Leases.start rows now) where
  owner_ne k a h := by cases h
  held k a h := by cases h
  copy k a t h := by cases h

theorem Held.exec (h : Held s) {u : TaskUpdate}
    (hid : ∀ row ∈ s.rows.rows, u.hits row = true → (u.set row).taskId = row.taskId)
    (howner : ∀ row ∈ s.rows.rows, u.hits row = true →
      (u.set row).leaseOwner = row.leaseOwner ∨ (u.set row).leaseOwner = "") (ok : Bool) :
    Held (s.exec u ok) := by
  unfold Leases.exec
  split
  · have happly : ∀ row ∈ s.rows.rows, (u.apply row).taskId = row.taskId ∧
        ((u.apply row).leaseOwner = row.leaseOwner ∨ (u.apply row).leaseOwner = "") := by
      intro row hrow
      unfold Table.Update.apply
      split
      · rename_i hh
        exact ⟨hid row hrow hh, howner row hrow hh⟩
      · exact ⟨rfl, .inl rfl⟩
    refine ⟨h.owner_ne, fun k a hk hlive row' hrow' htask hown => ?_, fun k a t hk hp => ?_⟩
    · obtain ⟨row, hrow, rfl⟩ := mem_map.mp hrow'
      obtain ⟨ht, ho⟩ := happly row hrow
      rw [u.key_apply]
      rcases ho with ho | ho
      · exact h.held k a hk hlive row hrow (ht.symm.trans htask) (ho.symm.trans hown)
      · exact absurd (hown.symm.trans ho) (h.owner_ne k a hk)
    · obtain ⟨htask, hrows⟩ := h.copy k a t hk hp
      refine ⟨htask, fun row' hrow' hid' => ?_⟩
      obtain ⟨row, hrow, rfl⟩ := mem_map.mp hrow'
      rw [u.key_apply] at hid'
      exact (happly row hrow).1.trans (hrows row hrow hid')
  · exact h

theorem Held.setPhase (h : Held s) {k : Nat} {p : AttemptPhase}
    (hlive : ∀ a, s.attempts[k]? = some a → a.live = true) (hcopy : ∀ a t, s.attempts[k]? = some a → p = .working t →
      t.taskId = a.taskId ∧ ∀ row ∈ s.rows.rows, row.id = t.id → row.taskId = t.taskId) :
    Held (s.setPhase k p) := by
  have hget : ∀ (j : Nat) a, (s.setPhase k p).attempts[j]? = some a → ∃ b, s.attempts[j]? = some b ∧
      a.owner = b.owner ∧ a.taskId = b.taskId ∧ (j ≠ k ∧ a = b ∨ j = k ∧ a.phase = p) := by
    intro j a hj
    simp only [Leases.setPhase, getElem?_modify] at hj
    obtain ⟨b, hb, rfl⟩ := Option.map_eq_some_iff.mp hj
    refine ⟨b, hb, ?_⟩
    split
    · rename_i hjk
      exact ⟨rfl, rfl, .inr ⟨hjk.symm, rfl⟩⟩
    · rename_i hjk
      exact ⟨rfl, rfl, .inl ⟨fun e => hjk e.symm, rfl⟩⟩
  refine ⟨fun j a hj => ?_, fun j a hj hl row hrow htask hown => ?_, fun j a t hj hp => ?_⟩
  · obtain ⟨b, hb, ho, _⟩ := hget j a hj
    rw [ho]
    exact h.owner_ne j b hb
  · obtain ⟨b, hb, ho, ht, hcase⟩ := hget j a hj
    have hbl : b.live = true := by
      rcases hcase with ⟨_, rfl⟩ | ⟨rfl, _⟩
      · exact hl
      · exact hlive b hb
    exact h.held j b hb hbl row hrow (htask.trans ht) (hown.trans ho)
  · obtain ⟨b, hb, _, ht, hcase⟩ := hget j a hj
    rcases hcase with ⟨_, rfl⟩ | ⟨rfl, hphase⟩
    · exact h.copy j a t hb hp
    · rw [ht]
      exact hcopy b t hb (hphase.symm.trans hp)

variable {included ok : Bool} {leaseDuration : Int} {channelIds : List Int}

theorem claim_hits {taskId owner : String} {now : Int} {row : Task}
    (h : (claimImageAsyncTask taskId owner leaseDuration now channelIds included).hits row = true) :
    row.taskId = taskId ∧ owner ≠ "" := by
  simp only [claimImageAsyncTask, Bool.and_eq_true, decide_eq_true_eq] at h
  exact ⟨h.1.1.2.2.2.1, h.1.1.2.1⟩

theorem fenced_claim {owner taskId : String}
    (hf : fenced s (.claim owner taskId leaseDuration channelIds included ok) = true) :
    (∀ (k : Nat) a, s.attempts[k]? = some a → a.live = true → a.owner = owner → a.taskId ≠ taskId) ∧
    ∀ r ∈ s.rows.rows, ∀ r' ∈ s.rows.rows, r.taskId = taskId → r'.taskId = taskId → r = r' := by
  simp only [fenced, Bool.and_eq_true, all_eq_true, decide_eq_true_eq] at hf
  obtain ⟨hown, hone⟩ := hf
  refine ⟨fun k a hk hl ho ht => ?_, fun r hr r' hr' ht ht' => ?_⟩
  · have := hown a (mem_of_getElem? hk)
    simp [hl, ho, ht] at this
  have hm : r ∈ s.rows.rows.filter fun r => decide (r.taskId = taskId) := by simp [hr, ht]
  have hm' : r' ∈ s.rows.rows.filter fun r => decide (r.taskId = taskId) := by simp [hr', ht']
  obtain ⟨i, hi, rfl⟩ := getElem_of_mem hm
  obtain ⟨j, hj, rfl⟩ := getElem_of_mem hm'
  congr 1
  omega

theorem Held.began (h : Held s) {owner taskId : String}
    (hf : fenced s (.claim owner taskId leaseDuration channelIds included ok) = true)
    (haff : s.rows.affected (claimImageAsyncTask taskId owner leaseDuration s.now channelIds included) = true) :
    Held (s.began owner taskId (claimImageAsyncTask taskId owner leaseDuration s.now channelIds included)) := by
  obtain ⟨hown, hone⟩ := fenced_claim hf
  generalize hu : claimImageAsyncTask taskId owner leaseDuration s.now channelIds included = u at haff ⊢
  have hhits : ∀ {row}, u.hits row = true → row.taskId = taskId ∧ owner ≠ "" := by
    subst hu
    exact claim_hits
  have hset : ∀ row, (u.set row).taskId = row.taskId ∧ (u.set row).leaseOwner = owner := by
    subst hu
    exact fun _ => ⟨rfl, rfl⟩
  obtain ⟨taken, htaken, hit⟩ := any_eq_true.mp haff
  have hget : ∀ (k : Nat) a, (s.began owner taskId u).attempts[k]? = some a →
      s.attempts[k]? = some a ∨ k = s.attempts.length ∧ a = ⟨owner, taskId, .claimed⟩ := by
    intro k a hk
    simp only [Leases.began, getElem?_append] at hk
    split at hk
    · exact .inl hk
    obtain ⟨h0, rfl⟩ := List.getElem?_eq_some_iff.mp hk
    simp only [List.length_singleton, Nat.lt_one_iff] at h0
    exact .inr ⟨by omega, by simp [h0]⟩
  have hlatest : ∀ row ∈ s.rows.rows, (s.began owner taskId u).latest row.id =
      if u.hits row then some s.attempts.length else s.latest row.id := by
    intro row hrow
    simp [Leases.began, Table.get_of_mem hrow]
  refine ⟨fun k a hk => ?_, fun k a hk hl row' hrow' htask howner => ?_, fun k a t hk hp => ?_⟩
  · rcases hget k a hk with hk | ⟨_, rfl⟩
    · exact h.owner_ne k a hk
    · exact (hhits hit).2
  · obtain ⟨row, hrow, rfl⟩ := mem_map.mp hrow'
    rw [u.key_apply, hlatest row hrow]
    unfold Table.Update.apply at htask howner
    split at htask
    · rename_i hh
      rw [if_pos hh] at howner ⊢
      rcases hget k a hk with hk | ⟨rfl, _⟩
      · refine absurd ?_ (hown k a hk hl (howner.symm.trans (hset row).2))
        exact htask.symm.trans ((hset row).1.trans (hhits hh).1)
      · rfl
    · rename_i hh
      rw [if_neg hh] at howner ⊢
      rcases hget k a hk with hk | ⟨_, rfl⟩
      · exact h.held k a hk hl row hrow htask howner
      · -- the claimed row is the only one of its task id
        exact absurd (hone taken htaken row hrow (hhits hit).1 htask ▸ hit) hh
  · rcases hget k a hk with hk | ⟨_, rfl⟩
    · obtain ⟨ht, hrows⟩ := h.copy k a t hk hp
      refine ⟨ht, fun row' hrow' hid => ?_⟩
      obtain ⟨row, hrow, rfl⟩ := mem_map.mp hrow'
      rw [u.key_apply] at hid
      unfold Table.Update.apply
      split
      · exact (hset row).1.trans (hrows row hrow hid)
      · exact hrows row hrow hid
    · cases hp

theorem terminalWrite_some {k : Nat} {r : ImageResult} {u : TaskUpdate}
    (h : s.terminalWrite cfg k r = some u) : ∃ a t, s.attempts[k]? = some a ∧ a.phase = .working t ∧
      u = updateImageTaskWithLease (finishImage cfg t r s.now).1 a.owner s.now := by
  unfold Leases.terminalWrite at h
  split at h
  · rename_i owner taskId t hk
    cases h
    exact ⟨_, t, hk, rfl, rfl⟩
  · cases h

theorem live_of_working {a : Attempt} {t : Task} (h : a.phase = .working t) : a.live = true := by
  simp [Attempt.live, h]

@[simp] theorem exec_attempts (u : TaskUpdate) (ok : Bool) :
    (s.exec u ok).attempts = s.attempts := by
  unfold Leases.exec; split <;> rfl

section

variable (h : Held s)

include h

theorem Held.latestEnds : LatestEnds cfg s := by
  intro k r u row hw hrow hh
  obtain ⟨a, t, hk, hp, rfl⟩ := terminalWrite_some hw
  simp only [updateImageTaskWithLease, decide_eq_true_eq] at hh
  obtain ⟨_, hid, _, howner⟩ := hh
  rw [(finishImage_finished cfg t r s.now).id] at hid
  obtain ⟨ht, hrows⟩ := h.copy k a t hk hp
  exact h.held k a hk (live_of_working hp) row hrow ((hrows row hrow hid).trans ht) howner

theorem Held.select (k : Nat) : Held (s.step cfg (.select k)) := by
  unfold Leases.step
  simp only
  split
  · rename_i owner taskId hk
    refine h.setPhase (fun a ha => ?_) (fun a t ha hp => ?_)
    · cases hk.symm.trans ha
      rfl
    cases hk.symm.trans ha
    split at hp
    · cases hp
    rename_i t' hread
    split at hp
    · cases hp
    cases hp
    have hmem := mem_filter.mp ((mem_insertionSort _).mp (mem_of_mem_head? hread))
    have htask : t.taskId = taskId := (of_decide_eq_true hmem.2).1
    exact ⟨htask, fun row hrow hid => by rw [Table.eq_of_key_eq hrow hmem.1 hid]⟩
  · exact h

theorem Held.release (k : Nat) (ok : Bool) : Held (s.step cfg (.release k ok)) := by
  unfold Leases.step
  simp only
  split
  · rename_i owner taskId hk
    have hexec : Held (s.exec (releaseImageAsyncTaskLease taskId owner s.now) ok) :=
      h.exec (fun _ _ _ => rfl) (fun _ _ _ => .inr rfl) ok
    refine hexec.setPhase (fun a ha => ?_) (fun a t _ hp => by cases hp)
    rw [exec_attempts] at ha
    cases hk.symm.trans ha
    rfl
  · exact h

theorem Held.renew (k : Nat) (leaseDuration : Int) (ok : Bool) :
    Held (s.step cfg (.renew k leaseDuration ok)) := by
  unfold Leases.step
  simp only
  split
  · exact h.exec (fun _ _ _ => rfl) (fun _ _ _ => .inl rfl) ok
  · exact h

theorem Held.finish (k : Nat) (r : ImageResult) (ok : Bool) :
    Held (s.step cfg (.finish k r ok)) := by
  unfold Leases.step
  simp only
  split
  · rename_i u hw
    obtain ⟨a, t, hk, hp, rfl⟩ := terminalWrite_some hw
    have hfin := finishImage_finished cfg t r s.now
    have hexec := h.exec (u := updateImageTaskWithLease (finishImage cfg t r s.now).1 a.owner s.now)
      (fun row hrow hh => ?_) (fun _ _ _ => .inr hfin.leaseOwner) ok
    · refine hexec.setPhase (fun b hb => ?_) (fun b t _ hp => by cases hp)
      rw [exec_attempts] at hb
      cases hk.symm.trans hb
      exact live_of_working hp
    · -- the row written has the id of the copy, and the copy its task id
      simp only [updateImageTaskWithLease, decide_eq_true_eq] at hh
      exact hfin.taskId.trans ((h.copy k a t hk hp).2 row hrow (hh.2.1.trans hfin.id)).symm
  · exact h

theorem Held.step {act : LeaseAct} (hf : fenced s act = true) : Held (s.step cfg act) := by
  cases act with
  | tick seconds => exact ⟨h.owner_ne, h.held, h.copy⟩
  | claim owner taskId leaseDuration channelIds included ok =>
    simp only [Leases.step]
    split
    · rename_i hwon
      exact h.began hf (Bool.and_eq_true_iff.mp hwon).2
    · exact h
  | select k => exact h.select k
  | release k ok => exact h.release k ok
  | renew k leaseDuration ok => exact h.renew k leaseDuration ok
  | finish k r ok => exact h.finish k r ok

end

end Fencing

/-- **Only the latest claim ends a task.** If no process claims a task that it still works on, a
terminal write takes effect only if its attempt was the last to claim the row. -/
theorem terminal_write_needs_latest_claim (cfg : Config) (rows : TaskTable) (now : Int)
    (acts : List LeaseAct)
    (hf : Guarded (Leases.step cfg) (fun s act => fenced s act = true) (Leases.start rows now) acts) :
    LatestEnds cfg ((Leases.start rows now).run cfg acts) :=
  Held.latestEnds (hf.invariant (P := Held) (fun _ _ hok h => h.step hok) (Held.start rows now))

/-! ## Two processes, and one process twice -/

def imageTask : Task :=
  { sampleTask 1 7 "a" with platform := .image, taskKind := taskKindImage, status := .submitted }

/-- `first` claims the task for a minute; a hundred seconds later `second` claims it too. -/
def overtakes (first second : String) : List LeaseAct :=
  [.claim first "task_a" 60 [] false true, .select 0, .renew 0 60 true, .tick 100,
    .claim second "task_a" 60 [] false true, .select 1]

/-- The task after both claims, for a table that holds it alone. -/
def overtaken (first second : String) : Leases :=
  (Leases.start ⟨[imageTask], by simp⟩ 1800000000).run refundingConfig (overtakes first second)

/-- Another process: the first attempt's write matches no row, the second one's does. -/
theorem overtaken_by_other_process : LatestEnds refundingConfig (overtaken "node-1/1" "node-2/1") ∧
    ((overtaken "node-1/1" "node-2/1").terminalWrite refundingConfig 0 (.done "" none)).map
      (overtaken "node-1/1" "node-2/1").rows.affected = some false ∧
    ((overtaken "node-1/1" "node-2/1").terminalWrite refundingConfig 1 (.done "" none)).map
      (overtaken "node-1/1" "node-2/1").rows.affected = some true :=
  ⟨terminal_write_needs_latest_claim refundingConfig _ 1800000000 _ (by decide), by decide, by decide⟩

/-- The same process: the first attempt completes the task although the second has claimed it, and
the second then finds no row. -/
theorem stale_attempt_completes : (overtaken "node-1/1" "node-1/1").latest 1 = some 1 ∧
    ((overtaken "node-1/1" "node-1/1").step refundingConfig (.finish 0 (.done "" none) true)).rows.rows.map
      Task.status = [.success] ∧
    ¬ LatestEnds refundingConfig (overtaken "node-1/1" "node-1/1") := by
  refine ⟨by decide, by decide, fun h => ?_⟩
  have hlast := h 0 (.done "" none) _ _ rfl (mem_singleton.mpr rfl) (by decide)
  revert hlast
  decide

end NewApi.Tasks
