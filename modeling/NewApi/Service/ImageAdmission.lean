import NewApi.Service.ImageLease

/-!
# Admission of image tasks

`InsertImageTaskWithAdmission` counts the active image tasks and inserts a new one in a transaction
that takes a lock shared by all submissions. The deferred `release` runs when the function of the
transaction returns, and gorm commits after that: only PostgreSQL, whose lock belongs to the
transaction, keeps it up to the commit. Claims, heartbeats, terminal writes and the timeout sweeper
take no part in the lock and fall anywhere between its statements.

* `Admission.submit` — the submission statement by statement.
* `admission_within_limits` — the limits hold when no submission takes the lock between the
  release and the commit of another.
-/

namespace NewApi.Tasks

open Table

/-- The rows both counts look at. -/
def activeImageTask (t : Task) : Bool :=
  decide (t.platform = .image) && decide (t.status = .submitted ∨ t.status = .queued ∨ t.status = .inProgress)

def activeImageTaskOf (userId : Int) (t : Task) : Bool :=
  activeImageTask t && decide (t.userId = userId)

structure AdmissionLimits where
  globalLimit : Int
  perUserLimit : Int
  deriving DecidableEq, Repr

/-- `common.UsingPostgreSQL`, `common.UsingMySQL`, and SQLite otherwise. -/
inductive Database where
  | sqlite
  | mysql
  | postgreSQL
  deriving DecidableEq, Repr

/-- How far the function of a transaction has come. -/
inductive AdmissionPhase where
  | locked
  | globalPassed
  | passed
  | created
  deriving DecidableEq, Repr

/-- The tasks, the transaction whose function runs under the lock, and the tasks of those whose
function has returned: their rows show with the commit. -/
structure Admission where
  leases : Leases
  holder : Option (Task × AdmissionPhase)
  returned : List Task

def errImageTaskQueueFull : String := "image task queue is at capacity"

/-- The statements of a submission, each with the error it meets. -/
inductive SubmitStmt where
  | lock (task : Option Task) (fault : Option String)
  | countGlobal (fault : Option String)
  | countUser (fault : Option String)
  | create (fault : Option String)
  /-- The deferred `release()`. -/
  | release
  /-- The commit of the `i`-th transaction that has returned. -/
  | commit (i : Nat) (fault : Option String)
  deriving DecidableEq, Repr

/-- Whether `lockImageTaskAdmission` gets the lock; PostgreSQL keeps it to the end of a
transaction. -/
def Admission.free (db : Database) (s : Admission) : Bool :=
  s.holder.isNone && (decide (db ≠ .postgreSQL) || s.returned.isEmpty)

/-- The row shows, unless another transaction has taken its key meanwhile. -/
def Admission.insert (s : Admission) (task : Task) : Admission × Option (Except String Unit) :=
  match s.leases.rows.insert task with
  | none => (s, some (.error "duplicated key not allowed"))
  | some rows => ({ s with leases := { s.leases with rows := rows } }, some (.ok ()))

/-- `InsertImageTaskWithAdmission`: the next state, and the answer once the call returns. -/
def Admission.submit (db : Database) (lim : AdmissionLimits) (s : Admission) :
    SubmitStmt → Admission × Option (Except String Unit)
  | .lock none _ => (s, some (.error "image task is nil"))
  | .lock (some _) (some err) => (s, some (.error err))
  | .lock (some task) none =>
    -- the call waits while the lock is taken
    if s.free db then ({ s with holder := some (task, .locked) }, none) else (s, none)
  | .countGlobal fault =>
    match s.holder, fault with
    | some (_, .locked), some err => ({ s with holder := none }, some (.error err))
    | some (task, .locked), none =>
      if 0 < lim.globalLimit ∧ lim.globalLimit ≤ s.leases.rows.count activeImageTask then
        ({ s with holder := none }, some (.error errImageTaskQueueFull))
      else ({ s with holder := some (task, .globalPassed) }, none)
    | _, _ => (s, none)
  | .countUser fault =>
    match s.holder with
    | some (task, .globalPassed) =>
      if 0 < lim.perUserLimit then
        match fault with
        | some err => ({ s with holder := none }, some (.error err))
        | none =>
          if lim.perUserLimit ≤ s.leases.rows.count (activeImageTaskOf task.userId) then
            ({ s with holder := none }, some (.error errImageTaskQueueFull))
          else ({ s with holder := some (task, .passed) }, none)
      else ({ s with holder := some (task, .passed) }, none)
    | _ => (s, none)
  | .create fault =>
    match s.holder, fault with
    | some (_, .passed), some err => ({ s with holder := none }, some (.error err))
    | some (task, .passed), none =>
      if (s.leases.rows.insert task).isSome then ({ s with holder := some (task, .created) }, none)
      else ({ s with holder := none }, some (.error "duplicated key not allowed"))
    | _, _ => (s, none)
  | .release =>
    match s.holder with
    | some (task, .created) => ({ s with holder := none, returned := s.returned ++ [task] }, none)
    | _ => (s, none)
  | .commit i fault =>
    match s.returned[i]?, fault with
    | some _, some err => ({ s with returned := s.returned.eraseIdx i }, some (.error err))
    | some task, none => { s with returned := s.returned.eraseIdx i }.insert task
    | none, _ => (s, none)

inductive AdmissionAct where
  | submit (stmt : SubmitStmt)
  | lease (act : LeaseAct)
  /-- The timeout sweeper fails a copy it has read some time ago. -/
  | expire (task : Task) (minutes : Int) (ok : Bool)

def Admission.step (cfg : Config) (db : Database) (lim : AdmissionLimits) (s : Admission) :
    AdmissionAct → Admission
  | .submit stmt => (s.submit db lim stmt).1
  | .lease act => { s with leases := s.leases.step cfg act }
  | .expire task minutes ok =>
    let now := s.leases.now
    { s with leases := s.leases.exec ((timedOut task minutes now).updateWithStatus task.status now) ok }

def Admission.run (cfg : Config) (db : Database) (lim : AdmissionLimits) (s : Admission)
    (acts : List AdmissionAct) : Admission := acts.foldl (Admission.step cfg db lim) s

/-- No submission takes the lock between the release and the commit of another. -/
def Admission.serial (s : Admission) : AdmissionAct → Bool
  | .submit (.lock _ _) => s.returned.isEmpty
  | _ => true

/-- A limit that is not positive limits nothing. -/
structure Within (lim : AdmissionLimits) (rows : TaskTable) : Prop where
  all : 0 < lim.globalLimit → (rows.count activeImageTask : Int) ≤ lim.globalLimit
  user : ∀ userId, 0 < lim.perUserLimit → (rows.count (activeImageTaskOf userId) : Int) ≤ lim.perUserLimit

/-! ## What the other writers do to the counts -/

/-- A statement that neither starts a task nor gives one to another user. -/
def EndsOnly (u : TaskUpdate) : Prop :=
  ∀ r, u.hits r = true → activeImageTask (u.set r) = true → activeImageTask r = true ∧ (u.set r).userId = r.userId

section Counts

variable {rows : TaskTable} {u : TaskUpdate}

theorem EndsOnly.count_le (h : EndsOnly u) :
    (rows.exec u).count activeImageTask ≤ rows.count activeImageTask :=
  count_exec_le fun r _ hh hp => (h r hh hp).1

theorem EndsOnly.count_user_le (h : EndsOnly u) (userId : Int) :
    (rows.exec u).count (activeImageTaskOf userId) ≤ rows.count (activeImageTaskOf userId) := by
  refine count_exec_le fun r _ hh hp => ?_
  simp only [activeImageTaskOf, Bool.and_eq_true, decide_eq_true_eq] at hp ⊢
  obtain ⟨hact, huser⟩ := h r hh hp.1
  exact ⟨hact, huser ▸ hp.2⟩

theorem not_active_of_terminal {t : Task} (h : t.status.terminal = true) :
    activeImageTask t = false := by
  revert h
  unfold TaskStatus.terminal activeImageTask
  cases t.status <;> simp

theorem endsOnly_terminal (h : ∀ r, (u.set r).status.terminal = true) : EndsOnly u := by
  intro r _ hact
  rw [not_active_of_terminal (h r)] at hact
  cases hact

theorem endsOnly_claim (taskId owner : String) (leaseDuration now : Int) (channelIds : List Int)
    (included : Bool) :
    EndsOnly (claimImageAsyncTask taskId owner leaseDuration now channelIds included) := by
  intro r hh _
  simp only [claimImageAsyncTask, Task.claimable, Bool.and_eq_true, decide_eq_true_eq] at hh
  refine ⟨?_, rfl⟩
  simp only [activeImageTask, Bool.and_eq_true, decide_eq_true_eq]
  refine ⟨hh.1.1.2.2.2.2, ?_⟩
  rcases hh.2 with h | h | ⟨h, _⟩
  · exact .inl h
  · exact .inr (.inl h)
  · exact .inr (.inr h)

theorem endsOnly_renew (taskId owner : String) (leaseDuration now : Int) :
    EndsOnly (renewImageAsyncTaskLease taskId owner leaseDuration now) := fun _ _ hact => ⟨hact, rfl⟩

theorem endsOnly_release (taskId owner : String) (now : Int) :
    EndsOnly (releaseImageAsyncTaskLease taskId owner now) := fun _ _ hact => ⟨hact, rfl⟩

end Counts

theorem lease_step_rows (cfg : Config) (s : Leases) (act : LeaseAct) :
    (s.step cfg act).rows = s.rows ∨ ∃ u, EndsOnly u ∧ (s.step cfg act).rows = s.rows.exec u := by
  have hexec : ∀ {w : TaskUpdate} (ok : Bool), EndsOnly w →
      (s.exec w ok).rows = s.rows ∨ ∃ u, EndsOnly u ∧ (s.exec w ok).rows = s.rows.exec u := by
    intro w ok hw
    cases ok with
    | false => exact .inl rfl
    | true => exact .inr ⟨w, hw, rfl⟩
  cases act with
  | tick seconds => exact .inl rfl
  | claim owner taskId leaseDuration channelIds included ok =>
    simp only [Leases.step]
    split
    · exact .inr ⟨_, endsOnly_claim taskId owner leaseDuration s.now channelIds included, rfl⟩
    · exact .inl rfl
  | select k =>
    simp only [Leases.step]
    split <;> exact .inl rfl
  | release k ok =>
    simp only [Leases.step]
    split
    · rename_i owner taskId _
      exact hexec ok (endsOnly_release taskId owner s.now)
    · exact .inl rfl
  | renew k leaseDuration ok =>
    simp only [Leases.step]
    split
    · rename_i owner _ t _
      exact hexec ok (endsOnly_renew t.taskId owner leaseDuration s.now)
    · exact .inl rfl
  | finish k r ok =>
    simp only [Leases.step]
    split
    · rename_i u hw
      obtain ⟨a, t, _, _, rfl⟩ := terminalWrite_some hw
      exact hexec (w := updateImageTaskWithLease (finishImage cfg t r s.now).1 a.owner s.now) ok
        (endsOnly_terminal fun _ => (finishImage_finished cfg t r s.now).terminal)
    · exact .inl rfl

/-! ## The invariant -/

/-- The one transaction between its lock and its commit, while submissions are serial. -/
def Admission.pending (s : Admission) : Option (Task × AdmissionPhase) :=
  s.holder <|> s.returned.head?.map (·, .created)

/-- The limits are kept, and there is room for the task of a transaction that has passed its
checks. -/
structure Admissible (lim : AdmissionLimits) (s : Admission) : Prop where
  within : Within lim s.leases.rows
  alone : s.returned = [] ∨ s.holder = none ∧ s.returned.length = 1
  globalRoom : ∀ task phase, s.pending = some (task, phase) → phase ≠ .locked → 0 < lim.globalLimit →
    (s.leases.rows.count activeImageTask : Int) < lim.globalLimit
  userRoom : ∀ task phase, s.pending = some (task, phase) → phase = .passed ∨ phase = .created →
    0 < lim.perUserLimit →
      (s.leases.rows.count (activeImageTaskOf task.userId) : Int) < lim.perUserLimit

section Invariant

variable {cfg : Config} {db : Database} {lim : AdmissionLimits} {s : Admission}

/-- Between two submissions only the limits count. -/
theorem Admissible.idle (h : Within lim s.leases.rows) (hs : s.pending = none)
    (hret : s.returned = []) : Admissible lim s where
  within := h
  alone := .inl hret
  globalRoom task phase hh := by rw [hs] at hh; cases hh
  userRoom task phase hh := by rw [hs] at hh; cases hh

section

variable (h : Admissible lim s)

include h

theorem Admissible.endTasks {l : Leases}
    (hl : l.rows = s.leases.rows ∨ ∃ u, EndsOnly u ∧ l.rows = s.leases.rows.exec u) :
    Admissible lim { s with leases := l } := by
  have hall : l.rows.count activeImageTask ≤ s.leases.rows.count activeImageTask := by
    rcases hl with hl | ⟨u, hu, hl⟩
    · rw [hl]
    · rw [hl]; exact hu.count_le
  have huser : ∀ userId,
      l.rows.count (activeImageTaskOf userId) ≤ s.leases.rows.count (activeImageTaskOf userId) := by
    intro userId
    rcases hl with hl | ⟨u, hu, hl⟩
    · rw [hl]
    · rw [hl]; exact hu.count_user_le userId
  refine ⟨⟨fun hg => ?_, fun userId hp => ?_⟩, h.alone, fun task phase hh hne hg => ?_,
    fun task phase hh hne hp => ?_⟩
  · have := h.within.all hg
    simp only
    omega
  · have := h.within.user userId hp
    have := huser userId
    simp only
    omega
  · have := h.globalRoom task phase hh hne hg
    simp only
    omega
  have := h.userRoom task phase hh hne hp
  have := huser task.userId
  simp only
  omega

/-- The holder comes a phase further, and nobody else is between lock and commit. -/
theorem Admissible.holds {task : Task} {phase : AdmissionPhase} (hret : s.returned = [])
    (hglobal : phase ≠ .locked → 0 < lim.globalLimit →
      (s.leases.rows.count activeImageTask : Int) < lim.globalLimit)
    (huser : phase = .passed ∨ phase = .created → 0 < lim.perUserLimit →
      (s.leases.rows.count (activeImageTaskOf task.userId) : Int) < lim.perUserLimit) :
    Admissible lim { s with holder := some (task, phase) } := by
  refine ⟨h.within, .inl hret, fun t p hh => ?_, fun t p hh => ?_⟩
  · cases hh; exact hglobal
  · cases hh; exact huser

theorem Admissible.returned_nil {x : Task × AdmissionPhase} (hh : s.holder = some x) :
    s.returned = [] := by
  rcases h.alone with hret | ⟨hnone, _⟩
  · exact hret
  · rw [hnone] at hh; cases hh

theorem Admissible.giveUp {x : Task × AdmissionPhase} (hh : s.holder = some x) :
    Admissible lim { s with holder := none } :=
  idle h.within (by simp [Admission.pending, h.returned_nil hh]) (h.returned_nil hh)

theorem Admissible.insert {task : Task} {i : Nat} (hi : s.returned[i]? = some task) :
    Admissible lim ({ s with returned := s.returned.eraseIdx i }.insert task).1 := by
  obtain ⟨hnone, t, hret⟩ : s.holder = none ∧ ∃ t, s.returned = [t] := by
    rcases h.alone with hret | ⟨hnone, hlen⟩
    · simp [hret] at hi
    · exact ⟨hnone, List.length_eq_one_iff.mp hlen⟩
  obtain ⟨rfl, rfl⟩ : i = 0 ∧ t = task := by
    rw [hret, List.getElem?_singleton] at hi
    split at hi <;> simp_all
  have hpending : s.pending = some (t, .created) := by simp [Admission.pending, hnone, hret]
  unfold Admission.insert
  split
  · exact idle h.within (by simp [Admission.pending, hnone, hret]) (by simp [hret])
  rename_i rows hins
  refine idle ⟨fun hg => ?_, fun userId hp => ?_⟩ (by simp [Admission.pending, hnone, hret])
    (by simp [hret])
  · have := h.globalRoom t .created hpending (by decide) hg
    simp only [count_insert hins]
    split <;> omega
  simp only [count_insert hins]
  split
  · rename_i hact
    have huser : t.userId = userId := by
      simp only [activeImageTaskOf, Bool.and_eq_true, decide_eq_true_eq] at hact
      exact hact.2
    have := h.userRoom t .created hpending (.inr rfl) hp
    rw [huser] at this
    omega
  · have := h.within.user userId hp
    omega

theorem Admissible.submit (stmt : SubmitStmt)
    (hser : db = .postgreSQL ∨ s.serial (.submit stmt) = true) :
    Admissible lim (s.submit db lim stmt).1 := by
  have hheld : ∀ {x}, s.holder = some x → s.pending = some x := fun hh => by
    simp [Admission.pending, hh]
  cases stmt with
  | lock task fault =>
    rcases task with _ | task
    · exact h
    cases fault with
    | some err => exact h
    | none =>
      simp only [Admission.submit]
      split
      · rename_i hfree
        have hret : s.returned = [] := by
          rcases hser with rfl | hser
          · simpa using (Bool.and_eq_true_iff.mp hfree).2
          · simpa [Admission.serial] using hser
        exact h.holds hret (fun hne => absurd rfl hne) (by simp)
      · exact h
  | countGlobal fault =>
    simp only [Admission.submit]
    split
    · rename_i hh; exact h.giveUp hh
    · rename_i hh
      split
      · exact h.giveUp hh
      · exact h.holds (h.returned_nil hh) (fun _ hg => by omega) (by simp)
    · exact h
  | countUser fault =>
    simp only [Admission.submit]
    split
    · rename_i task hh
      have hroom := h.globalRoom task .globalPassed (hheld hh) (by decide)
      have hpass := @Admissible.holds _ _ h task .passed (h.returned_nil hh) fun _ => hroom
      split
      · split
        · exact h.giveUp hh
        split
        · exact h.giveUp hh
        · exact hpass fun _ _ => by omega
      · rename_i hnone
        exact hpass fun _ hpos => absurd hpos hnone
    · exact h
  | create fault =>
    simp only [Admission.submit]
    split
    · rename_i hh; exact h.giveUp hh
    · rename_i task hh
      split
      · exact h.holds (h.returned_nil hh) (fun _ => h.globalRoom task .passed (hheld hh) (by decide))
          fun _ => h.userRoom task .passed (hheld hh) (.inl rfl)
      · exact h.giveUp hh
    · exact h
  | release =>
    simp only [Admission.submit]
    split
    · rename_i task hh
      have hret := h.returned_nil hh
      -- the transaction is the same one, still before its commit
      have hsame : ∀ x, ({ s with holder := none, returned := s.returned ++ [task] } :
          Admission).pending = some x → s.pending = some x := by
        simp [Admission.pending, hret, hh]
      exact ⟨h.within, .inr ⟨rfl, by simp [hret]⟩, fun t p hp => h.globalRoom t p (hsame _ hp),
        fun t p hp => h.userRoom t p (hsame _ hp)⟩
    · exact h
  | commit i fault =>
    simp only [Admission.submit]
    split
    · rename_i hi
      rcases h.alone with hret | ⟨hnone, hlen⟩
      · simp [hret] at hi
      · obtain ⟨t, hret⟩ := List.length_eq_one_iff.mp hlen
        have hi0 : i = 0 := by
          rw [hret, List.getElem?_singleton] at hi
          by_contra hne
          simp [hne] at hi
        exact idle h.within (by simp [Admission.pending, hnone, hret, hi0]) (by simp [hret, hi0])
    · rename_i hi
      exact h.insert hi
    · exact h

theorem Admissible.step (act : AdmissionAct) (hser : db = .postgreSQL ∨ s.serial act = true) :
    Admissible lim (s.step cfg db lim act) := by
  rcases act with stmt | act | ⟨task, minutes, ok⟩
  · exact h.submit stmt hser
  · exact h.endTasks (lease_step_rows cfg s.leases act)
  refine h.endTasks ?_
  cases ok with
  | false => exact .inl rfl
  | true => exact .inr ⟨_, endsOnly_terminal fun _ => rfl, rfl⟩

end

theorem submit_rows (stmt : SubmitStmt) (h : (s.submit db lim stmt).2 ≠ some (.ok ())) :
    (s.submit db lim stmt).1.leases = s.leases := by
  cases stmt with
  | lock task fault =>
    rcases task with _ | task
    · rfl
    cases fault with
    | some err => rfl
    | none => simp only [Admission.submit]; split <;> rfl
  | countGlobal fault =>
    simp only [Admission.submit]
    split
    · rfl
    · split <;> rfl
    · rfl
  | countUser fault =>
    simp only [Admission.submit]
    split
    · split
      · split
        · rfl
        · split <;> rfl
      · rfl
    · rfl
  | create fault =>
    simp only [Admission.submit]
    split
    · rfl
    · split <;> rfl
    · rfl
  | release =>
    simp only [Admission.submit]
    split <;> rfl
  | commit i fault =>
    simp only [Admission.submit, Admission.insert] at h ⊢
    split
    · rfl
    · split
      · rfl
      · rename_i hh _ rows hins
        simp [hh, hins] at h
    · rfl

end Invariant

/-- **Admission keeps every positive limit**, however submissions, claims, terminal writes and the
sweeper interleave, on PostgreSQL and wherever submissions are serial; and a rejected submission
inserts nothing. -/
theorem admission_within_limits (cfg : Config) (db : Database) (lim : AdmissionLimits)
    (s : Admission) (acts : List AdmissionAct) (hfree : s.holder = none ∧ s.returned = [])
    (hwithin : Within lim s.leases.rows)
    (hserial : db = .postgreSQL ∨
      Guarded (Admission.step cfg db lim) (fun s act => s.serial act = true) s acts) :
    Within lim (s.run cfg db lim acts).leases.rows ∧
    ∀ stmt, ((s.run cfg db lim acts).submit db lim stmt).2 ≠ some (.ok ()) →
      ((s.run cfg db lim acts).submit db lim stmt).1.leases.rows =
        (s.run cfg db lim acts).leases.rows := by
  refine ⟨?_, fun stmt h => congrArg Leases.rows (submit_rows stmt h)⟩
  have hstart : Admissible lim s :=
    .idle hwithin (by simp [Admission.pending, hfree.1, hfree.2]) hfree.2
  rcases hserial with hdb | hserial
  · exact (foldl_invariant (P := Admissible lim) (fun _ a h => h.step a (.inl hdb)) acts hstart).within
  · exact (hserial.invariant (fun _ a hok h => h.step a (.inr hok)) hstart).within

def noTasks : Admission := ⟨Leases.start ⟨[], List.nodup_nil⟩ 1800000000, none, []⟩

/-- A submission up to the return of its function. -/
def submission (id : Int) : List AdmissionAct :=
  [.submit (.lock (some { imageTask with id := id }) none), .submit (.countGlobal none),
    .submit (.countUser none), .submit (.create none), .submit .release]

/-- With room for one task, the second of two submissions one after the other is rejected. -/
theorem second_submission_rejected :
    let acts := submission 1 ++ .submit (.commit 0 none) :: submission 2
    (noTasks.run refundingConfig .mysql ⟨1, 1⟩ acts).leases.rows.count activeImageTask = 1 ∧
    Within ⟨1, 1⟩ (noTasks.run refundingConfig .mysql ⟨1, 1⟩ acts).leases.rows :=
  ⟨by decide, (admission_within_limits refundingConfig .mysql ⟨1, 1⟩ noTasks _ ⟨rfl, rfl⟩
    ⟨fun _ => by decide, fun _ _ => by simp [noTasks, Leases.start, count]⟩ (.inr (by decide))).1⟩

/-- On MySQL a second submission counts between the release and the commit of the first, and both
are admitted under a limit of one. -/
theorem submissions_over_limit :
    ((noTasks.run refundingConfig .mysql ⟨1, 1⟩ (submission 1 ++ submission 2 ++
      [.submit (.commit 0 none), .submit (.commit 0 none)])).leases.rows.count activeImageTask : Int)
      = 2 := by
  decide

end NewApi.Tasks
