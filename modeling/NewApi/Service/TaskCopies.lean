import NewApi.Service.TaskViews

/-!
# Copies and the table

Every party works on copies of rows it read earlier. A copy may be stale in everything but what
identifies the task, and that no write changes.

* `Poller.Once`, `VideoOK` — a round meets each video task once, with a copy that is not terminal;
  this is what distinct upstream ids give.
* `wf_step`, `videoOK_step` — every action keeps both.
-/

namespace NewApi.Tasks

open NewApi.Billing List Table Function

/-- The table has a row with the id of `t` and what identifies `t`. -/
def Stored (rows : TaskTable) (t : Task) : Prop :=
  ∃ r, rows.get t.id = some r ∧ identity r = identity t

/-- No write of `u` on these rows changes what identifies a task. -/
def KeepsIdentity (rows : TaskTable) (u : TaskUpdate) : Prop :=
  ∀ r ∈ rows.rows, u.hits r = true → identity (u.set r) = identity r

section Stored

variable {rows : TaskTable} {t t' : Task} {u : TaskUpdate} {r : Task}

theorem identity_apply (hu : KeepsIdentity rows u) (hr : r ∈ rows.rows) :
    identity (u.apply r) = identity r := by
  unfold Table.Update.apply
  split
  · rename_i hh; exact hu r hr hh
  · rfl

theorem Stored.exec (h : Stored rows t) (hu : KeepsIdentity rows u) : Stored (rows.exec u) t := by
  obtain ⟨r, hr, hi⟩ := h
  refine ⟨u.apply r, ?_, ?_⟩
  · rw [get_exec, hr]; rfl
  · rw [identity_apply hu (mem_of_get hr), hi]

theorem Stored.of_mem (h : t ∈ rows.rows) : Stored rows t := ⟨t, get_of_mem h, rfl⟩

section

variable (h : Stored rows t)

include h

theorem Stored.copy (hid : t'.id = t.id) (hi : identity t' = identity t) : Stored rows t' := by
  obtain ⟨r, hr, hri⟩ := h
  exact ⟨r, hid ▸ hr, hri.trans hi.symm⟩

theorem Stored.identity_row (hr : r ∈ rows.rows) (hid : r.id = t.id) : identity t = identity r := by
  obtain ⟨r', hr', hi⟩ := h
  have hget := Table.get_of_mem hr
  rw [hid, hr'] at hget
  cases hget
  exact hi.symm

theorem Stored.platform (hr : rows.get t.id = some r) : t.platform = r.platform := by
  have := h.identity_row (mem_of_get hr) (key_of_get hr)
  exact congrArg Prod.fst this

theorem Stored.update (now : Int) : KeepsIdentity rows (t.update now) := by
  intro r hr hh
  exact h.identity_row hr (of_decide_eq_true hh)

theorem Stored.updateWithStatus (old : TaskStatus) (now : Int) :
    KeepsIdentity rows (t.updateWithStatus old now) := by
  intro r hr hh
  exact h.identity_row hr (of_decide_eq_true hh).1

theorem Stored.updateImageTaskWithLease (owner : String) (now : Int) :
    KeepsIdentity rows (updateImageTaskWithLease t owner now) := by
  intro r hr hh
  exact h.identity_row hr (of_decide_eq_true hh).2.1

end

theorem distinctUpstream_exec (h : DistinctUpstream rows.rows) (hu : KeepsIdentity rows u) :
    DistinctUpstream (rows.exec u).rows := by
  have hfield : ∀ r ∈ rows.rows, (u.apply r).polled = r.polled ∧
      ((u.apply r).platform, (u.apply r).getUpstreamTaskID) = (r.platform, r.getUpstreamTaskID) := by
    intro r hr
    have hi := identity_apply hu hr
    simp only [identity, Prod.mk.injEq] at hi
    obtain ⟨hp, hk, ht, hup⟩ := hi
    have hup' : (u.apply r).getUpstreamTaskID = r.getUpstreamTaskID := by
      unfold Task.getUpstreamTaskID
      rw [hup, ht]
    unfold Task.polled
    rw [hk, hup', hp]
    exact ⟨rfl, rfl⟩
  have hrows : (((rows.exec u).rows.filter Task.polled).map fun t => (t.platform, t.getUpstreamTaskID)) =
      ((rows.rows.filter Task.polled).map fun t => (t.platform, t.getUpstreamTaskID)) := by
    simp only [exec, filter_map, map_map]
    have hfilter : rows.rows.filter (Task.polled ∘ u.apply) = rows.rows.filter Task.polled :=
      filter_congr fun r hr => (hfield r hr).1
    rw [hfilter]
    exact map_congr_left fun r hr => (hfield r (mem_filter.mp hr).1).2
  unfold DistinctUpstream
  rw [hrows]
  exact h

end Stored

/-! ## How a copy changes -/

section Changes

variable {cfg : Config} {now : Int} {task t : Task} {r : VideoResult} {data : String}

theorem applyVideoResult_ok (h : applyVideoResult cfg now task r data = .ok t) :
    t.id = task.id ∧ identity t = identity task ∧ t.status = r.status := by
  unfold applyVideoResult at h
  cases hs : r.status <;> simp only [hs] at h <;> cases h <;> exact ⟨rfl, rfl, rfl⟩

theorem applyVideoResult_error (h : applyVideoResult cfg now task r data = .error t) :
    t.id = task.id ∧ identity t = identity task := by
  unfold applyVideoResult at h
  cases hs : r.status <;> simp only [hs] at h <;> cases h <;> exact ⟨rfl, rfl⟩

theorem finishImage_copy (cfg : Config) (t : Task) (r : ImageResult) (now : Int) :
    (finishImage cfg t r now).1.id = t.id ∧ identity (finishImage cfg t r now).1 = identity t ∧
    (finishImage cfg t r now).1.status.terminal = true ∧
    (finishImage cfg t r now).2.task = (finishImage cfg t r now).1 ∧
    (finishImage cfg t r now).2.isSave = false := by
  have hfin := finishImage_finished cfg t r now
  have hidentity : identity (finishImage cfg t r now).1 = identity t := by
    simp only [identity, hfin.platform, hfin.taskKind, hfin.taskId, hfin.upstreamTaskId]
  refine ⟨hfin.id, hidentity, hfin.terminal, ?_⟩
  rcases hfin.bill with ⟨reason, hb⟩ | hb
  · rw [hb]
    exact ⟨rfl, rfl⟩
  · rw [hb]
    exact ⟨rfl, rfl⟩

theorem videoBill_task {b : Pending} {body : String} (h : videoBill cfg t r body = some b) :
    b.task = t ∧ b.isSave = false ∧ t.status.terminal = true := by
  unfold videoBill at h
  cases hs : t.status <;> simp only [hs] at h <;> try cases h
  · split at h
    · cases h; exact ⟨rfl, rfl, rfl⟩
    · cases h
  · exact ⟨rfl, rfl, rfl⟩

end Changes

/-! ## Pollers -/

/-- Ids of the video tasks a piece of work will look up. -/
def Work.targets : Work → List Int
  | .repair _ => []
  | .channel platform _ taskIds taskM =>
    if platform = .suno then [] else taskIds.filterMap fun u => findKey u taskM
  | .single obj => obj.toList
  | .item _ _ => []

/-- The copies a piece of work looks up are of the platform it is for. -/
def Work.Typed (mem : Int → Option Task) : Work → Prop
  | .repair _ => True
  | .channel platform _ _ taskM => ∀ u i t, findKey u taskM = some i → mem i = some t → t.platform = platform
  | .single obj => ∀ i t, obj = some i → mem i = some t → t.platform ≠ .suno
  | .item obj _ => ∀ i t, obj = some i → mem i = some t → t.platform = .suno

structure Poller.WF (rows : TaskTable) (x : Poller) : Prop where
  mem : ∀ i t, x.mem i = some t → t.id = i ∧ Stored rows t
  typed : ∀ w ∈ x.todo, w.Typed x.mem

structure Poller.Once (x : Poller) : Prop where
  nodup : (x.todo.flatMap Work.targets).Nodup
  live : ∀ i ∈ x.todo.flatMap Work.targets, ∀ t, x.mem i = some t → t.status.terminal = false

variable {mem : Int → Option Task}

section Pollers

variable {rows : TaskTable} {x : Poller} {w : Work} {rest : List Work} {u : TaskUpdate} {t : Task}

theorem Poller.WF.exec (h : x.WF rows) (hu : KeepsIdentity rows u) : x.WF (rows.exec u) :=
  ⟨fun i t ht => ⟨(h.mem i t ht).1, (h.mem i t ht).2.exec hu⟩, h.typed⟩

theorem Work.Typed.update (h : w.Typed mem) {i : Int} {old : Task}
    (hold : mem i = some old) (hp : t.platform = old.platform) :
    w.Typed (Function.update mem i (some t)) := by
  have hlook : ∀ j y, Function.update mem i (some t) j = some y → ∃ y', mem j = some y' ∧ y'.platform = y.platform := by
    intro j y hy
    by_cases hj : j = i
    · subst hj
      rw [Function.update_self] at hy
      cases hy
      exact ⟨old, hold, hp.symm⟩
    · rw [update_of_ne hj] at hy
      exact ⟨y, hy, rfl⟩
  cases w with
  | repair ids => trivial
  | channel platform c ids taskM =>
    intro u j y hu hy
    obtain ⟨y', hy', hyp⟩ := hlook j y hy
    rw [← hyp]
    exact h u j y' hu hy'
  | single obj | item obj it =>
    intro j y hj hy
    obtain ⟨y', hy', hyp⟩ := hlook j y hy
    rw [← hyp]
    exact h j y' hj hy'

theorem Poller.WF.tail (h : x.WF rows) (htodo : x.todo = w :: rest) :
    Poller.WF rows { x with todo := rest } :=
  ⟨h.mem, fun w' hw' => h.typed w' (htodo ▸ mem_cons_of_mem _ hw')⟩

theorem Poller.Once.tail (h : x.Once) (htodo : x.todo = w :: rest) :
    Poller.Once { x with todo := rest } := by
  have hflat : x.todo.flatMap Work.targets = w.targets ++ rest.flatMap Work.targets := by rw [htodo]; rfl
  refine ⟨?_, fun i hi t ht => h.live i ?_ t ht⟩
  · have hn := h.nodup
    rw [hflat] at hn
    exact hn.of_append_right
  · rw [hflat]
    exact mem_append_right _ hi

theorem Poller.WF.set (h : x.WF rows) {old : Task} (hold : x.mem t.id = some old)
    (hi : identity t = identity old) :
    Poller.WF rows { x with mem := Function.update x.mem t.id (some t) } := by
  obtain ⟨hid, hst⟩ := h.mem t.id old hold
  refine ⟨fun j y hy => ?_, fun w hw => (h.typed w hw).update hold (congrArg Prod.fst hi)⟩
  by_cases hj : j = t.id
  · subst hj
    simp only [update_self, Option.some.injEq] at hy
    subst hy
    exact ⟨rfl, hst.copy hid.symm hi⟩
  · simp only [update_of_ne hj] at hy
    exact h.mem j y hy

theorem Poller.Once.set (h : x.Once) (hfree : t.id ∉ x.todo.flatMap Work.targets) :
    Poller.Once { x with mem := Function.update x.mem t.id (some t) } := by
  refine ⟨h.nodup, fun i hi y hy => ?_⟩
  have hne : i ≠ t.id := fun he => hfree (he ▸ hi)
  simp only [update_of_ne hne] at hy
  exact h.live i hi y hy

theorem Poller.WF.suno_free (h : x.WF rows) {i : Int} (ht : x.mem i = some t)
    (hp : t.platform = .suno) : i ∉ x.todo.flatMap Work.targets := by
  intro hi
  obtain ⟨w, hw, hiw⟩ := mem_flatMap.mp hi
  have htyped := h.typed w hw
  cases w with
  | repair ids | item obj it => cases hiw
  | channel platform c ids taskM =>
    simp only [Work.targets] at hiw
    split at hiw
    · cases hiw
    rename_i hne
    obtain ⟨u, _, hu⟩ := mem_filterMap.mp hiw
    exact hne ((htyped u i t hu ht).symm.trans hp)
  | single obj =>
    simp only [Work.targets, Option.mem_toList] at hiw
    exact htyped i t hiw ht hp

end Pollers

/-! ## A fresh round -/

section Plan

variable {tasks : List Task}

/-- The id a video step will look up for a pair handed over, if the pair goes to one. -/
def Handed.target (h : Handed) : Option Int :=
  if h.step = .updateVideoTasks then h.task.map Task.id else none

attribute [local simp] Handed.target flatMap_map

theorem channel_targets (platform : TaskPlatform) (g : Grouped) :
    (if dispatchPlatformUpdate platform = .reserved then []
      else g.taskChannelM.map fun c => Work.channel platform c.1 c.2
        (g.taskM.map fun x => (x.1, x.2.id))).flatMap Work.targets =
      (g.handed platform).filterMap Handed.target := by
  have htarget : ∀ u, findKey u (g.taskM.map fun x => (x.1, x.2.id)) = (findKey u g.taskM).map Task.id :=
    fun u => findKey_map Task.id u g.taskM
  unfold Grouped.handed
  generalize g.taskChannelM = m
  cases platform with
  | suno => simp [dispatchPlatformUpdate, comp_def, Work.targets]
  | midjourney => simp [dispatchPlatformUpdate]
  | image | other name =>
    rw [if_neg (by simp [dispatchPlatformUpdate]), flatMap_map]
    simp only [dispatchPlatformUpdate, comp_def, Handed.target, Work.targets, unroll,
      filterMap_flatMap, filterMap_map, htarget]
    simp

theorem plan_targets (tasks : List Task) :
    (plan tasks).flatMap Work.targets = (handed tasks).filterMap Handed.target := by
  unfold plan handed
  rw [flatMap_assoc, filterMap_flatMap]
  refine flatMap_congr fun e _ => ?_
  rw [flatMap_append, channel_targets]
  have hrepair : (if (groupPlatform e.2).nullTaskIds.isEmpty then []
      else [Work.repair (groupPlatform e.2).nullTaskIds]).flatMap Work.targets = [] := by
    split <;> rfl
  rw [hrepair, nil_append]

theorem plan_targets_nodup (hd : DistinctUpstream tasks) (hid : (tasks.map Task.id).Nodup) :
    ((plan tasks).flatMap Work.targets).Nodup := by
  rw [plan_targets, ((handed_of_distinct hd).filterMap _).nodup_iff, filterMap_map]
  have hmap : ∀ ts : List Task, ts.filterMap (Handed.target ∘ Handed.own) =
      (ts.filter fun t => decide (dispatchPlatformUpdate t.platform = .updateVideoTasks)).map Task.id := by
    intro ts
    rw [← filterMap_eq_map, filterMap_filter]
    congr 1
    funext t
    by_cases ht : dispatchPlatformUpdate t.platform = .updateVideoTasks <;>
      simp [Handed.own, ht]
  rw [hmap]
  exact hid.sublist ((filter_sublist.trans filter_sublist).map _)

/-- The copies of a round, by id. -/
def copies (tasks : List Task) (id : Int) : Option Task := tasks.find? fun t => decide (t.id = id)

theorem copies_mem {id : Int} {t : Task} (h : copies tasks id = some t) : t ∈ tasks ∧ t.id = id :=
  ⟨mem_of_find?_eq_some h, by simpa using find?_some h⟩

theorem plan_typed (hid : (tasks.map Task.id).Nodup) {w : Work} (hw : w ∈ plan tasks) :
    w.Typed (copies tasks) := by
  obtain ⟨⟨platform, ts⟩, he, hw⟩ := mem_flatMap.mp hw
  have hts : ts = tasks.filter (fun t => decide (t.platform = platform)) := mem_groupKey he
  rcases mem_append.mp hw with hw | hw
  · split at hw
    · cases hw
    · rw [mem_singleton.mp hw]
      trivial
  split at hw
  · cases hw
  obtain ⟨c, _, rfl⟩ := mem_map.mp hw
  intro u i t hu ht
  rw [findKey_map Task.id, groupPlatform_find] at hu
  obtain ⟨t', ht', rfl⟩ := Option.map_eq_some_iff.mp hu
  have hm := mem_of_mem_filter (mem_of_getLast? ht')
  rw [hts] at hm
  obtain ⟨hm, hp⟩ := mem_filter.mp hm
  obtain ⟨htm, htid⟩ := copies_mem ht
  have heq : t = t' := inj_on_of_nodup_map hid htm hm htid
  rw [heq]
  exact of_decide_eq_true hp

variable {round : List Work}

theorem Poller.WF.load {rows : TaskTable} {limit : Nat}
    (hr : round.Perm (plan (getAllUnFinishSyncTasks rows limit))) :
    Poller.WF rows ⟨copies (getAllUnFinishSyncTasks rows limit), round⟩ := by
  refine ⟨fun i t ht => ?_, fun w hw => ?_⟩
  · obtain ⟨hm, hi⟩ := copies_mem ht
    exact ⟨hi, .of_mem (mem_getAllUnFinishSyncTasks hm).1⟩
  · exact plan_typed (nodup_getAllUnFinishSyncTasks rows limit) (hr.mem_iff.mp hw)

theorem distinctUpstream_load {rows : TaskTable} (h : DistinctUpstream rows.rows) (limit : Nat) :
    DistinctUpstream (getAllUnFinishSyncTasks rows limit) := by
  have hperm := (perm_insertionSort (fun a b : Task => a.id ≤ b.id)
    (rows.rows.filter Task.unfinished)).filter Task.polled
  have hsub : DistinctUpstream (rows.rows.filter Task.unfinished) :=
    List.Nodup.sublist ((filter_sublist.filter _).map _) h
  have hn := (hperm.map fun t : Task => (t.platform, t.getUpstreamTaskID)).nodup_iff.mpr hsub
  exact hn.sublist (((take_sublist limit _).filter _).map _)

theorem Poller.Once.load {rows : TaskTable} {limit : Nat}
    (hd : DistinctUpstream rows.rows)
    (hr : round.Perm (plan (getAllUnFinishSyncTasks rows limit))) :
    Poller.Once ⟨copies (getAllUnFinishSyncTasks rows limit), round⟩ := by
  refine ⟨?_, fun i _ t ht => ?_⟩
  · exact (hr.flatMap_right _).nodup_iff.mpr
      (plan_targets_nodup (distinctUpstream_load hd limit) (nodup_getAllUnFinishSyncTasks rows limit))
  · exact unfinished_not_terminal (mem_getAllUnFinishSyncTasks (copies_mem ht).1).2

end Plan

/-! ## The whole system -/

/-- All copies are stored. With `distinct`, upstream ids are distinct and every round meets each
video task once. -/
structure WF (distinct : Prop) (s : World) : Prop where
  upstream : distinct → DistinctUpstream s.rows.rows
  pollers : ∀ n, (s.poller n).WF s.rows
  once : distinct → ∀ n, (s.poller n).Once
  sweepers : ∀ n, ∀ t ∈ (s.sweeper n).todo, Stored s.rows t ∧ t.status.terminal = false
  workers : ∀ n t, s.worker n = .working t → Stored s.rows t
  pending : ∀ x ∈ s.pending, Stored s.rows x.2.task ∧ (x.2.isSave = true → x.2.task.platform = .suno)
  parties : (s.pending.map Prod.fst).Nodup

theorem WF.start (rows : TaskTable) (ledger : Ledger) {distinct : Prop}
    (h : distinct → DistinctUpstream rows.rows) : WF distinct (World.start rows ledger) where
  upstream := h
  pollers _ := ⟨fun _ _ ht => (by cases ht), fun _ hw => (by cases hw)⟩
  once _ _ := ⟨nodup_nil, fun _ hi => (by cases hi)⟩
  sweepers _ _ ht := by cases ht
  workers _ _ ht := by cases ht
  pending _ hx := by cases hx
  parties := nodup_nil

variable {x : Poller}

section Blocks

variable {distinct : Prop} {cfg : Config} {s : World} {p : Party} {u : TaskUpdate} {body : String} {n : Nat}

theorem WF.rows (h : WF distinct s) (hu : KeepsIdentity s.rows u) :
    WF distinct { s with rows := s.rows.exec u } :=
  { h with
    upstream := fun hd => distinctUpstream_exec (h.upstream hd) hu
    pollers := fun n => (h.pollers n).exec hu
    sweepers := fun n t ht => ⟨(h.sweepers n t ht).1.exec hu, (h.sweepers n t ht).2⟩
    workers := fun n t ht => (h.workers n t ht).exec hu
    pending := fun x hx => ⟨(h.pending x hx).1.exec hu, (h.pending x hx).2⟩ }

theorem WF.books (h : WF distinct s) (l : Ledger) (log : List Event) :
    WF distinct { s with ledger := l, log := log } :=
  { h with }

theorem WF.exec (h : WF distinct s) (hu : KeepsIdentity s.rows u) :
    WF distinct (s.exec cfg p u body) :=
  (h.rows hu).books s.ledger _

variable {b : Option Pending}

section

variable (h : WF distinct s)

include h

theorem WF.hold (hidle : findKey p s.pending = none)
    (hb : ∀ x, b = some x → Stored s.rows x.task ∧ (x.isSave = true → x.task.platform = .suno)) :
    WF distinct (s.hold p b) := by
  rcases b with _ | b
  · simpa [World.hold] using h
  refine { h with pending := ?_, parties := ?_ }
  · intro x hx
    rcases mem_append.mp hx with hx | hx
    · exact h.pending x hx
    have hx' : x = (p, b) := by simpa using hx
    rw [hx']
    exact hb b rfl
  · simp only [World.hold, Option.map_some, Option.toList_some]
    rw [map_append, map_singleton, nodup_append]
    refine ⟨h.parties, nodup_singleton _, ?_⟩
    intro q hq q' hq' he
    have hqp : q = p := he.trans (mem_singleton.mp hq')
    exact findKey_eq_none hidle (hqp ▸ hq)

attribute [local simp] World.setPoller World.setSweeper World.setWorker

theorem WF.setPoller (hx : x.WF s.rows) (ho : distinct → x.Once) :
    WF distinct (s.setPoller n x) where
  upstream := h.upstream
  pollers m := by
    by_cases hm : m = n
    · subst hm; simpa using hx
    · simpa [update_of_ne hm] using h.pollers m
  once hd m := by
    by_cases hm : m = n
    · subst hm; simpa using ho hd
    · simpa [update_of_ne hm] using h.once hd m
  sweepers := h.sweepers
  workers := h.workers
  pending := h.pending
  parties := h.parties

theorem WF.setMem {t old : Task} (hold : (s.poller n).mem t.id = some old)
    (hi : identity t = identity old)
    (hfree : distinct → t.id ∉ (s.poller n).todo.flatMap Work.targets) :
    WF distinct (s.setMem n t) :=
  h.setPoller ((h.pollers n).set hold hi) fun hd => (h.once hd n).set (hfree hd)

theorem WF.setWorker {x : Worker} (hx : ∀ t, x = .working t → Stored s.rows t) :
    WF distinct (s.setWorker n x) := by
  refine { h with workers := fun m t ht => ?_ }
  by_cases hm : m = n
  · subst hm
    exact hx t (by simpa using ht)
  · exact h.workers m t (by simpa [update_of_ne hm] using ht)

theorem WF.setSweeper {x : Sweeper}
    (hx : ∀ t ∈ x.todo, Stored s.rows t ∧ t.status.terminal = false) :
    WF distinct (s.setSweeper n x) := by
  refine { h with sweepers := fun m t ht => ?_ }
  by_cases hm : m = n
  · subst hm
    exact hx t (by simpa using ht)
  · exact h.sweepers m t (by simpa [update_of_ne hm] using ht)

end

variable {ok : Bool} (h : WF distinct s)

include h

section Cas

variable (hu : KeepsIdentity s.rows u) (hidle : findKey p s.pending = none)
  (hb : ∀ x, b = some x → Stored s.rows x.task ∧ (x.isSave = true → x.task.platform = .suno))

include hu hidle hb

theorem WF.cas : WF distinct (s.cas cfg p u body ok b) := by
  unfold World.cas
  split
  · exact (h.exec hu).hold hidle fun x hx => ⟨(hb x hx).1.exec hu, (hb x hx).2⟩
  · exact h

theorem WF.cas_hold : WF distinct ((s.cas cfg p u body ok none).hold p b) := by
  unfold World.cas
  split
  · have hnone : WF distinct ((s.exec cfg p u body).hold p none) :=
      (h.exec hu).hold hidle fun _ hx => (by cases hx)
    refine hnone.hold ?_ fun x hx => ⟨(hb x hx).1.exec hu, (hb x hx).2⟩
    simpa [World.hold, World.exec] using hidle
  · exact h.hold hidle hb

end Cas

theorem WF.lease (hu : KeepsIdentity s.rows u) : WF distinct (s.lease cfg n u ok) := by
  unfold World.lease
  split
  · exact h.exec hu
  · exact h

theorem WF.taken (p : Party) :
    WF distinct { s with pending := s.pending.filter fun x => decide (x.1 ≠ p) } :=
  { h with
    pending := fun x hx => h.pending x (mem_filter.mp hx).1
    parties := h.parties.sublist (filter_sublist.map _) }

end Blocks

/-! ## Statements on the quota column -/

def QuotaOnly (us : List TaskUpdate) : Prop := ∀ u ∈ us, ∃ t q now, u = Task.updateQuota t q now

section QuotaOnly

variable {te : TaskEnv} {l : Ledger} {task : Task} {us : List TaskUpdate}

theorem quotaOnly_nil : QuotaOnly [] := fun _ hu => (by cases hu)

theorem recalculate_quotaOnly (te : TaskEnv) (l : Ledger) (task : Task) (q : Int) :
    QuotaOnly (recalculateTaskQuota te l task q).2.2.1 := by
  have hstored : QuotaOnly (if 0 < task.id then [task.updateQuota q te.env.now] else []) := by
    split
    · intro u hu
      exact ⟨task, q, te.env.now, mem_singleton.mp hu⟩
    · exact quotaOnly_nil
  unfold recalculateTaskQuota
  simp only
  split
  · exact quotaOnly_nil
  split
  · exact hstored
  rcases taskAdjustFunding te.env l task (q - task.quota) with ⟨l', r⟩
  cases r with
  | error err => exact quotaOnly_nil
  | ok _ => exact hstored

theorem settle_quotaOnly (te : TaskEnv) (l : Ledger) (task : Task) (adaptorQuota : Int)
    (byTokens : Option Int) :
    QuotaOnly (settleTaskBillingOnComplete te l task adaptorQuota byTokens).2.2.1 := by
  unfold settleTaskBillingOnComplete
  split
  · exact quotaOnly_nil
  split
  · split
    · exact recalculate_quotaOnly te l task _
    · exact quotaOnly_nil
  cases byTokens with
  | none => exact quotaOnly_nil
  | some q => exact recalculate_quotaOnly te l task q

theorem get_quotaOnly (hus : QuotaOnly us) (id : Int) :
    ∀ rows : TaskTable, ∃ q now, (us.foldl Table.exec rows).get id =
      (rows.get id).map fun old => { old with quota := q, updatedAt := now } := by
  induction us with
  | nil =>
    intro rows
    cases hold : rows.get id with
    | none => exact ⟨0, 0, hold⟩
    | some old => exact ⟨old.quota, old.updatedAt, hold⟩
  | cons u us ih =>
    intro rows
    obtain ⟨t, q, now, rfl⟩ := hus u mem_cons_self
    obtain ⟨q', now', hrest⟩ :=
      ih (fun u hu => hus u (mem_cons_of_mem _ hu)) (rows.exec (t.updateQuota q now))
    refine ⟨q', now', ?_⟩
    rw [foldl_cons, hrest, get_exec, Option.map_map]
    congr 1
    funext old
    simp only [comp, Table.Update.apply]
    split <;> rfl

theorem WF.quotaOnly {distinct : Prop} (hus : QuotaOnly us) :
    ∀ {s : World}, WF distinct s → WF distinct { s with rows := us.foldl Table.exec s.rows } := by
  induction us with
  | nil => intro s h; exact h
  | cons u us ih =>
    intro s h
    obtain ⟨t, q, now, rfl⟩ := hus u mem_cons_self
    have hrow : WF distinct { s with rows := s.rows.exec (t.updateQuota q now) } :=
      h.rows fun _ _ _ => rfl
    exact ih (fun u hu => hus u (mem_cons_of_mem _ hu)) hrow

end QuotaOnly

/-! ## Actions -/

section Steps

variable {distinct : Prop} {cfg : Config} {s : World} {p : Party} {n : Nat} {e : PollEnv} {task : Task}

@[simp] theorem setPoller_poller (s : World) (n : Nat) (x : Poller) :
    (s.setPoller n x).poller n = x :=
  update_self ..

theorem idle_iff : s.idle p = true ↔ findKey p s.pending = none := by
  simp [World.idle]

variable {more : List Work}

theorem Poller.WF.expand {rows : TaskTable} (h : x.WF rows)
    (hmore : ∀ w ∈ more, w.Typed x.mem) : Poller.WF rows { x with todo := more ++ x.todo } := by
  refine ⟨h.mem, fun w hw => ?_⟩
  rcases mem_append.mp hw with hw | hw
  · exact hmore w hw
  · exact h.typed w hw

theorem Poller.Once.expand {w : Work} {rest : List Work} (h : x.Once)
    (htodo : x.todo = w :: rest) (hmore : (more.flatMap Work.targets).Sublist w.targets) :
    Poller.Once { x with todo := more ++ rest } := by
  have hsub : ((more ++ rest).flatMap Work.targets).Sublist (x.todo.flatMap Work.targets) := by
    rw [htodo, flatMap_append, flatMap_cons]
    exact hmore.append_right _
  exact ⟨h.nodup.sublist hsub, fun i hi t ht => h.live i (hsub.subset hi) t ht⟩

theorem pollChannel_more {platform : TaskPlatform} {channelId : Int} {taskIds : List String}
    {taskM : List (String × Int)}
    (hmore : more = match platform with
      | .suno => (e.suno.getD []).map fun it => Work.item (findKey it.taskId taskM) it
      | _ => if e.adaptorOk then taskIds.map fun id => Work.single (findKey id taskM) else [])
    (htyped : (Work.channel platform channelId taskIds taskM).Typed mem) :
    (∀ w ∈ more, w.Typed mem) ∧
    (more.flatMap Work.targets).Sublist (Work.channel platform channelId taskIds taskM).targets := by
  have hsingle : platform ≠ .suno →
      (∀ w ∈ (if e.adaptorOk then taskIds.map fun id => Work.single (findKey id taskM) else []), w.Typed mem) ∧
      ((if e.adaptorOk then taskIds.map fun id => Work.single (findKey id taskM) else []).flatMap
        Work.targets).Sublist (Work.channel platform channelId taskIds taskM).targets := by
    intro hp
    simp only [Work.targets, if_neg hp]
    split
    · refine ⟨fun w hw => ?_, ?_⟩
      · obtain ⟨u, _, rfl⟩ := mem_map.mp hw
        intro i t hi ht
        rw [htyped u i t hi ht]
        exact hp
      · rw [flatMap_map, filterMap_eq_flatMap_toList]
        exact List.Sublist.refl _
    · exact ⟨fun w hw => (by cases hw), nil_sublist _⟩
  cases platform with
  | suno =>
    subst hmore
    refine ⟨fun w hw => ?_, ?_⟩
    · obtain ⟨it, _, rfl⟩ := mem_map.mp hw
      intro i t hi ht
      exact htyped it.taskId i t hi ht
    · simp [Work.targets]
  | midjourney | image | other name => subst hmore; exact hsingle (by simp)

theorem bulk_keepsIdentity (rows : TaskTable) (ids : List Int) (reason : Option String)
    (now : Int) :
    KeepsIdentity rows (taskBulkUpdateByID ids reason now) := fun _ _ _ => rfl

theorem copy_of_bind {rows : TaskTable} (h : x.WF rows) {obj : Option Int}
    (hobj : obj.bind x.mem = some task) : obj = some task.id ∧ x.mem task.id = some task := by
  obtain ⟨i, hi, ht⟩ := Option.bind_eq_some_iff.mp hobj
  obtain rfl := (h.mem i task ht).1
  exact ⟨hi, ht⟩

theorem getImageTaskByLease_mem {rows : TaskTable} {taskId owner : String} {t : Task}
    (h : getImageTaskByLease rows taskId owner = some t) : t ∈ rows.rows :=
  mem_of_mem_filter ((mem_insertionSort _).mp (mem_of_head? h))

section

variable (h : WF distinct s)

include h

section

variable (hidle : findKey (.poller n) s.pending = none)

include hidle

theorem WF.pollVideo
    (hmem : (s.poller n).mem task.id = some task)
    (hfree : distinct → task.id ∉ (s.poller n).todo.flatMap Work.targets) :
    WF distinct (s.pollVideo cfg n e task) := by
  -- a copy with another content
  have hset : ∀ t, t.id = task.id → identity t = identity task → WF distinct (s.setMem n t) := by
    intro t hid hi
    exact h.setMem (hid ▸ hmem) hi (hid ▸ hfree)
  unfold World.pollVideo
  split
  · exact h
  · exact hset _ rfl rfl
  rename_i r data body _
  split
  · rename_i t ht
    obtain ⟨hid, hi⟩ := applyVideoResult_error ht
    exact hset t hid hi
  rename_i t ht
  obtain ⟨hid, hi, -⟩ := applyVideoResult_ok ht
  have hst : Stored s.rows t := ((h.pollers n).mem _ _ hmem).2.copy hid hi
  have hbill : ∀ x, videoBill cfg t r body = some x →
      Stored s.rows x.task ∧ (x.isSave = true → x.task.platform = .suno) := by
    intro x hx
    obtain ⟨htask, hsave, -⟩ := videoBill_task hx
    exact ⟨htask ▸ hst, fun hc => (by rw [hsave] at hc; cases hc)⟩
  have hu := hst.updateWithStatus task.status e.env.now
  split
  · exact (hset t hid hi).cas hu hidle hbill
  split
  · exact (hset t hid hi).cas_hold hu hidle hbill
  · exact (hset t hid hi).hold hidle hbill

theorem WF.pollSuno
    (hmem : (s.poller n).mem task.id = some task) (hsuno : task.platform = .suno)
    (item : SunoItem) : WF distinct (s.pollSuno cfg n e task item) := by
  have hst : Stored s.rows (applySunoItem task item).1 :=
    ((h.pollers n).mem _ _ hmem).2.copy rfl rfl
  have hset : WF distinct (s.setMem n (applySunoItem task item).1) :=
    h.setMem hmem rfl fun _ => (h.pollers n).suno_free hmem hsuno
  unfold World.pollSuno
  split
  · simp only
    split
    · refine (hset.books _ _).hold hidle fun x hx => ?_
      cases hx
      exact ⟨hst, fun _ => hsuno⟩
    refine hset.hold hidle fun x hx => ?_
    cases hx
    exact ⟨hst, fun _ => hsuno⟩
  · exact h

theorem WF.poll : WF distinct (s.poll cfg n e) := by
  unfold World.poll
  split
  · exact h
  rename_i w rest htodo
  have hrest : WF distinct (s.setPoller n { s.poller n with todo := rest }) :=
    h.setPoller ((h.pollers n).tail htodo) fun hd => (h.once hd n).tail htodo
  have htyped := (h.pollers n).typed w (htodo ▸ mem_cons_self)
  simp only
  split
  · split
    · exact hrest.exec (bulk_keepsIdentity _ _ _ _)
    · exact hrest
  · unfold World.pollChannel
    split
    · simp only [setPoller_poller]
      obtain ⟨hmore, hsub⟩ := pollChannel_more (e := e) rfl htyped
      refine hrest.setPoller ?_ fun hd => (h.once hd n).expand htodo hsub
      exact ((h.pollers n).tail htodo).expand hmore
    simp only
    split
    · exact hrest.exec (bulk_keepsIdentity _ _ _ _)
    · exact hrest
  · split
    · rename_i task hobj
      rw [setPoller_poller] at hobj
      obtain ⟨hi, hmem⟩ := copy_of_bind ((h.pollers n).tail htodo) hobj
      refine hrest.pollVideo hidle (by rw [setPoller_poller]; exact hmem) fun hd => ?_
      have hn := (h.once hd n).nodup
      rw [htodo, flatMap_cons, hi] at hn
      rw [setPoller_poller]
      exact (nodup_cons.mp hn).1
    · exact hrest
  · rename_i obj item
    split
    · rename_i task hobj
      rw [setPoller_poller] at hobj
      obtain ⟨hi, hmem⟩ := copy_of_bind ((h.pollers n).tail htodo) hobj
      exact hrest.pollSuno hidle (by rw [setPoller_poller]; exact hmem) (htyped _ _ hi hmem) item
    · simp only [setPoller_poller]
      exact hrest.setPoller ⟨(h.pollers n).mem, fun w hw => (by cases hw)⟩
        fun _ => ⟨nodup_nil, fun i hi => (by cases hi)⟩

end

theorem WF.expire (hidle : findKey (.sweeper n) s.pending = none) (now : Int) (ok : Bool) :
    WF distinct (s.expire cfg n now ok) := by
  unfold World.expire
  split
  · exact h
  rename_i t rest htodo
  have hst : Stored s.rows t := (h.sweepers n t (htodo ▸ mem_cons_self)).1
  refine WF.cas (h.setSweeper fun t' ht' => h.sweepers n t' (htodo ▸ mem_cons_of_mem _ ht')) ?_ hidle ?_
  · have hcopy : Stored s.rows (timedOut t (s.sweeper n).minutes (s.sweeper n).now) :=
      hst.copy rfl rfl
    exact hcopy.updateWithStatus t.status now
  intro x hx
  split at hx
  · cases hx
    exact ⟨hst.copy rfl rfl, fun hc => (by cases hc)⟩
  · cases hx

theorem WF.proceed (e : Env) (ok : Bool) : WF distinct (s.proceed cfg p e ok) := by
  unfold World.proceed
  split
  · exact h
  rename_i b hb
  have hst := (h.pending _ (mem_of_findKey hb)).1
  have htaken := h.taken p
  split
  · split
    · exact htaken.exec (hst.update e.now)
    · exact htaken
  · exact htaken.books _ _
  · exact (htaken.quotaOnly (settle_quotaOnly _ _ _ _ _)).books _ _
  · exact (htaken.quotaOnly (recalculate_quotaOnly _ _ _ _)).books _ _

/-- **Every action keeps the copies stored**, and distinct upstream ids keep every video task met
once a round. -/
theorem wf_step (a : Act) : WF distinct (s.step cfg a) := by
  cases a with
  | load n limit round =>
    simp only [World.step]
    split
    · rename_i hc
      simp only [Bool.and_eq_true, decide_eq_true_eq] at hc
      exact h.setPoller (.load hc.2) fun hd => .load (h.upstream hd) hc.2
    · exact h
  | poll n e =>
    simp only [World.step]
    split
    · rename_i hi; exact h.poll (idle_iff.mp hi)
    · exact h
  | sweep n minutes now =>
    simp only [World.step]
    split
    · refine h.setSweeper fun t ht => ?_
      obtain ⟨hm, hu, -⟩ := mem_getTimedOutUnfinishedTasks ht
      exact ⟨.of_mem hm, unfinished_not_terminal hu⟩
    · exact h
  | expire n now ok =>
    simp only [World.step]
    split
    · rename_i hi; exact h.expire (idle_iff.mp hi) now ok
    · exact h
  | claim n taskId now ok =>
    simp only [World.step]
    split
    · refine (h.lease fun _ _ _ => rfl).setWorker fun t ht => ?_
      split at ht <;> cases ht
    · exact h
  | select n =>
    simp only [World.step]
    split
    · refine h.setWorker fun t ht => ?_
      split at ht
      · cases ht
      rename_i t' ht'
      split at ht
      · cases ht
      · cases ht; exact .of_mem (getImageTaskByLease_mem ht')
    · exact h
  | release n now ok =>
    simp only [World.step]
    split
    · exact (h.lease fun _ _ _ => rfl).setWorker fun t ht => (by cases ht)
    · exact h
  | renew n now ok =>
    simp only [World.step]
    split
    · exact h.lease fun _ _ _ => rfl
    · exact h
  | finish n r now ok =>
    simp only [World.step]
    split
    · rename_i t ht
      split
      · rename_i hidle
        obtain ⟨hid, hi, -, htask, hsave⟩ := finishImage_copy cfg t r now
        have hst : Stored s.rows (finishImage cfg t r now).1 := (h.workers n t ht).copy hid hi
        refine (h.setWorker fun _ hx => (by cases hx)).cas (hst.updateImageTaskWithLease _ now)
          (idle_iff.mp hidle) fun x hx => ?_
        cases hx
        exact ⟨htask ▸ hst, fun hc => (by rw [hsave] at hc; cases hc)⟩
      · exact h
    · exact h
  | proceed p e ok => exact h.proceed e ok
  | foreign row =>
    simp only [World.step]
    split
    · rename_i old hold
      split
      · rename_i hi
        have hst : Stored s.rows row := ⟨old, hold, hi.symm⟩
        exact h.exec (hst.update _)
      · exact h
    · exact h

end

end Steps

end NewApi.Tasks
