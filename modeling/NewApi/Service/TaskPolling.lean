import NewApi.Lib.Grouping
import NewApi.Model.Task

/-!
# One round of the polling loop

`taskPollingOnce` regroups the unfinished tasks by platform, then per platform through two maps:
`taskChannelM` (channel id to upstream ids) drives the update, `taskM` (upstream id to task) says
which task an upstream id stands for. `DispatchPlatformUpdate` hands both to the platform's update
step, which walks `taskChannelM` and looks every id up in `taskM`.

* `Grouped`, `groupPlatform` — the two maps and the ids without an upstream id.
-/

namespace NewApi

open List

/-- What one platform's tasks are regrouped into. -/
structure Grouped where
  taskChannelM : List (Int × List String)
  taskM : List (String × Task)
  nullTaskIds : List Int

/-- The body of the loop over a platform's tasks. -/
def Grouped.add (g : Grouped) (task : Task) : Grouped :=
  if task.taskKind = taskKindImage then g
  else
    let upstreamId := task.getUpstreamTaskID
    if upstreamId = "" then { g with nullTaskIds := g.nullTaskIds ++ [task.id] }
    else
      { g with
        taskM := setKey upstreamId task g.taskM
        taskChannelM := pushKey task.channelId upstreamId g.taskChannelM }

def groupPlatform (tasks : List Task) : Grouped :=
  tasks.foldl Grouped.add ⟨[], [], []⟩

/-- The branches of `DispatchPlatformUpdate`; Midjourney's is reserved, its jobs live in a table
of their own. -/
inductive UpdateStep where
  | reserved
  | updateSunoTasks
  | updateVideoTasks
  deriving DecidableEq, Repr

def dispatchPlatformUpdate : TaskPlatform → UpdateStep
  | .midjourney => .reserved
  | .suno => .updateSunoTasks
  | _ => .updateVideoTasks

/-- One task as an update step meets it: asked for by `upstreamId` at `channelId`, and the task
`taskM` gives for that id. -/
structure Handed where
  step : UpdateStep
  platform : TaskPlatform
  channelId : Int
  upstreamId : String
  task : Option Task
  deriving DecidableEq

/-- What `DispatchPlatformUpdate` hands over for one platform. -/
def Grouped.handed (g : Grouped) (platform : TaskPlatform) : List Handed :=
  (unroll g.taskChannelM).map fun e =>
    ⟨dispatchPlatformUpdate platform, platform, e.1, e.2, findKey e.2 g.taskM⟩

/-- `taskPollingOnce` after its query. -/
def handed (allTasks : List Task) : List Handed :=
  (groupKey Task.platform allTasks).flatMap fun e => (groupPlatform e.2).handed e.1

/-- Not an image task, and known to the upstream. -/
def Task.polled (t : Task) : Bool :=
  decide (t.taskKind ≠ taskKindImage) && decide (t.getUpstreamTaskID ≠ "")

/-- How a task should be handed over: once, with its own channel. -/
def Handed.own (t : Task) : Handed :=
  ⟨dispatchPlatformUpdate t.platform, t.platform, t.channelId, t.getUpstreamTaskID, some t⟩

/-- The task a platform's `taskM` gives for an upstream id: the last one written. -/
def lastWith (tasks : List Task) (platform : TaskPlatform) (upstreamId : String) : Option Task :=
  (tasks.filter fun t => t.polled && decide (t.platform = platform) &&
    decide (t.getUpstreamTaskID = upstreamId)).getLast?

/-! ## The two maps -/

variable {t : Task}

theorem add_of_polled (h : t.polled = true) (g : Grouped) :
    g.add t = { g with
      taskM := setKey t.getUpstreamTaskID t g.taskM
      taskChannelM := pushKey t.channelId t.getUpstreamTaskID g.taskChannelM } := by
  simp only [Task.polled, Bool.and_eq_true, decide_eq_true_eq] at h
  unfold Grouped.add
  rw [if_neg h.1, if_neg h.2]

theorem add_of_not_polled (h : t.polled = false) (g : Grouped) :
    (g.add t).taskM = g.taskM ∧ (g.add t).taskChannelM = g.taskChannelM := by
  unfold Grouped.add
  by_cases hk : t.taskKind = taskKindImage
  · rw [if_pos hk]; exact ⟨rfl, rfl⟩
  · have hu : t.getUpstreamTaskID = "" := by simpa [Task.polled, hk] using h
    rw [if_neg hk, if_pos hu]; exact ⟨rfl, rfl⟩

theorem groupPlatform_append (ts : List Task) (t : Task) :
    groupPlatform (ts ++ [t]) = (groupPlatform ts).add t := by
  unfold groupPlatform
  rw [foldl_append]
  rfl

theorem groupPlatform_channels (ts : List Task) : (unroll (groupPlatform ts).taskChannelM).Perm
      ((ts.filter Task.polled).map fun t => (t.channelId, t.getUpstreamTaskID)) := by
  induction ts using reverseRecOn with
  | nil => exact List.Perm.refl _
  | append_singleton ts t ih =>
    rw [groupPlatform_append, filter_append, map_append]
    cases hp : t.polled with
    | false =>
      rw [(add_of_not_polled hp _).2]
      simpa [hp] using ih
    | true =>
      rw [add_of_polled hp]
      refine (unroll_pushKey _ _ _).trans ?_
      simpa [hp] using List.Perm.append_right [(t.channelId, t.getUpstreamTaskID)] ih

theorem groupPlatform_find (ts : List Task) (u : String) : findKey u (groupPlatform ts).taskM =
      (ts.filter fun t => t.polled && decide (t.getUpstreamTaskID = u)).getLast? := by
  induction ts using reverseRecOn with
  | nil => rfl
  | append_singleton ts t ih =>
    rw [groupPlatform_append, filter_append]
    cases hp : t.polled with
    | false =>
      rw [(add_of_not_polled hp _).1, ih]
      simp [hp]
    | true =>
      rw [add_of_polled hp]
      simp only [findKey_setKey, ih]
      by_cases hu : t.getUpstreamTaskID = u <;> simp [hp, hu]

/-! ## One round -/

open Handed

/-- **The pairs of a round are those of its pollable tasks.**  Only the task found for a pair can
differ from the one the pair came from. -/
theorem handed_perm (allTasks : List Task) :
    (handed allTasks).Perm ((allTasks.filter Task.polled).map fun t =>
      { Handed.own t with task := lastWith allTasks t.platform t.getUpstreamTaskID }) := by
  have hgroup : ∀ e ∈ groupKey Task.platform allTasks, ((groupPlatform e.2).handed e.1).Perm
      ((e.2.filter Task.polled).map fun t =>
        { own t with task := lastWith allTasks t.platform t.getUpstreamTaskID }) := by
    rintro ⟨p, ts⟩ he
    have hts : ts = allTasks.filter (fun t => decide (t.platform = p)) := mem_groupKey he
    refine ((groupPlatform_channels ts).map _).trans (List.Perm.of_eq ?_)
    rw [map_map]
    refine map_congr_left fun t ht => ?_
    have hp : t.platform = p := by
      rw [hts] at ht
      simpa using (mem_filter.mp (mem_filter.mp ht).1).2
    subst hp
    simp only [Function.comp, own, groupPlatform_find, lastWith]
    rw [hts, filter_filter]
    congr 3
    funext x
    cases x.polled <;> cases decide (x.platform = t.platform) <;> simp
  refine (List.Perm.flatMap_left _ hgroup).trans ?_
  have hflat : ∀ m : List (TaskPlatform × List Task),
      (m.flatMap fun e => (e.2.filter Task.polled).map fun t =>
        { own t with task := lastWith allTasks t.platform t.getUpstreamTaskID }) =
      (((unroll m).map Prod.snd).filter Task.polled).map fun t =>
        { own t with task := lastWith allTasks t.platform t.getUpstreamTaskID } := by
    intro m
    induction m with
    | nil => rfl
    | cons e m ih => simp [unroll, ih]
  rw [hflat]
  refine List.Perm.map _ (List.Perm.filter _ ?_)
  simpa [Function.comp_def] using (unroll_groupKey Task.platform allTasks).map Prod.snd

variable {tasks : List Task}

theorem lastWith_spec {p : TaskPlatform} {u : String} (h : lastWith tasks p u = some t) :
    t ∈ tasks ∧ t.polled = true ∧ t.platform = p ∧ t.getUpstreamTaskID = u := by
  have hm := mem_of_getLast? h
  simpa [and_assoc] using mem_filter.mp hm

/-- Every pollable task is handed over exactly once, with its own channel, and nothing else is. -/
structure EachHandedOnce (allTasks : List Task) : Prop where
  once : ∀ t ∈ allTasks, t.polled = true → (handed allTasks).filter (fun h => decide (h.task = some t)) = [Handed.own t]
  own_channel : ∀ h ∈ handed allTasks, ∃ t ∈ allTasks, t.polled = true ∧ h = Handed.own t

/-- No two pollable tasks share platform and upstream id. -/
def DistinctUpstream (tasks : List Task) : Prop :=
  ((tasks.filter Task.polled).map fun t => (t.platform, t.getUpstreamTaskID)).Nodup

instance (tasks : List Task) : Decidable (DistinctUpstream tasks) :=
  inferInstanceAs (Decidable (List.Nodup _))

theorem lastWith_self (hd : DistinctUpstream tasks) (ht : t ∈ tasks) (hp : t.polled = true) :
    lastWith tasks t.platform t.getUpstreamTaskID = some t := by
  have hne : lastWith tasks t.platform t.getUpstreamTaskID ≠ none := by
    intro hnone
    have hnil := getLast?_eq_none_iff.mp hnone
    exact filter_eq_nil_iff.mp hnil t ht (by simp [hp])
  obtain ⟨t', ht'⟩ := Option.ne_none_iff_exists'.mp hne
  obtain ⟨hm, hp', hpl, hu⟩ := lastWith_spec ht'
  have heq : t' = t := inj_on_of_nodup_map hd (mem_filter.mpr ⟨hm, hp'⟩)
    (mem_filter.mpr ⟨ht, hp⟩) (by rw [hpl, hu])
  rw [ht', heq]

theorem handed_of_distinct (hd : DistinctUpstream tasks) :
    (handed tasks).Perm ((tasks.filter Task.polled).map Handed.own) := by
  refine (handed_perm tasks).trans (List.Perm.of_eq (map_congr_left fun t ht => ?_))
  obtain ⟨hm, hp⟩ := mem_filter.mp ht
  rw [lastWith_self hd hm hp]
  rfl

/-- **A round hands every pollable task over exactly once, with its own channel, if and only if no
two of them share platform and upstream id.** -/
theorem round_hands_each_task_once_iff (allTasks : List Task) (hid : (allTasks.map Task.id).Nodup) :
    EachHandedOnce allTasks ↔ DistinctUpstream allTasks := by
  have hnodup : (allTasks.filter Task.polled).Nodup := (List.Nodup.of_map _ hid).filter _
  constructor
  · intro h
    refine hnodup.map_on fun t ht t' ht' he => ?_
    -- a task handed over at all is the last one under its platform and upstream id
    have hlast : ∀ x ∈ allTasks.filter Task.polled, lastWith allTasks x.platform x.getUpstreamTaskID = some x := by
      intro x hx
      obtain ⟨hm, hp⟩ := mem_filter.mp hx
      have hmem : own x ∈ handed allTasks := by
        refine mem_of_mem_filter (p := fun h => decide (h.task = some x)) ?_
        rw [h.once x hm hp]
        exact mem_singleton_self _
      obtain ⟨y, _, hy⟩ := mem_map.mp ((handed_perm allTasks).mem_iff.mp hmem)
      simp only [own, mk.injEq] at hy
      obtain ⟨-, hpl, -, hu, htask⟩ := hy
      rw [← hpl, ← hu]
      exact htask
    have h1 := hlast t ht
    have h2 := hlast t' ht'
    simp only [Prod.mk.injEq] at he
    rw [he.1, he.2, h2] at h1
    exact (Option.some.inj h1).symm
  · intro hd
    have hperm := handed_of_distinct hd
    refine ⟨fun t hm hp => ?_, fun h hh => ?_⟩
    · refine perm_singleton.mp ((hperm.filter _).trans (List.Perm.of_eq ?_))
      rw [filter_map]
      have hone : (allTasks.filter Task.polled).filter
          ((fun h : Handed => decide (h.task = some t)) ∘ own) = [t] := by
        have hcomp : ((fun h : Handed => decide (h.task = some t)) ∘ own) = fun x => x == t := by
          funext x
          rw [Bool.eq_iff_iff]
          simp [own]
        rw [hcomp, filter_beq, count_eq_one_of_mem hnodup (mem_filter.mpr ⟨hm, hp⟩)]
        rfl
      rw [hone]
      rfl
    · obtain ⟨t, ht, rfl⟩ := mem_map.mp (hperm.mem_iff.mp hh)
      obtain ⟨hm, hp⟩ := mem_filter.mp ht
      exact ⟨t, hm, hp, rfl⟩

theorem round_hands_two_tasks_once : EachHandedOnce [sampleTask 1 7 "a", sampleTask 2 8 "b"] :=
  (round_hands_each_task_once_iff [sampleTask 1 7 "a", sampleTask 2 8 "b"] (by decide)).mpr (by decide)

/-- Two channels issued the same upstream id: the first task is never handed over, the second
twice. -/
theorem equal_upstream_ids_lose_a_task :
    (handed [sampleTask 1 7 "a", sampleTask 2 8 "a"]).map (fun h => (h.channelId, h.task)) =
      [(7, some (sampleTask 2 8 "a")), (8, some (sampleTask 2 8 "a"))] ∧
    ¬ EachHandedOnce [sampleTask 1 7 "a", sampleTask 2 8 "a"] := by
  refine ⟨by decide, fun h => ?_⟩
  have := h.once (sampleTask 1 7 "a") (by decide) (by decide)
  revert this
  decide

end NewApi
