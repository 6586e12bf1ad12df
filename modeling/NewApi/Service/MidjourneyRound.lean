import NewApi.Service.Midjourney

/-!
# One round of a Midjourney poller

A round of one poller, alone on the table: which rows its statements hit.

* `Round`, `Round.acts` — the answers of the channels, in the order in which they are visited, and
  the actions of the round.
-/

namespace NewApi.Midjourneys

open List Table Function

/-! ## Rounds -/

/-- The time at which an item is looked at, and which of its statements fail. -/
structure ItemRun where
  item : MidjourneyDto
  now : Int
  fault : Bool
  refundFault : Bool
  deriving DecidableEq, Repr

inductive Visit where
  | missing (channelId : Int) (fault : Bool)
  | found (channelId : Int) (baseURL : Option String) (answer : Option (List ItemRun))
  deriving DecidableEq, Repr

/-- A visit, and then each item of the answer with its refund. -/
def Visit.acts (p : Nat) : Visit → List MjAct
  | .missing channelId fault => [.visit p channelId (.missing fault)]
  | .found channelId baseURL answer =>
    .visit p channelId (.found baseURL (answer.map fun items => items.map ItemRun.item)) ::
      (answer.getD []).flatMap fun i => [.item p i.now i.fault, .refund p i.refundFault]

structure Round where
  readFault : Bool
  fixFault : Bool
  /-- The channels in the order in which the map gives them. -/
  visits : List Visit
  deriving DecidableEq, Repr

def Round.acts (p : Nat) (r : Round) : List MjAct :=
  .read p r.readFault :: .fixNull p r.fixFault :: r.visits.flatMap (Visit.acts p)

def MjAct.poller : MjAct → Nat
  | .read p _ | .fixNull p _ | .visit p _ _ | .item p _ _ | .refund p _ => p

theorem poller_of_mem_acts {p : Nat} {r : Round} {a : MjAct} (h : a ∈ r.acts p) : a.poller = p := by
  simp only [Round.acts, mem_cons, mem_flatMap] at h
  rcases h with rfl | rfl | ⟨v, -, hv⟩
  · rfl
  · rfl
  cases v with
  | missing channelId fault =>
    simp only [Visit.acts, mem_singleton] at hv
    rw [hv]
    rfl
  | found channelId baseURL answer =>
    simp only [Visit.acts, mem_cons, mem_flatMap, not_mem_nil, or_false] at hv
    rcases hv with rfl | ⟨i, -, rfl | rfl⟩ <;> rfl

/-- The row is one that the statement may hit. -/
def Write.framed (w : Write) : Bool :=
  match w.cause with
  | .nullTask => decide (w.row.mjId = "")
  | .missingChannel channelId => decide (w.row.channelId = channelId)
  | .answered channelId mjId => decide (w.row.channelId = channelId ∧ w.row.mjId = mjId)

namespace MjRun

/-- The poller is not stopped, and every row that was hit might be. -/
def Isolated (p : Nat) (s : MjRun) : Prop :=
  (s.poller p).crashed = false ∧ ∀ w ∈ s.writes, w.framed = true

/-- A missing channel shares no upstream id with another one, a channel that is found has a base
URL, and an item stands for a task, of the channel that has answered unless its write changes
nothing. -/
def addressed (s : MjRun) : MjAct → Bool
  | .visit p channelId (.missing false) =>
    !s.visiting p channelId || s.tasks.rows.all fun row =>
      decide (row.mjId ∉ (s.poller p).taskChannelM channelId) || decide (row.channelId = channelId)
  | .visit p channelId (.found baseURL _) => !s.visiting p channelId || baseURL.isSome
  | .item p now fault =>
    match s.next? p with
    | none => true
    | some (_, none) => false
    | some (item, some task) =>
      fault || !checkMjTaskNeedUpdate task (withTimeout now task item) || !s.current task ||
        decide (task.channelId = (s.poller p).answer.1)
  | _ => true

end MjRun

/-! ## What the maps of a round say -/

/-- Upstream id and channel of a row, which no statement of a round changes. -/
def Midjourney.address (task : Midjourney) : String × Int := (task.mjId, task.channelId)

/-- The tasks listed without upstream id have none, and a copy has the address of its row. -/
structure Known (tasks : MjTable) (x : Poller) : Prop where
  null : ∀ id ∈ x.nullTaskIds, ∀ row, tasks.get id = some row → row.mjId = ""
  held : ∀ mjId task, x.taskM mjId = some task →
    task.mjId = mjId ∧ ∀ row, tasks.get task.id = some row → row.address = task.address

namespace Known

variable {tasks : MjTable} {x : Poller}

theorem idle (tasks : MjTable) : Known tasks .idle :=
  ⟨(fun _ h => by cases h), (fun _ _ h => by cases h)⟩

theorem get_eq {task row : Midjourney} (htask : task ∈ tasks.rows)
    (hrow : tasks.get task.id = some row) : row = task := by
  rw [Table.get_of_mem htask] at hrow
  exact (Option.some.inj hrow).symm

theorem collect (h : Known tasks x) {task : Midjourney} (htask : task ∈ tasks.rows) :
    Known tasks (x.collect task) := by
  unfold Poller.collect
  split
  · rename_i hnull
    refine ⟨fun id hid row hrow => ?_, h.held⟩
    rcases mem_append.mp hid with hid | hid
    · exact h.null id hid row hrow
    rw [mem_singleton] at hid
    subst hid
    rw [get_eq htask hrow, hnull]
  · refine ⟨h.null, fun mjId held hheld => ?_⟩
    by_cases hm : mjId = task.mjId
    · subst hm
      simp only [update_self, Option.some.injEq] at hheld
      subst hheld
      exact ⟨rfl, fun row hrow => by rw [get_eq htask hrow]⟩
    · simp only [update_of_ne hm] at hheld
      exact h.held mjId held hheld

theorem foldl_collect (list : List Midjourney)
    (hmem : ∀ task ∈ list, task ∈ tasks.rows) (h : Known tasks x) :
    Known tasks (list.foldl Poller.collect x) := by
  induction list generalizing x with
  | nil => exact h
  | cons task list ih => exact ih (fun t ht => hmem t (mem_cons_of_mem task ht)) (h.collect (hmem task mem_cons_self))

theorem plan {list : List Midjourney} (hmem : ∀ task ∈ list, task ∈ tasks.rows) :
    Known tasks (.plan list) :=
  foldl_collect list hmem (idle tasks)

theorem visited (h : Known tasks x) (channelId : Int) (lookup : Lookup) :
    Known tasks (x.visited channelId lookup) := by
  unfold Poller.visited
  split <;> exact ⟨h.null, h.held⟩

theorem itemDone (h : Known tasks x) (now : Int) : Known tasks (x.itemDone now) := by
  unfold Poller.itemDone
  split
  · exact h
  rename_i item rest hanswer
  rcases htask : x.taskM item.mjId with _ | task
  · simpa only [htask] using ⟨h.null, h.held⟩
  simp only [htask]
  split
  · refine ⟨h.null, fun mjId held hheld => ?_⟩
    obtain ⟨hid, hrows⟩ := h.held item.mjId task htask
    by_cases hm : mjId = item.mjId
    · subst hm
      simp only [withTimeout_mjId, update_self, Option.some.injEq] at hheld
      subst hheld
      exact ⟨hid, hrows⟩
    · simp only [withTimeout_mjId, update_of_ne hm] at hheld
      exact h.held mjId held hheld
  · exact ⟨h.null, h.held⟩

theorem of_addresses (h : Known tasks x) {tasks' : MjTable}
    (haddr : ∀ id, (tasks'.get id).map Midjourney.address = (tasks.get id).map Midjourney.address) :
    Known tasks' x := by
  have hback : ∀ id row, tasks'.get id = some row → ∃ old, tasks.get id = some old ∧ row.address = old.address := by
    intro id row hrow
    have := haddr id
    rw [hrow, Option.map_some] at this
    obtain ⟨old, hold, heq⟩ := Option.map_eq_some_iff.mp this.symm
    exact ⟨old, hold, heq.symm⟩
  constructor
  · intro id hid row hrow
    obtain ⟨old, hold, heq⟩ := hback id row hrow
    exact (congrArg Prod.fst heq).trans (h.null id hid old hold)
  intro mjId task htask
  refine ⟨(h.held mjId task htask).1, fun row hrow => ?_⟩
  obtain ⟨old, hold, heq⟩ := hback task.id row hrow
  exact heq.trans ((h.held mjId task htask).2 old hold)

end Known

/-! ## Steps -/

namespace MjRun

variable {s : MjRun} {p : Nat}

theorem next?_eq_some {asked : MidjourneyDto} {held : Option Midjourney}
    (h : s.next? p = some (asked, held)) :
    s.ready p = true ∧ (s.poller p).answer.2.head? = some asked ∧
      (s.poller p).taskM asked.mjId = held := by
  unfold next? at h
  split at h
  · rename_i hready
    obtain ⟨item, hitem, heq⟩ := Option.map_eq_some_iff.mp h
    obtain ⟨rfl, hheld⟩ := Prod.mk.inj heq
    exact ⟨hready, hitem, hheld⟩
  · cases h

variable {task row : Midjourney}

theorem report?_eq_some {now : Int} {item : MidjourneyDto}
    (h : s.report? p now = some (task, item)) : (s.poller p).taskM item.mjId = some task := by
  unfold report? at h
  split at h
  · rename_i asked held hnext
    simp only at h
    split at h
    · cases h
      rw [withTimeout_mjId]
      exact (next?_eq_some hnext).2.2
    · cases h
  · cases h

variable {a : MjAct}

theorem setPoller_self (x : Poller) : (s.setPoller p x).poller p = x := by simp [setPoller]

section

variable (h : Known s.tasks (s.poller p))

include h

theorem address_statement (ha : a.poller = p) {cause : Cause} {u : MjUpdate}
    (hst : s.statement a = some (cause, u)) (hrow : row ∈ s.tasks.rows) (hhit : u.hits row = true) :
    (u.set row).address = row.address := by
  subst ha
  unfold statement at hst
  split at hst
  · split at hst
    · cases hst
      rfl
    · cases hst
  · split at hst
    · cases hst
      rfl
    · cases hst
  · obtain ⟨⟨task, item⟩, hreport, heq⟩ := Option.map_eq_some_iff.mp hst
    cases heq
    have htask := report?_eq_some hreport
    have hid : row.id = task.id := (of_decide_eq_true hhit).1
    have hget : s.tasks.get task.id = some row := hid ▸ get_of_mem hrow
    exact ((h.held item.mjId task htask).2 row hget).symm
  · cases hst

theorem address_step (ha : a.poller = p) (id : Int) :
    ((s.step a).tasks.get id).map Midjourney.address = (s.tasks.get id).map Midjourney.address := by
  rw [step_tasks]
  rcases hst : s.statement a with _ | x
  · rfl
  rw [Option.map_some, Option.getD_some, get_exec, Option.map_map]
  rcases hget : s.tasks.get id with _ | row
  · rfl
  simp only [Option.map_some, comp, Table.Update.apply]
  split
  · rename_i hhit
    rw [address_statement h ha hst (mem_of_get hget) hhit]
  · rfl

theorem known_advance (ha : a.poller = p) : Known s.tasks ((s.advance a).poller p) := by
  cases a with
  | read q fault =>
    obtain rfl : q = p := ha
    simp only [advance]
    split
    · rw [setPoller_self]
      refine Known.plan fun task htask => ?_
      cases fault with
      | true => cases htask
      | false => exact mem_of_mem_filter htask
    · exact h
  | fixNull q fault =>
    obtain rfl : q = p := ha
    simp only [advance]
    split
    · rw [setPoller_self]
      exact ⟨fun _ hid => absurd hid not_mem_nil, h.held⟩
    · exact h
  | visit q channelId lookup =>
    obtain rfl : q = p := ha
    simp only [advance]
    split
    · rw [setPoller_self]
      exact h.visited channelId lookup
    · exact h
  | item q now fault =>
    obtain rfl : q = p := ha
    simp only [advance]
    split
    · rw [setPoller_self]
      exact h.itemDone now
    · exact h
  | refund q fault =>
    simp only [advance]
    split
    · exact h
    · exact h

theorem known_step (ha : a.poller = p) : Known (s.step a).tasks ((s.step a).poller p) := by
  rw [step_poller]
  exact (known_advance h ha).of_addresses fun id => address_step h ha id

end

/-! ## The frame -/

theorem not_crashed_of_step (ha : a.poller = p) (h : ((s.step a).poller p).crashed = false) :
    (s.poller p).crashed = false := by
  rw [step_poller] at h
  by_contra hcrashed
  have hnot : s.ready p = false := by simp [ready, hcrashed]
  have hsame : (s.advance a).poller p = s.poller p := by
    cases a with
    | refund q fault =>
      simp only [advance]
      split <;> rfl
    | read q fault | fixNull q fault | item q now fault =>
      obtain rfl : q = p := ha
      simp [advance, hnot]
    | visit q channelId lookup =>
      obtain rfl : q = p := ha
      simp [advance, visiting, hnot]
  rw [hsame] at h
  exact hcrashed h

theorem isolated_start (p : Nat) (tasks : MjTable) : (start tasks).Isolated p :=
  ⟨rfl, fun _ hw => absurd hw not_mem_nil⟩

theorem Isolated.of_step (ha : a.poller = p) (h : (s.step a).Isolated p) : s.Isolated p := by
  refine ⟨not_crashed_of_step ha h.1, fun w hw => h.2 w ?_⟩
  rw [step_writes]
  exact mem_append_left _ hw

theorem Isolated.step_iff_new (h : s.Isolated p) : (s.step a).Isolated p ↔
      ((s.advance a).poller p).crashed = false ∧
      ∀ cause u, s.statement a = some (cause, u) → ∀ row ∈ s.tasks.rows, u.hits row = true →
        (Write.mk cause row).framed = true := by
  unfold Isolated
  rw [step_poller, step_writes]
  refine and_congr_right fun _ => ?_
  rcases hst : s.statement a with _ | x
  · simpa using h.2
  simp only [Option.map_some, Option.getD_some, mem_append, mem_map, mem_filter, Option.some.injEq]
  constructor
  · rintro hall cause u rfl row hrow hhit
    exact hall ⟨cause, row⟩ (.inr ⟨row, ⟨hrow, hhit⟩, rfl⟩)
  rintro hnew w (hw | ⟨row, ⟨hrow, hhit⟩, rfl⟩)
  · exact h.2 w hw
  · exact hnew x.1 x.2 rfl row hrow hhit

attribute [local simp] statement addressed Poller.visited setPoller_self

theorem Isolated.visit_iff (h : s.Isolated p) (channelId : Int) (lookup : Lookup) :
    (s.step (.visit p channelId lookup)).Isolated p ↔
      s.addressed (.visit p channelId lookup) = true := by
  rw [h.step_iff_new]
  rcases hv : s.visiting p channelId with _ | _
  · have hsame : s.advance (.visit p channelId lookup) = s := by simp [advance, hv]
    rw [hsame]
    rcases lookup with ⟨_ | _⟩ | _ <;> simp [hv, h.1]
  have hpoller : (s.advance (.visit p channelId lookup)).poller p = (s.poller p).visited channelId lookup := by
    simp [advance, hv]
  rw [hpoller]
  cases lookup with
  | missing fault =>
    cases fault with
    | true => simp [h.1]
    | false =>
      simp only [statement, hv, if_true, Option.some.injEq, Prod.mk.injEq, Poller.visited, h.1,
        true_and, addressed,
        Bool.not_true, Bool.false_or, all_eq_true, Bool.or_eq_true, decide_eq_true_eq]
      constructor
      · intro hnew row hrow
        by_cases hmem : row.mjId ∈ (s.poller p).taskChannelM channelId
        · exact .inr (of_decide_eq_true (hnew _ _ ⟨rfl, rfl⟩ row hrow (decide_eq_true hmem)))
        · exact .inl hmem
      · rintro hall cause u ⟨rfl, rfl⟩ row hrow hhit
        exact decide_eq_true ((hall row hrow).resolve_left (not_not.mpr (of_decide_eq_true hhit)))
  | found baseURL answer =>
    cases baseURL with
    | none => simp [hv]
    | some url => cases answer <;> simp [h.1]

theorem hits_iff_current (item : MidjourneyDto) (hget : s.tasks.get task.id = some row) :
    (updateWithStatus (task.report item) task.status).hits row = s.current task := by
  have hid : row.id = task.id := key_of_get hget
  have hid' : (task.report item).id = task.id := rfl
  simp [current, hget, updateWithStatus, hid, hid']

theorem crashed_itemDone (x : Poller) (now : Int) (hx : x.crashed = false) :
    (x.itemDone now).crashed = false ↔ ∀ item, x.answer.2.head? = some item →
      (x.taskM item.mjId).isSome = true := by
  unfold Poller.itemDone
  split
  · rename_i hnil
    simp [hnil, hx]
  rename_i item rest hanswer
  simp only [hanswer, head?_cons, Option.some.injEq, forall_eq']
  rcases htask : x.taskM item.mjId with _ | task
  · simp
  simp only [Option.isSome_some, iff_true]
  split
  · exact hx
  · exact hx

theorem Isolated.item_iff (h : s.Isolated p) (hknown : Known s.tasks (s.poller p)) (now : Int)
    (fault : Bool) :
    (s.step (.item p now fault)).Isolated p ↔ s.addressed (.item p now fault) = true := by
  rw [h.step_iff_new]
  cases hnext : s.next? p with
  | none =>
    -- nothing is done
    have hreport : s.report? p now = none := by simp only [report?, hnext]
    have hcrash : ((s.advance (.item p now fault)).poller p).crashed = false := by
      simp only [advance]
      split
      · rename_i hready
        rw [setPoller_self, crashed_itemDone _ _ h.1]
        intro item hitem
        simp [next?, hready, hitem] at hnext
      · exact h.1
    cases fault <;> simp [hnext, hreport, hcrash]
  | some x =>
    obtain ⟨asked, held⟩ := x
    obtain ⟨hready, hhead, htask⟩ := next?_eq_some hnext
    have hcrash : ((s.advance (.item p now fault)).poller p).crashed = false ↔ held.isSome = true := by
      simp [advance, hready, crashed_itemDone _ _ h.1, hhead, htask]
    rw [hcrash]
    rcases held with _ | task
    · simp [hnext]
    simp only [Option.isSome_some, true_and, addressed, hnext]
    cases fault with
    | true => simp
    | false =>
      rcases hneeds : checkMjTaskNeedUpdate task (withTimeout now task asked) with _ | _
      · have hreport : s.report? p now = none := by simp [report?, hnext, hneeds]
        simp [hreport]
      have hreport : s.report? p now = some (task, withTimeout now task asked) := by simp [report?, hnext, hneeds]
      obtain ⟨hmjId, hrows⟩ := hknown.held asked.mjId task htask
      simp only [statement, hreport, Option.map_some, Option.some.injEq, Prod.mk.injEq,
        withTimeout_mjId, Bool.not_true,
        Bool.or_false, Bool.false_or, Bool.or_eq_true, Bool.not_eq_true', decide_eq_true_eq]
      constructor
      · intro hnew
        rcases hcurrent : s.current task with _ | _
        · exact .inl rfl
        right
        rcases hget : s.tasks.get task.id with _ | row
        · simp [current, hget] at hcurrent
        have hhit := (hits_iff_current (withTimeout now task asked) hget).trans hcurrent
        have hframed := hnew _ _ ⟨rfl, rfl⟩ row (mem_of_get hget) hhit
        have hchannel : row.channelId = task.channelId := congrArg Prod.snd (hrows row hget)
        exact hchannel.symm.trans (of_decide_eq_true hframed).1
      · rintro hok cause u ⟨rfl, rfl⟩ row hrow hhit
        have hid : row.id = task.id := (of_decide_eq_true hhit).1
        have hget : s.tasks.get task.id = some row := hid ▸ get_of_mem hrow
        rw [hits_iff_current _ hget] at hhit
        have haddr := hrows row hget
        have hchannel := hok.resolve_left (by simp [hhit])
        exact decide_eq_true ⟨(congrArg Prod.snd haddr).trans hchannel,
          (congrArg Prod.fst haddr).trans hmjId⟩

/-- **One step** of a round keeps it isolated exactly when the step is addressed. -/
theorem Isolated.step_iff (h : s.Isolated p) (hknown : Known s.tasks (s.poller p))
    (ha : a.poller = p) : (s.step a).Isolated p ↔ s.addressed a = true := by
  cases a with
  | read q fault =>
    obtain rfl : q = p := ha
    rw [h.step_iff_new]
    have hcrash : ((s.advance (.read q fault)).poller q).crashed = false := by
      simp only [advance]
      split
      · rw [setPoller_self]
        exact foldl_invariant (P := fun x : Poller => x.crashed = false)
          (fun x task hx => by unfold Poller.collect; split <;> exact hx) _ rfl
      · exact h.1
    simp [hcrash]
  | fixNull q fault =>
    obtain rfl : q = p := ha
    rw [h.step_iff_new]
    have hcrash : ((s.advance (.fixNull q fault)).poller q).crashed = false := by
      simp only [advance]
      split
      · rw [setPoller_self]
        exact h.1
      · exact h.1
    simp only [hcrash, true_and, addressed, iff_true]
    intro cause u hst row hrow hhit
    cases fault with
    | true => cases hst
    | false =>
      simp only [statement] at hst
      split at hst
      · cases hst
        exact decide_eq_true (hknown.null row.id (of_decide_eq_true hhit) row (get_of_mem hrow))
      · cases hst
  | visit q channelId lookup =>
    obtain rfl : q = p := ha
    exact h.visit_iff channelId lookup
  | item q now fault =>
    obtain rfl : q = p := ha
    exact h.item_iff hknown now fault
  | refund q fault =>
    obtain rfl : q = p := ha
    rw [h.step_iff_new]
    have hcrash : ((s.advance (.refund q fault)).poller q).crashed = false := by
      simp only [advance]
      split
      · exact h.1
      · exact h.1
    simp [hcrash]

theorem hit_of_changed (s : MjRun) (acts : List MjAct) : (∀ w ∈ s.writes, w ∈ (s.run acts).writes) ∧
      ∀ id, (s.run acts).tasks.get id ≠ s.tasks.get id →
      ∃ w ∈ (s.run acts).writes, w.row.id = id := by
  induction acts generalizing s with
  | nil => exact ⟨fun w hw => hw, fun id h => absurd rfl h⟩
  | cons a acts ih =>
    obtain ⟨hwrites, hchanged⟩ := ih (s.step a)
    have hgrows : ∀ w ∈ (s.step a).writes, w ∈ (s.run (a :: acts)).writes := hwrites
    refine ⟨fun w hw => hgrows w (by rw [step_writes]; exact mem_append_left _ hw),
      fun id hid => ?_⟩
    by_cases hrest : (s.run (a :: acts)).tasks.get id = (s.step a).tasks.get id
    · -- the change is this step's
      rw [hrest, step_tasks] at hid
      rcases hst : s.statement a with _ | x
      · rw [hst] at hid; exact absurd rfl hid
      rw [hst, Option.map_some, Option.getD_some, get_exec] at hid
      rcases hget : s.tasks.get id with _ | row
      · rw [hget] at hid; exact absurd rfl hid
      have hhit : x.2.hits row = true := by
        by_contra hmiss
        rw [hget] at hid
        exact hid (by simp [Table.Update.apply, hmiss])
      refine ⟨⟨x.1, row⟩, hgrows _ ?_, key_of_get hget⟩
      rw [step_writes, hst, Option.map_some, Option.getD_some]
      exact mem_append_right _ (mem_map_of_mem (mem_filter.mpr ⟨mem_of_get hget, hhit⟩))
    · exact hchanged id hrest

end MjRun

/-- **A round stays within its frame, exactly when every step is addressed**: no nil pointer stops
the poller, every row that is hit has no upstream id or belongs to the missing channel or to the one
that named it, and every other row is as it was. -/
theorem round_isolated_iff (p : Nat) (tasks : MjTable) (round : Round) :
    let s := (MjRun.start tasks).run (round.acts p)
    ((s.poller p).crashed = false ∧ (∀ w ∈ s.writes, w.framed = true) ∧
        ∀ id, s.tasks.get id ≠ tasks.get id → ∃ w ∈ s.writes, w.row.id = id) ↔
      Guarded MjRun.step (fun s a => s.addressed a = true) (.start tasks) (round.acts p) := by
  intro s
  have hend : Guarded MjRun.step (fun s a => s.addressed a = true) (.start tasks) (round.acts p) ↔
      ((MjRun.start tasks).run (round.acts p)).Isolated p :=
    guarded_iff_end (P := MjRun.Isolated p) (I := fun s => Known s.tasks (s.poller p)) (round.acts p)
      (fun _ _ ha h => MjRun.known_step h (poller_of_mem_acts ha))
      (fun _ _ ha hknown h => h.step_iff hknown (poller_of_mem_acts ha))
      (fun _ _ ha h => MjRun.Isolated.of_step (poller_of_mem_acts ha) h) (Known.idle tasks)
      (MjRun.isolated_start p tasks)
  rw [hend]
  exact ⟨fun h => ⟨h.1, h.2.1⟩,
    fun h => ⟨h.1, h.2, (MjRun.hit_of_changed (.start tasks) (round.acts p)).2⟩⟩

/-! ## Rounds that leave their frame -/

def inProgress (id channelId : Int) : Midjourney :=
  ⟨id, 1, 7, "m", "", "", 0, 0, 0, "", "", "", "IN_PROGRESS", "50%", "", channelId, 100, "", ""⟩

def succeeded (mjId : String) : ItemRun :=
  ⟨⟨mjId, "", "", 0, 0, 0, "", "", none, "SUCCESS", "100%", "", none, none⟩, 1000, false, false⟩

/-- A task with id `m` on channel 3 and one on channel 4. -/
def sharedId : MjTable := ⟨[inProgress 1 3, inProgress 2 4], by decide⟩

def statusesAfter (visit : Visit) : List String :=
  ((MjRun.start sharedId).run (Round.acts 0 ⟨false, false, [visit]⟩)).tasks.rows.map Midjourney.status

/-- The answer of channel 3 completes the task of channel 4, and where channel 3 is missing, the
task of channel 4 fails too. -/
theorem shared_id_crosses_channels :
    statusesAfter (.found 3 (some "u") (some [succeeded "m"])) = ["IN_PROGRESS", "SUCCESS"] ∧
      statusesAfter (.missing 3 false) = ["FAILURE", "FAILURE"] := by
  decide +kernel

end NewApi.Midjourneys
