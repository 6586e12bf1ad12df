import NewApi.Lib.Run
import Mathlib.Logic.Function.Basic

/-!
# The lease of a channel monitor (`model/channel_monitor.go`, `service/channel_monitor.go`)

A run of a monitor, scheduled or by hand and on any node, claims the monitor's row for two minutes
and gives the row back when it ends. The row does not say whose claim it holds.
-/

namespace NewApi.MonitorLease

open Function

/-- The columns of a `channel_monitors` row that a claim reads and writes. -/
structure Monitor where
  enabled : Bool
  nextProbeAt : Int
  leaseExpiresAt : Int

/-- An edit makes the monitor due and drops its lease. -/
def updateChannelMonitor (enabled : Bool) : Monitor := ⟨enabled, 0, 0⟩

/-- `ClaimChannelMonitor`: the row as it leaves it, if it affects the row. -/
def claimChannelMonitor (m : Monitor) (now nextProbeAt leaseExpiresAt : Int)
    (ignoreSchedule : Bool) : Option Monitor :=
  if m.enabled = true ∧ m.leaseExpiresAt ≤ now ∧ (ignoreSchedule = true ∨ m.nextProbeAt ≤ now) then
    some { m with nextProbeAt := nextProbeAt, leaseExpiresAt := leaseExpiresAt }
  else none

def releaseChannelMonitorLease (m : Monitor) : Monitor := { m with leaseExpiresAt := 0 }

/-- A claim that is not released yet. -/
structure Claim where
  /-- The node of a scheduled run. -/
  node : Option Nat
  expires : Int
  /-- Whether `RunChannelMonitor` is in progress. -/
  running : Bool

structure World where
  now : Int
  monitor : Monitor
  /-- Whether the monitor is in `channelMonitorInFlight` of a node. -/
  inFlight : Nat → Bool
  claims : Nat → Option Claim

/-- What can happen next. A claim compares the row with a time it has read `lag` seconds before. -/
inductive Act where
  | wait (seconds : Nat)
  | edit (enabled : Bool)
  /-- `ClaimAndRunChannelMonitor`. -/
  | manual (i lag : Nat) (interval : Int)
  /-- A round of `runDueChannelMonitors`, the jitter in the interval. -/
  | scheduled (i lag : Nat) (interval : Int) (node : Nat)
  | finish (i : Nat)
  | release (i : Nat)

namespace World

def claim (w : World) (i : Nat) (now interval : Int) (node : Option Nat) (ignoreSchedule : Bool) :
    World :=
  match w.claims i, claimChannelMonitor w.monitor now (now + interval) (now + 120) ignoreSchedule with
  | none, some monitor =>
    { w with
      monitor := monitor
      inFlight := node.elim w.inFlight fun n => update w.inFlight n true
      -- a node that still runs the monitor only gives the claim back
      claims := update w.claims i (some ⟨node, now + 120, node.all fun n => !w.inFlight n⟩) }
  | _, _ => w

def step (w : World) : Act → World
  | .wait seconds => { w with now := w.now + seconds }
  | .edit enabled => { w with monitor := updateChannelMonitor enabled }
  | .manual i lag interval => w.claim i (w.now - lag) interval none true
  | .scheduled i lag interval node => w.claim i (w.now - lag) interval (some node) false
  | .finish i =>
    match w.claims i with
    | some ⟨node, expires, true⟩ =>
      { w with
        inFlight := node.elim w.inFlight fun n => update w.inFlight n false
        claims := update w.claims i (some ⟨node, expires, false⟩) }
    | _ => w
  | .release i =>
    match w.claims i with
    | some ⟨_, _, false⟩ =>
      { w with monitor := releaseChannelMonitorLease w.monitor, claims := update w.claims i none }
    | _ => w

/-- A run is in progress under claim `i`, within the two minutes of the claim. -/
def Running (w : World) (i : Nat) : Prop :=
  ∃ c, w.claims i = some c ∧ c.running = true ∧ w.now < c.expires

/-- Claims are released within their two minutes, and the monitor is edited when no claim is within
its own. -/
def Careful (w : World) : Act → Prop
  | .edit _ => ∀ i c, w.claims i = some c → c.expires ≤ w.now
  | .release i => ∀ c, w.claims i = some c → w.now < c.expires
  | _ => True

/-- One claim at most is within its two minutes, and the row is leased as long. -/
def Held (w : World) : Prop :=
  ∃ i, ∀ j c, w.claims j = some c → w.now < c.expires → j = i ∧ c.expires ≤ w.monitor.leaseExpiresAt

variable {w : World}

theorem Held.claim (h : w.Held) {now : Int} (hnow : now ≤ w.now) (i : Nat) (interval : Int)
    (node : Option Nat) (ignoreSchedule : Bool) :
    (w.claim i now interval node ignoreSchedule).Held := by
  unfold World.claim claimChannelMonitor
  split
  case h_2 => exact h
  rename_i hrow
  split at hrow
  case isFalse => cases hrow
  rename_i hfree
  cases hrow
  refine ⟨i, fun j c hc hlt => ?_⟩
  by_cases hj : j = i
  · simp only [hj, update_self, Option.some.injEq] at hc
    exact ⟨hj, hc ▸ le_rfl⟩
  · -- the row was free, so every earlier claim has outlived its two minutes
    obtain ⟨k, hk⟩ := h
    have hleased := (hk j c (by simpa [hj] using hc) hlt).2
    have hlt' : w.now < c.expires := hlt
    omega

theorem Held.step (h : w.Held) {a : Act} (hcare : w.Careful a) : (w.step a).Held := by
  cases a with
  | wait seconds =>
    obtain ⟨i, hi⟩ := h
    refine ⟨i, fun j c hc hlt => hi j c hc ?_⟩
    have hlater : w.now + seconds < c.expires := hlt
    omega
  | edit enabled => exact ⟨0, fun j c hc hlt => absurd hlt (hcare j c hc).not_gt⟩
  | manual i lag interval => exact h.claim (by omega) ..
  | scheduled i lag interval node => exact h.claim (by omega) ..
  | finish i =>
    rw [World.step]
    split
    case h_2 => exact h
    rename_i node expires hold
    obtain ⟨k, hk⟩ := h
    refine ⟨k, fun j c hc hlt => ?_⟩
    by_cases hj : j = i
    · simp only [hj, update_self, Option.some.injEq] at hc
      subst hj hc
      exact hk j ⟨node, expires, true⟩ hold hlt
    · exact hk j c (by simpa [hj] using hc) hlt
  | release i =>
    rw [World.step]
    split
    case h_2 => exact h
    rename_i hold
    obtain ⟨k, hk⟩ := h
    refine ⟨0, fun j c hc hlt => ?_⟩
    by_cases hj : j = i
    · simp [hj] at hc
    · -- the claim that is released is the one within its two minutes
      have hsame := (hk i _ hold (hcare _ hold)).1
      exact absurd ((hk j c (by simpa [hj] using hc) hlt).1.trans hsame.symm) hj

/-- **At most one run within its lease**, in every run of the nodes whose releases and edits are
careful. -/
theorem one_run_within_lease (w : World) (hstart : ∀ i, w.claims i = none) (acts : List Act)
    (hcare : Guarded step Careful w acts) (i j : Nat) (hi : (acts.foldl step w).Running i)
    (hj : (acts.foldl step w).Running j) : i = j := by
  have hnone : w.Held := ⟨0, fun k c hc => absurd hc (by simp [hstart])⟩
  obtain ⟨k, hk⟩ := hcare.invariant (fun _ _ hok hs => hs.step hok) hnone
  obtain ⟨c, hc, _, hlt⟩ := hi
  obtain ⟨d, hd, _, hlt'⟩ := hj
  exact (hk i c hc hlt).1.trans (hk j d hd hlt').1.symm

/-- An enabled monitor that nobody runs. -/
def idle : World := ⟨0, ⟨true, 0, 0⟩, fun _ => false, fun _ => none⟩

/-- After a run by hand, its release and an edit, a scheduled run keeps another one out. -/
theorem only_scheduled_run :
    let acts := [Act.manual 0 0 300, .wait 5, .finish 0, .release 0, .edit true, .wait 5,
      .scheduled 1 0 300 0, .manual 2 0 300]
    (acts.foldl step idle).Running 1 ∧ ∀ j, (acts.foldl step idle).Running j → j = 1 := by
  intro acts
  have hrun : (acts.foldl step idle).Running 1 := ⟨_, rfl, rfl, by decide⟩
  have hcare : Guarded step Careful idle acts := by
    refine ⟨trivial, trivial, trivial, fun c hc => ?_, fun i c hc => ?_, trivial, trivial, trivial,
      trivial⟩
    · cases hc
      decide
    · simp [idle, step, World.claim, claimChannelMonitor] at hc
  exact ⟨hrun, fun j hj => one_run_within_lease idle (fun _ => rfl) acts hcare j 1 hj hrun⟩

/-- An edit lets a second run start beside one that has just begun, and so does the end of a run
that has outlived its two minutes. -/
theorem second_run_starts :
    let edited := [Act.manual 0 0 300, .edit true, .manual 1 0 300].foldl step idle
    let outlived := [Act.manual 0 0 300, .wait 121, .manual 1 0 300, .finish 0, .release 0, .manual 2 0 300].foldl
      step idle
    (edited.Running 0 ∧ edited.Running 1) ∧ outlived.Running 1 ∧ outlived.Running 2 :=
  ⟨⟨⟨_, rfl, rfl, by decide⟩, _, rfl, rfl, by decide⟩, ⟨_, rfl, rfl, by decide⟩, _, rfl, rfl, by decide⟩

/-- A node that runs the monitor on schedule has it in flight, and runs it under one claim. -/
def Single (w : World) : Prop :=
  ∀ n i c, w.claims i = some c → c.node = some n → c.running = true → w.inFlight n = true ∧
    ∀ j d, w.claims j = some d → d.node = some n → d.running = true → j = i

theorem Single.claim (h : w.Single) (i now interval node ignoreSchedule) :
    (w.claim i now interval node ignoreSchedule).Single := by
  unfold World.claim
  split
  case h_2 => exact h
  cases node
  all_goals
    simp only [Single, update_apply, Option.elim] at h ⊢
    grind

theorem Single.step (h : w.Single) (a : Act) : (w.step a).Single := by
  cases a with
  | wait | edit => exact h
  | manual i lag interval => exact h.claim i _ interval none true
  | scheduled i lag interval node => exact h.claim i _ interval (some node) false
  | finish i =>
    rw [World.step]
    split
    case h_2 => exact h
    rename_i node _ _
    -- the flag goes down with the one run of the node
    cases node
    all_goals
      simp only [Single, update_apply, Option.elim] at h ⊢
      grind
  | release i =>
    rw [World.step]
    split
    case h_2 => exact h
    grind [Single, update_apply]

/-- **A node runs the monitor once at a time**, whatever becomes of the lease. -/
theorem one_scheduled_run (now : Int) (monitor : Monitor) (acts : List Act) :
    (acts.foldl step ⟨now, monitor, fun _ => false, fun _ => none⟩).Single :=
  foldl_invariant (P := Single) (fun _ a h => h.step a) acts (by simp [Single])

end World

end NewApi.MonitorLease
