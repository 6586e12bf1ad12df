import NewApi.Lib.Run
import NewApi.Model.QuotaWrites

/-!
# The cached quota of a user (`model/user.go`, `model/user_cache.go`, `common/redis.go`)

The quota is stored in the row and, for a while, in Redis. `IncreaseUserQuota` and
`DecreaseUserQuota` change both by the same amount, the cache from a goroutine and the row at once
or through the batch store; `GetUserCache` and `GetUserQuota` copy the row into the cache, from a
goroutine too.

* `QuotaRun`, `QuotaAct`, `QuotaRun.step` — one statement or command at a time, in any order, all of
  them successful.
* `Balanced.step_iff` — a step keeps the balance exactly when it is `timely`: a copy that is written
  fits the amounts on their way, and an increment still finds the entry its goroutine has looked
  for.
-/

namespace NewApi.Quota

open List

/-! ## Runs -/

/-- A call of `IncreaseUserQuota` or `DecreaseUserQuota` that has started its goroutine and not
changed the row yet. -/
structure QuotaCall where
  amount : Int
  db : Bool
  /-- An increase that writes the row invalidates the cache afterwards, a decrease does not. -/
  invalidates : Bool
  deriving DecidableEq, Repr

/-- The goroutine of such a call; `found` says that its `TTL` has found the entry. -/
structure CacheJob where
  amount : Int
  found : Bool
  deriving DecidableEq, Repr

/-- A goroutine that writes a quota read from the row. -/
inductive Refill where
  /-- `updateUserCache` of `GetUserCache`. -/
  | user (quota : Int)
  /-- `updateUserQuotaCache` of `GetUserQuota`; `found` as for an increment. -/
  | field (quota : Int) (found : Bool)
  deriving DecidableEq, Repr

structure QuotaRun where
  row : Int
  batch : Batch
  cache : Option Int
  calls : List QuotaCall
  jobs : List CacheJob
  /-- The `GetUserCache` calls between a miss and their database read. -/
  missed : Nat
  refills : List Refill
  /-- The direct increases that have yet to invalidate. -/
  invalidations : Nat
  deriving DecidableEq, Repr

/-- A cached user, and nothing on its way. -/
def QuotaRun.start (quota : Int) : QuotaRun := ⟨quota, Batch.empty, some quota, [], [], 0, [], 0⟩

inductive QuotaAct where
  | increaseUserQuota (quota : Int) (db : Bool)
  | decreaseUserQuota (quota : Int) (db : Bool)
  /-- The `i`-th waiting call changes the row or the batch store. -/
  | record (i : Nat)
  | invalidateUserCache
  /-- The two commands of `RedisHIncrBy`. -/
  | ttlOfJob (i : Nat)
  | hIncrBy (i : Nat)
  /-- `GetUserCache`: the lookup and the database read. -/
  | lookup
  | getUserById
  /-- `GetUserQuota(id, true)`. -/
  | getUserQuota
  /-- The two commands of `RedisHSetField`; `RedisHSetObj` has the second only. -/
  | ttlOfRefill (i : Nat)
  | hSet (i : Nat)
  | expire
  /-- The two halves of `batchUpdate`. -/
  | collect
  | write
  deriving DecidableEq, Repr

namespace QuotaRun

/-- A call starts; one with a negative quota returns an error at once. -/
def begin (s : QuotaRun) (quota : Int) (call : QuotaCall) : QuotaRun :=
  if quota < 0 then s
  else { s with calls := s.calls ++ [call], jobs := s.jobs ++ [⟨call.amount, false⟩] }

def record (batchUpdateEnabled : Bool) (s : QuotaRun) (i : Nat) : QuotaRun :=
  match s.calls[i]? with
  | none => s
  | some call =>
    let s := { s with calls := s.calls.eraseIdx i }
    if !call.db && batchUpdateEnabled then { s with batch := s.batch.addNewRecord call.amount }
    else { s with row := s.row + call.amount, invalidations := s.invalidations + call.invalidates.toNat }

def ttlOfJob (s : QuotaRun) (i : Nat) : QuotaRun :=
  match s.jobs[i]? with
  | some ⟨amount, false⟩ =>
    if s.cache.isSome then { s with jobs := s.jobs.set i ⟨amount, true⟩ } else { s with jobs := s.jobs.eraseIdx i }
  | _ => s

/-- The amount that the `i`-th goroutine is about to add. -/
def increment? (s : QuotaRun) (i : Nat) : Option Int :=
  match s.jobs[i]? with
  | some ⟨amount, true⟩ => some amount
  | _ => none

/-- `HINCRBY` makes an entry where there is none. -/
def hIncrBy (s : QuotaRun) (i : Nat) : QuotaRun :=
  match s.increment? i with
  | some amount => { s with jobs := s.jobs.eraseIdx i, cache := some (s.cache.getD 0 + amount) }
  | none => s

def getUserById (s : QuotaRun) : QuotaRun :=
  if s.missed = 0 then s else { s with missed := s.missed - 1, refills := s.refills ++ [.user s.row] }

def ttlOfRefill (s : QuotaRun) (i : Nat) : QuotaRun :=
  match s.refills[i]? with
  | some (.field quota false) =>
    if s.cache.isSome then { s with refills := s.refills.set i (.field quota true) }
    else { s with refills := s.refills.eraseIdx i }
  | _ => s

/-- The quota that the `i`-th refill is about to write. -/
def refill? (s : QuotaRun) (i : Nat) : Option Int :=
  match s.refills[i]? with
  | some (.user quota) => some quota
  | some (.field quota true) => some quota
  | _ => none

def hSet (s : QuotaRun) (i : Nat) : QuotaRun :=
  match s.refill? i with
  | some quota => { s with refills := s.refills.eraseIdx i, cache := some quota }
  | none => s

def step (batchUpdateEnabled : Bool) (s : QuotaRun) : QuotaAct → QuotaRun
  | .increaseUserQuota quota db => s.begin quota ⟨quota, db, true⟩
  | .decreaseUserQuota quota db => s.begin quota ⟨-quota, db, false⟩
  | .record i => s.record batchUpdateEnabled i
  | .invalidateUserCache => { s with cache := none, invalidations := s.invalidations - 1 }
  | .ttlOfJob i => s.ttlOfJob i
  | .hIncrBy i => s.hIncrBy i
  | .lookup => if s.cache.isSome then s else { s with missed := s.missed + 1 }
  | .getUserById => s.getUserById
  | .getUserQuota => { s with refills := s.refills ++ [.field s.row false] }
  | .ttlOfRefill i => s.ttlOfRefill i
  | .hSet i => s.hSet i
  | .expire => { s with cache := none }
  | .collect => { s with batch := s.batch.collect }
  | .write => { s with row := s.row + s.batch.taken.getD 0, batch := s.batch.written }

def run (batchUpdateEnabled : Bool) (s : QuotaRun) (acts : List QuotaAct) : QuotaRun :=
  acts.foldl (step batchUpdateEnabled) s

/-! ## Amounts on their way -/

/-- Increments that the cache does not have yet. -/
def toCache (s : QuotaRun) : Int := (s.jobs.map CacheJob.amount).sum

/-- Amounts that the row does not have yet. -/
def toRow (s : QuotaRun) : Int := (s.calls.map QuotaCall.amount).sum + s.batch.waiting

/-- Every goroutine has run, every call has returned, and the batch is flushed. -/
def atRest (s : QuotaRun) : Prop :=
  s.calls = [] ∧ s.jobs = [] ∧ s.missed = 0 ∧ s.refills = [] ∧ s.invalidations = 0 ∧ s.batch = Batch.empty

instance (s : QuotaRun) : Decidable s.atRest :=
  inferInstanceAs (Decidable (s.calls = [] ∧ s.jobs = [] ∧ s.missed = 0 ∧ s.refills = [] ∧ s.invalidations = 0 ∧
    s.batch = Batch.empty))

/-- The cached quota and the row agree up to what is on its way to either. -/
def Balanced (s : QuotaRun) : Prop :=
  ∀ quota, s.cache = some quota → quota + s.toCache = s.row + s.toRow

/-- A refill fits the row together with the amounts on their way, and an increment finds its entry,
or its new entry fits in the same way. -/
def timely (s : QuotaRun) : QuotaAct → Bool
  | .hIncrBy i =>
    match s.increment? i with
    | some _ => s.cache.isSome || decide (s.toCache = s.row + s.toRow)
    | none => true
  | .hSet i =>
    match s.refill? i with
    | some quota => decide (quota + s.toCache = s.row + s.toRow)
    | none => true
  | _ => true

end QuotaRun

/-! ## Steps -/

theorem sum_map_eraseIdx {α : Type}
    (f : α → Int) {l : List α} {i : Nat} {a : α} (h : l[i]? = some a) :
    (l.map f).sum = f a + ((l.eraseIdx i).map f).sum := by
  obtain ⟨hi, rfl⟩ := List.getElem?_eq_some_iff.mp h
  have hperm : (l[i] :: l.eraseIdx i).Perm l := List.getElem_cons_eraseIdx_perm hi
  rw [← (hperm.map f).sum_eq, map_cons, sum_cons]

theorem map_set_of_eq {α β : Type} (f : α → β) {l : List α} {i : Nat} {a b : α} (h : l[i]? = some a)
    (hf : f b = f a) : (l.set i b).map f = l.map f := by
  obtain ⟨hi, rfl⟩ := List.getElem?_eq_some_iff.mp h
  rw [List.map_set, hf, ← List.getElem_map f (h := by simpa using hi)]
  exact set_getElem_self _

namespace QuotaRun

variable {batchUpdateEnabled : Bool} {s : QuotaRun}

theorem balanced_of_none (h : s.cache = none) : s.Balanced := by
  intro quota hq
  rw [h] at hq
  cases hq

theorem increment?_eq_some {i : Nat} {amount : Int} (h : s.increment? i = some amount) :
    s.jobs[i]? = some ⟨amount, true⟩ := by
  unfold increment? at h
  split at h
  · rename_i hjob
    cases h
    exact hjob
  · cases h

theorem balanced_start (quota : Int) : (start quota).Balanced := by
  intro q hq
  cases hq
  rfl

section

variable (h : s.Balanced)

include h

theorem Balanced.of_eq {s' : QuotaRun} (hcache : s'.cache = s.cache)
    (hamounts : s'.toCache - s'.row - s'.toRow = s.toCache - s.row - s.toRow) : s'.Balanced := by
  intro quota hq
  have := h quota (hcache ▸ hq)
  omega

theorem Balanced.begin (quota : Int) (call : QuotaCall) : (s.begin quota call).Balanced := by
  unfold QuotaRun.begin
  split
  · exact h
  refine h.of_eq rfl ?_
  simp only [toCache, toRow, map_append, map_cons, map_nil, sum_append, sum_cons, sum_nil]
  omega

theorem Balanced.record (i : Nat) : (s.record batchUpdateEnabled i).Balanced := by
  unfold QuotaRun.record
  split
  · exact h
  rename_i call hcall
  have hsum := sum_map_eraseIdx QuotaCall.amount hcall
  split
  · refine h.of_eq rfl ?_
    simp only [toCache, toRow, Batch.waiting_addNewRecord]
    omega
  refine h.of_eq rfl ?_
  simp only [toCache, toRow]
  omega

theorem Balanced.ttlOfJob (i : Nat) : (s.ttlOfJob i).Balanced := by
  unfold QuotaRun.ttlOfJob
  split
  · rename_i amount hjob
    split
    · refine h.of_eq rfl ?_
      have hmap : (s.jobs.set i ⟨amount, true⟩).map CacheJob.amount = s.jobs.map CacheJob.amount :=
        map_set_of_eq CacheJob.amount hjob rfl
      simp only [toCache, toRow, hmap]
    · rename_i hnone
      exact balanced_of_none (by simpa using hnone)
  · exact h

theorem Balanced.hIncrBy_iff (i : Nat) : (s.hIncrBy i).Balanced ↔ s.timely (.hIncrBy i) = true := by
  rcases hi : s.increment? i with _ | amount
  · simp [QuotaRun.hIncrBy, timely, hi, h]
  have hsum : s.toCache = amount + ((s.jobs.eraseIdx i).map CacheJob.amount).sum :=
    sum_map_eraseIdx CacheJob.amount (increment?_eq_some hi)
  have hafter : (s.hIncrBy i).Balanced ↔
      s.cache.getD 0 + amount + ((s.jobs.eraseIdx i).map CacheJob.amount).sum = s.row + s.toRow := by
    simp only [QuotaRun.hIncrBy, hi, Balanced, Option.some.injEq, forall_eq']
    exact Iff.rfl
  rw [hafter]
  cases hc : s.cache with
  | some quota =>
    have hq := h quota hc
    simp only [timely, hi, hc, Option.isSome_some, Bool.true_or, iff_true, Option.getD_some]
    omega
  | none =>
    -- the new entry has this increment only
    simp only [timely, hi, hc, Option.isSome_none, Bool.false_or, decide_eq_true_eq,
      Option.getD_none]
    omega

theorem Balanced.hSet_iff (i : Nat) : (s.hSet i).Balanced ↔ s.timely (.hSet i) = true := by
  cases hi : s.refill? i with
  | none => simp [QuotaRun.hSet, timely, hi, h]
  | some quota =>
    simp only [QuotaRun.hSet, timely, hi, Balanced, Option.some.injEq, forall_eq',
      decide_eq_true_eq]
    exact Iff.rfl

theorem Balanced.ttlOfRefill (i : Nat) : (s.ttlOfRefill i).Balanced := by
  unfold QuotaRun.ttlOfRefill
  split
  · split
    · exact h
    · exact h
  · exact h

/-- **One step** keeps the balance exactly when it is timely. -/
theorem Balanced.step_iff (a : QuotaAct) :
    (s.step batchUpdateEnabled a).Balanced ↔ s.timely a = true := by
  cases a with
  | increaseUserQuota quota db | decreaseUserQuota quota db => exact ⟨fun _ => rfl, fun _ => h.begin quota _⟩
  | record i => exact ⟨fun _ => rfl, fun _ => h.record i⟩
  | invalidateUserCache | expire => exact ⟨fun _ => rfl, fun _ => balanced_of_none rfl⟩
  | ttlOfJob i => exact ⟨fun _ => rfl, fun _ => h.ttlOfJob i⟩
  | hIncrBy i => exact h.hIncrBy_iff i
  | lookup =>
    refine ⟨fun _ => rfl, fun _ => ?_⟩
    simp only [step]
    split
    · exact h
    · exact h
  | getUserById =>
    refine ⟨fun _ => rfl, fun _ => ?_⟩
    simp only [step, getUserById]
    split
    · exact h
    · exact h
  | getUserQuota => exact ⟨fun _ => rfl, fun _ => h⟩
  | ttlOfRefill i => exact ⟨fun _ => rfl, fun _ => h.ttlOfRefill i⟩
  | hSet i => exact h.hSet_iff i
  | collect =>
    refine ⟨fun _ => rfl, fun _ => h.of_eq rfl ?_⟩
    simp only [step, toCache, toRow, Batch.waiting_collect]
  | write =>
    refine ⟨fun _ => rfl, fun _ => h.of_eq rfl ?_⟩
    simp only [step, toCache, toRow, Batch.waiting_written]
    omega

theorem Balanced.eq_of_atRest (hrest : s.atRest) {quota : Int} (hq : s.cache = some quota) :
    quota = s.row := by
  obtain ⟨hcalls, hjobs, -, -, -, hbatch⟩ := hrest
  have := h quota hq
  simpa [toCache, toRow, hcalls, hjobs, hbatch, Batch.empty, Batch.waiting] using this

end

theorem balanced_iff_timely (quota : Int) (acts : List QuotaAct) :
    (∀ n, ((start quota).run batchUpdateEnabled (acts.take n)).Balanced) ↔
      Guarded (step batchUpdateEnabled) (fun s a => s.timely a = true) (start quota) acts :=
  (guarded_iff_prefixes (fun _ a h => h.step_iff a) acts (balanced_start quota)).symm

end QuotaRun

/-- **The cached quota settles**: after any interleaving of timely steps, once nothing is on its
way, an entry that is still there holds the quota of the row. -/
theorem cached_quota_settles (batchUpdateEnabled : Bool) (quota : Int) (acts : List QuotaAct)
    (h : Guarded (QuotaRun.step batchUpdateEnabled) (fun s a => s.timely a = true) (.start quota) acts) :
    let s := (QuotaRun.start quota).run batchUpdateEnabled acts
    s.atRest → ∀ cached, s.cache = some cached → cached = s.row := by
  intro s hrest cached hc
  have hbalanced : s.Balanced :=
    h.invariant (P := QuotaRun.Balanced) (fun _ a ha hs => (hs.step_iff a).mpr ha) (QuotaRun.balanced_start quota)
  exact hbalanced.eq_of_atRest hrest hc

/-- A batched charge of 30, with a refill read and written before it: the cache and the row end at
70. -/
theorem early_refill_settles :
    let acts := [.getUserQuota, .ttlOfRefill 0, .hSet 0, .decreaseUserQuota 30 false, .ttlOfJob 0, .record 0,
      .hIncrBy 0, .collect, .write]
    let s := (QuotaRun.start 100).run true acts
    s.atRest ∧ s.cache = some 70 ∧ ∀ cached, s.cache = some cached → cached = s.row :=
  ⟨by decide +kernel, by decide +kernel,
    cached_quota_settles true 100 _ (by decide +kernel) (by decide +kernel)⟩

/-- Runs that end at rest with two quotas. A refill read before a direct charge of 30 is written
after it: 100 cached, 70 stored. The increment of an increase by 50 comes after a refill that has it
already: 200 cached, 150 stored. -/
theorem late_copies_stay_wrong :
    let charge := (QuotaRun.start 100).run false
      [.expire, .lookup, .getUserById, .decreaseUserQuota 30 false, .record 0, .ttlOfJob 0, .hSet 0]
    let topUp := (QuotaRun.start 100).run false
      [.increaseUserQuota 50 true, .record 0, .invalidateUserCache, .lookup, .getUserById, .hSet 0, .ttlOfJob 0,
        .hIncrBy 0]
    (charge.atRest ∧ charge.cache = some 100 ∧ charge.row = 70) ∧
      topUp.atRest ∧ topUp.cache = some 200 ∧ topUp.row = 150 := by
  decide +kernel

end NewApi.Quota
