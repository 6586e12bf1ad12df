import NewApi.Middleware.RateLimit

/-!
# How many requests the total limit lets through

* `request_spec` — a queue in memory lets a request in exactly when fewer than the limit are recent,
  as long as it stands for everything it has let in; `sweep_spec` — a sweep keeps it so if the
  expiry is not shorter than the duration.
* `script_spec` — the bucket pays for every request: the duration each, out of the capacity and what
  has come in.
-/

namespace NewApi.RateLimit

open NewApi.Window List

/-! ## A queue in memory -/

/-- The queue stands for all the times it has let in. -/
def Holds (limit : Nat) (window clock : Int) (queue : Option (List Int)) (times : List Int) :
    Prop :=
  Covers limit window clock (queue.getD []).reverse times ∧ queue ≠ some []

section Queue

variable {limit : Nat} {window clock now expiration : Int} {store : Store} {key : String} {times : List Int}

theorem Holds.tick {queue : Option (List Int)} (h : Holds limit window clock queue times)
    (hnow : clock ≤ now) : Holds limit window now queue times :=
  ⟨h.1.tick hnow, h.2⟩

theorem request_spec (h : Holds limit window clock (store key) times) (hlimit : 0 < limit)
    (hnow : clock ≤ now) :
    (recent window now times < limit ∧ ∃ queue,
      request store key limit window now = (some true, Function.update store key (some queue)) ∧
      Holds limit window now (some queue) (now :: times)) ∨
    (limit ≤ recent window now times ∧ request store key limit window now = (some false, store)) := by
  obtain ⟨hcovers, hne⟩ := h
  have hiff := hcovers.recent_lt_iff hlimit hnow
  have hpush := hcovers.push hnow
  unfold request
  rcases hqueue : store key with _ | queue
  · rw [hqueue] at hiff hpush
    refine .inl ⟨hiff.mpr (.inl hlimit), [now], if_neg (by omega), ?_, by simp⟩
    simp only [Option.getD_none, reverse_nil] at hpush
    rwa [take_of_length_le (show [now].length ≤ limit from hlimit)] at hpush
  rw [hqueue] at hiff hpush hne
  simp only [Option.getD_some, length_reverse] at hiff hpush
  by_cases hshort : queue.length < limit
  · refine .inl ⟨hiff.mpr (.inl hshort), queue ++ [now], if_pos (by exact_mod_cast hshort), ?_,
      by simp⟩
    rw [take_of_length_le (by simpa using hshort)] at hpush
    simpa using hpush
  simp only [if_neg (show ¬ ((queue.length : Int) < limit) by exact_mod_cast hshort)]
  rcases queue with _ | ⟨oldest, rest⟩
  · exact absurd rfl hne
  have hlast : (oldest :: rest).reverse.getLast? = some oldest := by simp
  rw [hlast] at hiff
  by_cases hold : window ≤ now - oldest
  · refine .inl ⟨hiff.mpr (.inr ⟨oldest, rfl, hold⟩), rest ++ [now], if_pos hold, ?_, by simp⟩
    have hlength : rest.length + 1 = limit := by
      have hshort' := hcovers.short
      simp only [hqueue, Option.getD_some, length_reverse, length_cons] at hshort' hshort
      omega
    rw [reverse_cons, ← cons_append, take_left' (by simpa using hlength)] at hpush
    simpa using hpush
  · refine .inr ⟨not_lt.mp fun hfew => ?_, if_neg hold⟩
    rcases hiff.mp hfew with hfew | ⟨_, holdest, hdead⟩
    · exact hshort hfew
    · cases holdest
      exact hold hdead

theorem sweep_spec (h : Holds limit window clock (store key) times) (hlimit : 0 < limit)
    (hnow : clock ≤ now) (hexpiration : window ≤ expiration + 1) :
    Holds limit window now (clearExpiredItems expiration now store key) times := by
  unfold clearExpiredItems
  rcases hqueue : store key with _ | queue
  · rw [hqueue] at h
    exact h.tick hnow
  rw [hqueue] at h
  rcases hlast : queue.getLast? with _ | newest
  · exact absurd (congrArg some (getLast?_eq_none_iff.mp hlast)) h.2
  rw [Option.filter_some]
  simp only [hlast]
  by_cases hold : expiration < now - newest
  · rw [decide_eq_true hold]
    refine ⟨h.1.forget hlimit hnow ?_, by simp⟩
    -- nothing in the queue is newer than its last entry
    obtain ⟨rest, hrest, -⟩ := h.1.kept
    have hsorted := h.1.newestFirst
    obtain ⟨front, rfl⟩ := getLast?_eq_some_iff.mp hlast
    simp only [Option.getD_some, reverse_append, reverse_singleton, singleton_append] at hrest ⊢
    rw [hrest, cons_append, pairwise_cons] at hsorted
    intro t ht
    rcases mem_cons.mp ht with rfl | ht
    · omega
    · have hle := hsorted.1 t (mem_append_left _ ht)
      omega
  · rw [decide_eq_false hold]
    exact h.tick hnow

end Queue

/-! ## Memory -/

/-- The arrivals the total limit has let in. -/
def passedTotal (trace : Trace) : List Int :=
  (trace.filter fun entry => decide (entry.2 ≠ .overTotal)).map fun entry => entry.1.arrival

theorem servedTimes_sublist (trace : Trace) :
    (servedTimes Call.arrival trace).Sublist (passedTotal trace) := by
  refine List.Sublist.map _ (monotone_filter_right _ ?_)
  intro entry hserved
  rw [decide_eq_true_iff] at hserved
  rw [hserved]
  rfl

theorem serveMemory_ne_overTotal (s : LimitSetting) (userId : Int) (store : Store) (call : Call) :
    (serveMemory s userId store call).1 ≠ .overTotal := by
  unfold serveMemory
  split
  · exact Outcome.noConfusion
  · exact Outcome.noConfusion
  · exact Outcome.noConfusion

theorem serveMemory_total (s : LimitSetting) (userId : Int) (store : Store) (call : Call) :
    (serveMemory s userId store call).2 (totalKey userId) = store (totalKey userId) := by
  have hcheck := @request_other store (checkKey userId) s.successMaxCount s.duration call.arrival _
    (totalKey_ne_checkKey userId)
  unfold serveMemory
  split <;> rename_i store' hrequest <;> rw [hrequest] at hcheck
  · exact hcheck
  · exact hcheck
  show (if _ then _ else _ : Store) _ = _
  split
  · exact (request_other (totalKey_ne_successKey userId)).trans hcheck
  · exact hcheck

/-- What the total limit keeps in memory mode. -/
def TotalKept (s : LimitSetting) (userId clock : Int) (st : Store × Trace) : Prop :=
  Holds s.totalMaxCount.toNat s.duration clock (st.1 (totalKey userId)) (passedTotal st.2) ∧
    Admitted s.totalMaxCount.toNat s.duration (passedTotal st.2)

section Memory

variable {s : LimitSetting} {userId expiration clock done : Int} {st : Store × Trace}

theorem TotalKept.call (h : TotalKept s userId clock st) (htotal : 0 < s.totalMaxCount)
    {call : Call} (hclock : clock ≤ call.arrival) :
    TotalKept s userId call.arrival (memoryStep s userId expiration st (.call call)) := by
  have hlimit : 0 < s.totalMaxCount.toNat := by omega
  have hcast : (s.totalMaxCount.toNat : Int) = s.totalMaxCount := Int.toNat_of_nonneg htotal.le
  have hspec := request_spec h.1 hlimit hclock
  rw [hcast] at hspec
  unfold memoryStep memoryRateLimitHandler
  simp only [if_pos htotal]
  rcases hspec with ⟨hfew, queue, hrequest, hholds⟩ | ⟨-, hrequest⟩
  · simp only [hrequest]
    have hpassed : ∀ outcome : Outcome, outcome ≠ .overTotal →
        passedTotal ((call, outcome) :: st.2) = call.arrival :: passedTotal st.2 := by
      intro outcome hne
      simp [passedTotal, hne]
    rw [TotalKept, hpassed _ (serveMemory_ne_overTotal _ _ _ _)]
    simp only [serveMemory_total, Function.update_self]
    exact ⟨hholds, hfew, h.2⟩
  · simp only [hrequest]
    exact ⟨h.1.tick hclock, h.2⟩

theorem TotalKept.run (htotal : 0 < s.totalMaxCount) {events : List Event}
    (hsweep : ∀ now, Event.sweep now ∈ events → s.duration ≤ expiration + 1)
    (horder : EventsInOrder clock done events) (h : TotalKept s userId clock st) :
    ∃ clock', TotalKept s userId clock' (events.foldl (memoryStep s userId expiration) st) := by
  induction events generalizing clock done st with
  | nil => exact ⟨clock, h⟩
  | cons event rest ih =>
    have hrest : ∀ now, Event.sweep now ∈ rest → s.duration ≤ expiration + 1 :=
      fun now hnow => hsweep now (mem_cons_of_mem _ hnow)
    cases event with
    | call call => exact ih hrest horder.2.2.2 (h.call htotal horder.1)
    | sweep now =>
      have hlimit : 0 < s.totalMaxCount.toNat := by omega
      exact ih hrest horder.2 ⟨sweep_spec h.1 hlimit horder.1 (hsweep now mem_cons_self), h.2⟩

end Memory

/-! ## Redis -/

/-- What the bucket has left and what was paid from `start` on is covered by the capacity and the
refill. -/
def Paid (s : LimitSetting) (start clock : Int) (bucket : Option Bucket) (times : List Int) :
    Prop :=
  match bucket with
  | none => times = []
  | some b => 0 ≤ b.tokens ∧ b.tokens ≤ s.totalMaxCount * s.duration ∧ b.lastTime ≤ clock ∧
    (∀ t ∈ times, t ≤ b.lastTime) ∧
    (start ≤ b.lastTime → s.duration * since start times + b.tokens ≤
      s.totalMaxCount * s.duration + s.totalMaxCount * (b.lastTime - start))

section Script

variable {s : LimitSetting} {start clock now : Int} {bucket : Option Bucket} {times : List Int}

theorem since_eq_zero (h : ∀ t ∈ times, t < start) : since start times = 0 := by
  rw [since, countP_eq_zero]
  intro t ht
  have ht' := h t ht
  simp only [decide_eq_true_eq]
  omega

theorem refill_spec (h : Paid s start clock bucket times) (htotal : 0 < s.totalMaxCount)
    (hduration : 0 ≤ s.duration) (hnow : clock ≤ now) :
    let tokens := refill s.totalMaxCount (s.totalMaxCount * s.duration) now bucket
    0 ≤ tokens ∧ tokens ≤ s.totalMaxCount * s.duration ∧ (∀ t ∈ times, t ≤ now) ∧
      (start ≤ now → s.duration * since start times + tokens ≤
        s.totalMaxCount * s.duration + s.totalMaxCount * (now - start)) := by
  intro tokens
  have hcapacity : 0 ≤ s.totalMaxCount * s.duration := mul_nonneg htotal.le hduration
  have hfill : start ≤ now → 0 ≤ s.totalMaxCount * (now - start) := fun hstart =>
    mul_nonneg htotal.le (by omega)
  cases bucket with
  | none =>
    have hempty : times = [] := h
    subst hempty
    refine ⟨hcapacity, le_rfl, by simp, fun hstart => ?_⟩
    have hfull : tokens = s.totalMaxCount * s.duration := rfl
    rw [since, countP_nil, Nat.cast_zero, mul_zero]
    omega
  | some b =>
    have htokens : tokens = min (s.totalMaxCount * s.duration) (b.tokens + (now - b.lastTime) * s.totalMaxCount) := rfl
    clear_value tokens
    obtain ⟨hpos, hfull, hclock, hpast, hpaid⟩ := h
    have helapsed : 0 ≤ (now - b.lastTime) * s.totalMaxCount := mul_nonneg (by omega) htotal.le
    refine ⟨by omega, by omega, fun t ht => (hpast t ht).trans (by omega), fun hstart => ?_⟩
    by_cases hlast : start ≤ b.lastTime
    · have hsplit : s.totalMaxCount * (now - start) =
          s.totalMaxCount * (b.lastTime - start) + (now - b.lastTime) * s.totalMaxCount := by ring
      omega
    have hzero := since_eq_zero fun t ht => (hpast t ht).trans_lt (not_le.mp hlast)
    rw [hzero, Nat.cast_zero, mul_zero]
    omega

theorem script_spec (h : Paid s start clock bucket times) (htotal : 0 < s.totalMaxCount)
    (hduration : 0 ≤ s.duration) (hnow : clock ≤ now) :
    let answer := rateLimitScript s.duration s.totalMaxCount (s.totalMaxCount * s.duration) now bucket
    (answer.1 = true → Paid s start now (some answer.2) (now :: times) ∧ (start ≤ now →
      s.duration * since start (now :: times) ≤ s.totalMaxCount * s.duration + s.totalMaxCount * (now - start))) ∧
    (answer.1 = false → Paid s start now (some answer.2) times) := by
  intro answer
  obtain ⟨hpos, hfull, hpast, hpaid⟩ := refill_spec h htotal hduration hnow
  simp only [answer, rateLimitScript]
  split
  case isTrue henough =>
    have hcount : start ≤ now → s.duration * since start (now :: times) =
        s.duration * since start times + s.duration := by
      intro hstart
      have hcons : since start (now :: times) = since start times + 1 :=
        countP_cons_of_pos (by simpa using hstart)
      rw [hcons, Nat.cast_add, Nat.cast_one, mul_add, mul_one]
    refine ⟨fun _ => ⟨⟨by simpa using henough, by simp only; omega, le_rfl, ?_, fun hstart => ?_⟩, fun hstart => ?_⟩,
      by simp⟩
    · intro t ht
      rcases mem_cons.mp ht with rfl | ht
      · exact le_rfl
      · exact hpast t ht
    · have hpaid' := hpaid hstart
      rw [hcount hstart]
      simp only
      omega
    · omega
  case isFalse =>
    refine ⟨by simp, fun _ => ⟨hpos, hfull, le_rfl, hpast, hpaid⟩⟩

end Script

/-- The seconds in which requests were served. -/
abbrev servedSeconds (trace : Trace) : List Int :=
  servedTimes (fun call => call.arrival / 1000) trace

/-- What the bucket keeps in Redis mode. -/
def BucketKept (s : LimitSetting) (userId start clock : Int) (st : Redis × Trace) : Prop :=
  Paid s start clock (st.1.buckets (redisTotalKey userId)) (servedSeconds st.2) ∧
    Earned s.duration s.totalMaxCount (s.totalMaxCount * s.duration) start (servedSeconds st.2)

section Redis

variable {s : LimitSetting} {userId start clock done : Int} {st : Redis × Trace}

theorem checkRedisRateLimit_buckets (redis : Redis) (minutes : Int) (key : String)
    (maxCount duration now : Int) :
    (checkRedisRateLimit redis minutes key maxCount duration now).2.buckets = redis.buckets := by
  simp only [checkRedisRateLimit]
  repeat' split
  all_goals rfl

theorem serveRedis_served (redis : Redis) (call : Call) :
    (serveRedis s userId redis call).1 = .served ∧
      (serveRedis s userId redis call).2.buckets = redis.buckets := by
  refine ⟨rfl, ?_⟩
  show (if _ then _ else _ : Redis).buckets = _
  split
  · unfold recordRedisRequest
    split <;> rfl
  · rfl

attribute [local simp] servedTimes

theorem BucketKept.step (h : BucketKept s userId start (clock / 1000) st)
    (htotal : 0 < s.totalMaxCount) (hduration : 0 ≤ s.duration) {call : Call}
    (hclock : clock ≤ call.arrival) :
    BucketKept s userId start (call.arrival / 1000) (redisStep s userId st call) := by
  have hsecond : clock / 1000 ≤ call.arrival / 1000 := Int.ediv_le_ediv (by decide) hclock
  have hcheck := checkRedisRateLimit_buckets st.1 s.minutes (redisSuccessKey userId) s.successMaxCount s.duration
    call.arrival
  have hlater : Paid s start (call.arrival / 1000) (st.1.buckets (redisTotalKey userId)) (servedSeconds st.2) := by
    have hpaid := h.1
    cases hbucket : st.1.buckets (redisTotalKey userId) with
    | none => rwa [hbucket] at hpaid
    | some b =>
      rw [hbucket] at hpaid
      exact ⟨hpaid.1, hpaid.2.1, hpaid.2.2.1.trans hsecond, hpaid.2.2.2⟩
  simp only [redisStep, redisRateLimitHandler]
  split <;> rename_i redis hanswer <;> rw [hanswer] at hcheck <;> change redis.buckets = _ at hcheck
  · exact ⟨by simpa [hcheck] using hlater, by simpa using h.2⟩
  · exact ⟨by simpa [hcheck] using hlater, by simpa using h.2⟩
  have hspec := script_spec h.1 htotal hduration hsecond
  simp only [if_pos htotal]
  rw [hcheck]
  split
  · rename_i hallowed
    obtain ⟨hpaid, hearned⟩ := hspec.1 hallowed
    obtain ⟨hserved, hbuckets⟩ := @serveRedis_served s userId
      { redis with buckets := Function.update st.1.buckets (redisTotalKey userId) (some
        (rateLimitScript s.duration s.totalMaxCount (s.totalMaxCount * s.duration) (call.arrival / 1000)
          (st.1.buckets (redisTotalKey userId))).2) } call
    refine ⟨?_, ?_⟩
    · simpa [hserved, hbuckets] using hpaid
    exact ⟨hearned, h.2⟩
  · rename_i hrefused
    exact ⟨by simpa using hspec.2 (by simpa using hrefused), by simpa using h.2⟩

theorem BucketKept.run (htotal : 0 < s.totalMaxCount) (hduration : 0 ≤ s.duration)
    {calls : List Call} (horder : InOrder clock calls)
    (h : BucketKept s userId start (clock / 1000) st) :
    Earned s.duration s.totalMaxCount (s.totalMaxCount * s.duration) start
      (servedSeconds (calls.foldl (redisStep s userId) st).2) := by
  induction calls generalizing clock st with
  | nil => exact h.2
  | cons call rest ih =>
    have hstep := h.step htotal hduration horder.1
    refine ih horder.2.2 ⟨?_, hstep.2⟩
    have hsecond : call.arrival / 1000 ≤ call.finished / 1000 :=
      Int.ediv_le_ediv (by decide) horder.2.1
    have hpaid := hstep.1
    unfold Paid at hpaid ⊢
    split at hpaid
    · exact hpaid
    · exact ⟨hpaid.1, hpaid.2.1, hpaid.2.2.1.trans hsecond, hpaid.2.2.2⟩

end Redis

/-- In Redis mode a window of the duration has at most what the bucket holds and what comes in
meanwhile. -/
theorem redis_window_bound (s : LimitSetting) (userId done : Int) (calls : List Call)
    (horder : InOrder done calls) (htotal : 0 < s.totalMaxCount) (hduration : 0 < s.duration)
    (start : Int) :
    s.duration * within s.duration start (servedSeconds (redisRun s userId calls).2) ≤
      s.totalMaxCount * s.duration + s.totalMaxCount * (s.duration - 1) :=
  (@BucketKept.run s userId start done (Redis.empty, []) htotal hduration.le calls horder ⟨rfl, trivial⟩).within_le
    hduration.le htotal.le (mul_nonneg htotal.le hduration.le) hduration

/-- At most `total` of a user's requests are served in every window: with Redis if the limit is one
or there is no duration, in memory if there is no sweep or what it removes is a duration old. -/
theorem requests_within_limit (total minutes expiration start userId : Int) (htotal : 0 < total) :
    (total = 1 ∨ minutes ≤ 0 → ∀ (success done : Int) (calls : List Call), InOrder done calls → ∀ w,
      (within (minutes * 60) w (servedSeconds (redisRun ⟨minutes, total, success⟩ userId calls).2) : Int) ≤ total) ∧
    (expiration ≤ 0 ∨ minutes * 60 ≤ expiration + 1 → ∀ (success clock done : Int) (events : List Event),
      EventsInOrder clock done events → Scheduled start expiration events → ∀ w,
      (within (minutes * 60) w
        (servedTimes Call.arrival (memoryRun ⟨minutes, total, success⟩ userId expiration events).2) : Int) ≤ total) := by
  refine ⟨fun h success done calls horder w => ?_,
    fun h success clock done events horder hscheduled w => ?_⟩
  · rcases le_or_gt minutes 0 with hminutes | hminutes
    · rw [within_eq_zero (by omega)]
      exact_mod_cast htotal.le
    obtain rfl : total = 1 := by omega
    have hduration : 0 < minutes * 60 := by omega
    have hbound : minutes * 60 * (within (minutes * 60) w
        (servedSeconds (redisRun ⟨minutes, 1, success⟩ userId calls).2) : Int) ≤
          1 * (minutes * 60) + 1 * (minutes * 60 - 1) :=
      redis_window_bound ⟨minutes, 1, success⟩ userId done calls horder htotal hduration w
    by_contra hover
    have hcost := mul_le_mul_of_nonneg_left (not_le.mp hover) hduration.le
    omega
  · have hsweep : ∀ now, Event.sweep now ∈ events → minutes * 60 ≤ expiration + 1 := by
      intro now hnow
      have hpos := (hscheduled now hnow).1
      omega
    obtain ⟨clock', hkept⟩ := @TotalKept.run ⟨minutes, total, success⟩ userId expiration clock done
      (fun _ => none, []) htotal events hsweep horder ⟨⟨Covers.nil, by simp⟩, trivial⟩
    have hserved := @within_le_of_sublist (minutes * 60) w _ _ (servedTimes_sublist
      (memoryRun ⟨minutes, total, success⟩ userId expiration events).2)
    calc (within (minutes * 60) w (servedTimes Call.arrival
          (memoryRun ⟨minutes, total, success⟩ userId expiration events).2) : Int)
        ≤ total.toNat := by exact_mod_cast hserved.trans (hkept.2.within_le w)
      _ = total := Int.toNat_of_nonneg htotal.le

/-- A limit of one, a duration of a minute, and an expiry of twenty. -/
theorem one_request_limited : (∀ (success done : Int) (calls : List Call), InOrder done calls → ∀ w,
      (within (1 * 60) w (servedSeconds (redisRun ⟨1, 1, success⟩ 7 calls).2) : Int) ≤ 1) ∧
    ∀ (success clock done : Int) (events : List Event), EventsInOrder clock done events →
      Scheduled 0 1200 events → ∀ w,
      (within (1 * 60) w (servedTimes Call.arrival (memoryRun ⟨1, 1, success⟩ 7 1200 events).2) : Int) ≤ 1 :=
  ⟨(requests_within_limit 1 1 1200 0 7 (by decide)).1 (.inl rfl),
    (requests_within_limit 1 1 1200 0 7 (by decide)).2 (.inr (by decide))⟩

/-- Two requests a minute: Redis serves three in half a minute. Two an hour, with the expiry of
twenty minutes of the other limiters: memory serves three in half an hour. -/
theorem requests_over_limit :
    servedSeconds (redisRun ⟨1, 2, 0⟩ 7 [⟨0, 0, 200⟩, ⟨0, 0, 200⟩, ⟨30000, 30000, 200⟩]).2 = [30, 0, 0] ∧
    servedTimes Call.arrival (memoryRun ⟨60, 2, 9⟩ 7 1200
      [.call ⟨1199, 1199, 200⟩, .call ⟨1199, 1199, 200⟩, .sweep 1200, .sweep 2400, .call ⟨2400, 2400, 200⟩]).2 =
      [2400, 1199, 1199] := by
  decide +kernel

end NewApi.RateLimit
