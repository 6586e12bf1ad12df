import NewApi.Lib.Window

/-!
# The model request limiter (`middleware/model-rate-limit.go`, `common/rate-limit.go`)

`ModelRequestRateLimit` holds a user to a total number of requests and to a number of successful
requests per duration. With Redis the total is a token bucket (`common/limiter/lua/rate_limit.lua`)
and the successes are a list of times that expires; without, both are queues of times in
`InMemoryRateLimiter`, which a background sweep (`clearExpiredItems`) removes.

A request has the time it arrives, the time its handler is done and the status the handler writes.
The clocks are read as the code reads them: milliseconds for the list in Redis, whole seconds for
the bucket and in memory.

The keys of a user are the user's own, so the store is followed for one user.
-/

namespace NewApi.RateLimit

/-- `ModelRequestRateLimitDurationMinutes` and the two limits that hold for the user's group. -/
structure LimitSetting where
  minutes : Int
  totalMaxCount : Int
  successMaxCount : Int

/-- The duration in seconds. -/
def LimitSetting.duration (s : LimitSetting) : Int := s.minutes * 60

/-- A request, and what its handler does if it is reached. -/
structure Call where
  arrival : Int
  finished : Int
  status : Int
deriving DecidableEq, Repr

/-- How a request ends. -/
inductive Outcome
  /-- The handler ran. -/
  | served
  /-- Turned away under the total limit. -/
  | overTotal
  /-- Turned away under the success limit. -/
  | overSuccess
  /-- The check itself failed. -/
  | failed
deriving DecidableEq, Repr

/-- The requests so far with their ends, the newest first. -/
abbrev Trace := List (Call × Outcome)

/-! ## Redis -/

/-- A list of times, the newest first, that is gone after `expireAt`. -/
structure RedisList where
  times : List Int
  expireAt : Int

/-- The hash of the script. -/
structure Bucket where
  tokens : Int
  lastTime : Int

structure Redis where
  lists : String → Option RedisList
  buckets : String → Option Bucket

def Redis.empty : Redis := ⟨fun _ => none, fun _ => none⟩

/-- The times under `key`, none if the key is gone. -/
def Redis.range (redis : Redis) (key : String) (now : Int) : List Int :=
  match redis.lists key with
  | some list => if now ≤ list.expireAt then list.times else []
  | none => []

/-- `EXPIRE`: a time to live that is not positive removes the key. -/
def Redis.expire (redis : Redis) (key : String) (now minutes : Int) : Redis :=
  let list := if minutes ≤ 0 then none
    else (redis.lists key).map fun list => { list with expireAt := now + minutes * 60000 }
  { redis with lists := Function.update redis.lists key list }

/-- `LTRIM key 0 stop`. -/
def ltrim (times : List Int) (stop : Int) : List Int :=
  times.take (if 0 ≤ stop then stop + 1 else times.length + stop + 1).toNat

/-- `checkRedisRateLimit`; no answer stands for an error. -/
def checkRedisRateLimit (redis : Redis) (minutes : Int) (key : String)
    (maxCount duration now : Int) : Option Bool × Redis :=
  if maxCount = 0 then (some true, redis)
  else
    let times := redis.range key now
    if (times.length : Int) < maxCount then (some true, redis)
    else
      match times.getLast? with
      | none => (none, redis) -- the empty text is no time
      | some oldTime =>
        if (now - oldTime).tdiv 1000 < duration then (some false, redis.expire key now minutes)
        else (some true, redis)

def recordRedisRequest (redis : Redis) (minutes : Int) (key : String) (maxCount now : Int) :
    Redis :=
  if maxCount = 0 then redis
  else
    let pushed := ltrim (now :: redis.range key now) (maxCount - 1)
    Redis.expire { redis with lists := Function.update redis.lists key (some ⟨pushed, now⟩) } key now minutes

/-- The tokens before any are taken: a new bucket is full. -/
def refill (rate capacity now : Int) : Option Bucket → Int
  | none => capacity
  | some b => min capacity (b.tokens + (now - b.lastTime) * rate)

/-- The script: the answer, and the hash it writes. -/
def rateLimitScript (requested rate capacity now : Int) (bucket : Option Bucket) : Bool × Bucket :=
  let tokens := refill rate capacity now bucket
  if requested ≤ tokens then (true, ⟨tokens - requested, now⟩) else (false, ⟨tokens, now⟩)

/-- The keys of `redisRateLimitHandler`. -/
def redisSuccessKey (userId : Int) : String := "rateLimit:MRRLS:" ++ toString userId

def redisTotalKey (userId : Int) : String := "rateLimit:" ++ toString userId

/-- `c.Next()`, and the record of a success. -/
def serveRedis (s : LimitSetting) (userId : Int) (redis : Redis) (call : Call) : Outcome × Redis :=
  (.served,
    if call.status < 400 then
      recordRedisRequest redis s.minutes (redisSuccessKey userId) s.successMaxCount call.finished
    else redis)

/-- `redisRateLimitHandler`. After a refusal by the bucket `c.Next()` runs nothing in the aborted
context; the status is 429. -/
def redisRateLimitHandler (s : LimitSetting) (userId : Int) (redis : Redis) (call : Call) :
    Outcome × Redis :=
  match checkRedisRateLimit redis s.minutes (redisSuccessKey userId) s.successMaxCount s.duration call.arrival with
  | (none, redis) => (.failed, redis)
  | (some false, redis) => (.overSuccess, redis)
  | (some true, redis) =>
    if 0 < s.totalMaxCount then
      let (allowed, bucket) := rateLimitScript s.duration s.totalMaxCount (s.totalMaxCount * s.duration)
        (call.arrival / 1000) (redis.buckets (redisTotalKey userId))
      let redis := { redis with buckets := Function.update redis.buckets (redisTotalKey userId) (some bucket) }
      if allowed then serveRedis s userId redis call else (.overTotal, redis)
    else serveRedis s userId redis call

def redisStep (s : LimitSetting) (userId : Int) (st : Redis × Trace) (call : Call) :
    Redis × Trace :=
  let (outcome, redis) := redisRateLimitHandler s userId st.1 call
  (redis, (call, outcome) :: st.2)

/-- The requests of one user, from an empty store. -/
def redisRun (s : LimitSetting) (userId : Int) (calls : List Call) : Redis × Trace :=
  calls.foldl (redisStep s userId) (Redis.empty, [])

/-- Each request arrives when the one before it is done. -/
def InOrder (done : Int) : List Call → Prop
  | [] => True
  | call :: rest => done ≤ call.arrival ∧ call.arrival ≤ call.finished ∧ InOrder call.finished rest

/-! ## Memory -/

/-- The store of `InMemoryRateLimiter`: by key, the times let in, the oldest first. -/
abbrev Store := String → Option (List Int)

/-- `InMemoryRateLimiter.Request`; no answer stands for a panic. -/
def request (store : Store) (key : String) (maxRequestNum duration now : Int) :
    Option Bool × Store :=
  match store key with
  | some queue =>
    if (queue.length : Int) < maxRequestNum then (some true, Function.update store key (some (queue ++ [now])))
    else
      match queue with
      | [] => (none, store) -- index out of range
      | oldest :: rest =>
        if duration ≤ now - oldest then (some true, Function.update store key (some (rest ++ [now])))
        else (some false, store)
  | none =>
    if maxRequestNum < 0 then (none, store) -- a capacity out of range
    else (some true, Function.update store key (some [now]))

/-- One pass of `clearExpiredItems`. -/
def clearExpiredItems (expiration now : Int) (store : Store) : Store := fun key =>
  (store key).filter fun queue =>
    match queue.getLast? with
    | none => false
    | some newest => !decide (expiration < now - newest)

/-- The keys of `memoryRateLimitHandler`. -/
def totalKey (userId : Int) : String := "MRRL" ++ toString userId

def successKey (userId : Int) : String := "MRRLS" ++ toString userId

def checkKey (userId : Int) : String := successKey userId ++ "_check"

/-- The second half of `memoryRateLimitHandler`: the success limit, the handler, and the record of a
success. -/
def serveMemory (s : LimitSetting) (userId : Int) (store : Store) (call : Call) : Outcome × Store :=
  match request store (checkKey userId) s.successMaxCount s.duration call.arrival with
  | (none, store) => (.failed, store)
  | (some false, store) => (.overSuccess, store)
  | (some true, store) =>
    (.served,
      if call.status < 400 then
        (request store (successKey userId) s.successMaxCount s.duration call.finished).2
      else store)

def memoryRateLimitHandler (s : LimitSetting) (userId : Int) (store : Store) (call : Call) :
    Outcome × Store :=
  if 0 < s.totalMaxCount then
    match request store (totalKey userId) s.totalMaxCount s.duration call.arrival with
    | (none, store) => (.failed, store)
    | (some false, store) => (.overTotal, store)
    | (some true, store) => serveMemory s userId store call
  else serveMemory s userId store call

/-- What happens to the store: a request, or a pass of the sweep. -/
inductive Event
  | call (call : Call)
  | sweep (now : Int)

def memoryStep (s : LimitSetting) (userId expiration : Int) (st : Store × Trace) : Event →
      Store × Trace
  | .call call =>
    let (outcome, store) := memoryRateLimitHandler s userId st.1 call
    (store, (call, outcome) :: st.2)
  | .sweep now => (clearExpiredItems expiration now st.1, st.2)

/-- The requests of one user and the sweeps, from an empty store. `expiration` is the expiry, in
    seconds, that the limiter was first initialised with. -/
def memoryRun (s : LimitSetting) (userId expiration : Int) (events : List Event) : Store × Trace :=
  events.foldl (memoryStep s userId expiration) (fun _ => none, [])

/-- The events in their order: a sweep may come while a handler runs, a request only when the one
    before it is done. -/
def EventsInOrder (clock done : Int) : List Event → Prop
  | [] => True
  | .call call :: rest =>
    clock ≤ call.arrival ∧ done ≤ call.arrival ∧ call.arrival ≤ call.finished ∧
      EventsInOrder call.arrival call.finished rest
  | .sweep now :: rest => clock ≤ now ∧ EventsInOrder now done rest

/-- The sweeps come at the moments the sleep of `clearExpiredItems` gives, counted from the first
    `Init`; an expiry that is not positive starts no sweep. -/
def Scheduled (start expiration : Int) (events : List Event) : Prop :=
  ∀ now, Event.sweep now ∈ events → 0 < expiration ∧ ∃ k : Nat, 0 < k ∧ now = start + k * expiration

/-! ## What a trace shows -/

/-- The requests that were served, by a time of theirs. -/
def servedTimes (time : Call → Int) (trace : Trace) : List Int :=
  (trace.filter fun entry => decide (entry.2 = .served)).map fun entry => time entry.1

/-! ## One request -/

section Keys

variable (userId : Int)

theorem totalKey_ne_successKey : totalKey userId ≠ successKey userId := by
  intro h
  have hlength := congrArg String.length h
  simp only [totalKey, successKey, String.length_append] at hlength
  have hmark : "MRRL".length = 4 ∧ "MRRLS".length = 5 := by decide
  omega

theorem totalKey_ne_checkKey : totalKey userId ≠ checkKey userId := by
  intro h
  have hlength := congrArg String.length h
  simp only [totalKey, checkKey, successKey, String.length_append] at hlength
  have hmark : "MRRL".length = 4 ∧ "MRRLS".length = 5 := by decide
  omega

end Keys

section Request

variable {store : Store} {key : String} {maxRequestNum duration now : Int}

theorem request_other {other : String} (h : other ≠ key) :
    (request store key maxRequestNum duration now).2 other = store other := by
  unfold request
  repeat' split
  all_goals first | rfl | exact Function.update_of_ne h _ _

end Request

end NewApi.RateLimit
