import NewApi.Lib.Table
import NewApi.Lib.Grouping

/-!
# The batch updater (`model/utils.go`)

With batch updates enabled, the quota and usage counters of users, tokens and channels are not
written by the request that changes them. `addNewRecord` adds the amount to a map in memory, one map
per kind of counter, and `batchUpdate` from time to time takes the maps and writes their entries.

* `Db`, and under the source's names the `UPDATE` statements on it.
* `addNewRecord`, `Flush`, `Flush.advance` — a record, and a running `batchUpdate` with each of its
  atomic steps: a look at one map, the swap of one map, the write of one entry.
* `State`, `Event`, `run` — any number of recording callers and of running flushes, in any order.
* `State.settled` — the database once everything waiting is written. No step of a flush changes it
  and a record changes it by its amount (`settled_run`), which is why nothing is lost or counted
  twice.
-/

namespace NewApi.BatchUpdate

open List Function

inductive BatchUpdateType where
  | userQuota
  | tokenQuota
  | usedQuota
  | channelUsedQuota
  | requestCount
  deriving DecidableEq, Repr

namespace BatchUpdateType

/-- The value of the constant. -/
def index : BatchUpdateType → Nat
  | .userQuota => 0
  | .tokenQuota => 1
  | .usedQuota => 2
  | .channelUsedQuota => 3
  | .requestCount => 4

/-- The kind with index `i`; `none` from `BatchUpdateTypeCount` on. -/
def ofIndex (i : Nat) : Option BatchUpdateType :=
  [userQuota, tokenQuota, usedQuota, channelUsedQuota, requestCount][i]?

theorem index_of_ofIndex {i : Nat} {t : BatchUpdateType} (h : ofIndex i = some t) :
    t.index = i := by
  match i with
  | 0 | 1 | 2 | 3 | 4 => cases h; rfl
  | _ + 5 => cases h

theorem index_lt_of_ofIndex {i : Nat} (h : ofIndex i = none) (t : BatchUpdateType) :
    t.index < i := by
  match i with
  | 0 | 1 | 2 | 3 | 4 => cases h
  | _ + 5 => cases t <;> simp [index]

theorem index_injective {t t' : BatchUpdateType} (h : t.index = t'.index) : t = t' := by
  cases t <;> cases t' <;> simp_all [index]

end BatchUpdateType

/-! ## Amounts -/

/-- An amount for each counter of each id. -/
abbrev Amounts := BatchUpdateType → Int → Int

/-- The amount `value` for one counter. -/
def single (type : BatchUpdateType) (id value : Int) : Amounts :=
  fun t i => if t = type ∧ i = id then value else 0

/-! ## The database -/

structure UserRow where
  id : Int
  quota : Int
  usedQuota : Int
  requestCount : Int
  deriving DecidableEq, Repr

structure TokenRow where
  id : Int
  remainQuota : Int
  usedQuota : Int
  deriving DecidableEq, Repr

structure ChannelRow where
  id : Int
  usedQuota : Int
  deriving DecidableEq, Repr

structure Db where
  users : Table Int UserRow UserRow.id
  tokens : Table Int TokenRow TokenRow.id
  channels : Table Int ChannelRow ChannelRow.id

namespace Db

def increaseUserQuota (db : Db) (id quota : Int) : Db :=
  let statement : Table.Update UserRow.id :=
    ⟨fun u => u.id = id, fun u => { u with quota := u.quota + quota }, fun _ _ => rfl⟩
  { db with users := db.users.exec statement }

def decreaseUserQuota (db : Db) (id quota : Int) : Db :=
  let statement : Table.Update UserRow.id :=
    ⟨fun u => u.id = id, fun u => { u with quota := u.quota - quota }, fun _ _ => rfl⟩
  { db with users := db.users.exec statement }

def updateUserUsedQuotaAndRequestCount (db : Db) (id quota count : Int) : Db :=
  let statement : Table.Update UserRow.id :=
    ⟨fun u => u.id = id,
      fun u => { u with usedQuota := u.usedQuota + quota, requestCount := u.requestCount + count },
      fun _ _ => rfl⟩
  { db with users := db.users.exec statement }

def updateUserQuotaUsedQuotaAndRequestCount (db : Db) (id quota usedQuota requestCount : Int) :
    Db :=
  if quota = 0 ∧ usedQuota = 0 ∧ requestCount = 0 then db
  else
    let statement : Table.Update UserRow.id :=
      ⟨fun u => u.id = id,
        fun u => { u with
          quota := u.quota + quota
          usedQuota := u.usedQuota + usedQuota
          requestCount := u.requestCount + requestCount },
        fun _ _ => rfl⟩
    { db with users := db.users.exec statement }

def increaseTokenQuota (db : Db) (id quota : Int) : Db :=
  let statement : Table.Update TokenRow.id :=
    ⟨fun t => t.id = id,
      fun t => { t with remainQuota := t.remainQuota + quota, usedQuota := t.usedQuota - quota },
      fun _ _ => rfl⟩
  { db with tokens := db.tokens.exec statement }

def decreaseTokenQuota (db : Db) (id quota : Int) : Db :=
  let statement : Table.Update TokenRow.id :=
    ⟨fun t => t.id = id,
      fun t => { t with remainQuota := t.remainQuota - quota, usedQuota := t.usedQuota + quota },
      fun _ _ => rfl⟩
  { db with tokens := db.tokens.exec statement }

def updateChannelUsedQuota (db : Db) (id quota : Int) : Db :=
  let statement : Table.Update ChannelRow.id :=
    ⟨fun c => c.id = id, fun c => { c with usedQuota := c.usedQuota + quota }, fun _ _ => rfl⟩
  { db with channels := db.channels.exec statement }

/-- The counter of one id; `none` when there is no such row. -/
def value (db : Db) : BatchUpdateType → Int → Option Int
  | .userQuota, id => (db.users.get id).map UserRow.quota
  | .tokenQuota, id => (db.tokens.get id).map TokenRow.remainQuota
  | .usedQuota, id => (db.users.get id).map UserRow.usedQuota
  | .channelUsedQuota, id => (db.channels.get id).map ChannelRow.usedQuota
  | .requestCount, id => (db.users.get id).map UserRow.requestCount

/-! ## Adding amounts to every row -/

/-- Every counter with its amount added; a token's used quota goes the other way. -/
def plus (db : Db) (δ : Amounts) : Db where
  users := db.users.exec ⟨fun _ => true,
      fun u => { u with
        quota := u.quota + δ .userQuota u.id
        usedQuota := u.usedQuota + δ .usedQuota u.id
        requestCount := u.requestCount + δ .requestCount u.id },
      fun _ _ => rfl⟩
  tokens := db.tokens.exec ⟨fun _ => true,
      fun t => { t with
        remainQuota := t.remainQuota + δ .tokenQuota t.id
        usedQuota := t.usedQuota - δ .tokenQuota t.id },
      fun _ _ => rfl⟩
  channels := db.channels.exec
    ⟨fun _ => true, fun c => { c with usedQuota := c.usedQuota + δ .channelUsedQuota c.id }, fun _ _ => rfl⟩

variable (db : Db) (id quota count used : Int) (δ ε : Amounts)

attribute [local simp] Table.Update.apply sub_eq_add_neg

theorem plus_zero : db.plus 0 = db := by
  obtain ⟨users, tokens, channels⟩ := db
  simp only [plus, Db.mk.injEq]
  refine ⟨Table.exec_of_apply_eq ?_, Table.exec_of_apply_eq ?_, Table.exec_of_apply_eq ?_⟩ <;>
    · intro r
      simp

theorem plus_plus : (db.plus δ).plus ε = db.plus (δ + ε) := by
  simp only [plus, Db.mk.injEq]
  refine ⟨Table.exec_exec_of_apply_eq ?_, Table.exec_exec_of_apply_eq ?_,
    Table.exec_exec_of_apply_eq ?_⟩ <;>
    · intro r
      simp only [Table.Update.apply, if_true, Pi.add_apply]
      ring_nf

theorem value_plus (type : BatchUpdateType) :
    (db.plus δ).value type id = (db.value type id).map (· + δ type id) := by
  cases type <;> simp only [value, plus, Table.get_exec, Option.map_map]
  all_goals
    refine Option.map_congr fun r hr => ?_
    simp [(Table.key_of_get hr : r.id = id)]

/-! ### Every statement adds amounts -/

theorem users_exec_eq_plus {statement : Table.Update UserRow.id}
    (h : ∀ u, statement.apply u = { u with
      quota := u.quota + δ .userQuota u.id
      usedQuota := u.usedQuota + δ .usedQuota u.id
      requestCount := u.requestCount + δ .requestCount u.id })
    (htokens : ∀ i, δ .tokenQuota i = 0) (hchannels : ∀ i, δ .channelUsedQuota i = 0) :
    { db with users := db.users.exec statement } = db.plus δ := by
  simp only [plus, Db.mk.injEq]
  refine ⟨Table.exec_eq_of_apply_eq ?_, (Table.exec_of_apply_eq ?_).symm,
    (Table.exec_of_apply_eq ?_).symm⟩
  · intro u
    rw [h u]
    rfl
  · intro t
    simp [htokens]
  · intro c
    simp [hchannels]

theorem tokens_exec_eq_plus {statement : Table.Update TokenRow.id} {value : Int}
    (h : ∀ t, statement.apply t = if t.id = id then { t with
      remainQuota := t.remainQuota + value
      usedQuota := t.usedQuota - value } else t) :
    { db with tokens := db.tokens.exec statement } = db.plus (single .tokenQuota id value) := by
  simp only [plus, Db.mk.injEq]
  refine ⟨(Table.exec_of_apply_eq ?_).symm, Table.exec_eq_of_apply_eq ?_,
    (Table.exec_of_apply_eq ?_).symm⟩
  · intro u
    simp [single]
  · intro t
    rw [h t]
    by_cases ht : t.id = id <;> simp [single, ht]
  · intro c
    simp [single]

theorem increaseUserQuota_eq_plus :
    db.increaseUserQuota id quota = db.plus (single .userQuota id quota) := by
  refine users_exec_eq_plus db _ (fun u => ?_) (fun i => by simp [single]) (fun i => by simp [single])
  by_cases hu : u.id = id <;> simp [single, hu]

theorem decreaseUserQuota_eq_plus :
    db.decreaseUserQuota id quota = db.plus (single .userQuota id (-quota)) := by
  refine users_exec_eq_plus db _ (fun u => ?_) (fun i => by simp [single]) (fun i => by simp [single])
  by_cases hu : u.id = id <;> simp [single, hu]

theorem updateUserUsedQuotaAndRequestCount_eq_plus :
    db.updateUserUsedQuotaAndRequestCount id quota count =
      db.plus (single .usedQuota id quota + single .requestCount id count) := by
  refine users_exec_eq_plus db _ (fun u => ?_) (fun i => by simp [single]) (fun i => by simp [single])
  by_cases hu : u.id = id <;> simp [single, hu]

theorem updateUserQuotaUsedQuotaAndRequestCount_eq_plus :
    db.updateUserQuotaUsedQuotaAndRequestCount id quota used count =
      db.plus (single .userQuota id quota + single .usedQuota id used + single .requestCount id count) := by
  unfold updateUserQuotaUsedQuotaAndRequestCount
  split
  · -- the statement is skipped when it would add three zeros
    rename_i hzero
    obtain ⟨rfl, rfl, rfl⟩ := hzero
    have hsum : single .userQuota id 0 + single .usedQuota id 0 + single .requestCount id 0 = 0 := by
      funext t i
      simp [single]
    rw [hsum, plus_zero]
  · refine users_exec_eq_plus db _ (fun u => ?_) (fun i => by simp [single]) (fun i => by simp [single])
    by_cases hu : u.id = id <;> simp [single, hu]

theorem increaseTokenQuota_eq_plus :
    db.increaseTokenQuota id quota = db.plus (single .tokenQuota id quota) := by
  refine tokens_exec_eq_plus db id fun t => ?_
  by_cases ht : t.id = id <;> simp [ht]

theorem decreaseTokenQuota_eq_plus :
    db.decreaseTokenQuota id quota = db.plus (single .tokenQuota id (-quota)) := by
  refine tokens_exec_eq_plus db id fun t => ?_
  by_cases ht : t.id = id <;> simp [ht]

theorem updateChannelUsedQuota_eq_plus :
    db.updateChannelUsedQuota id quota = db.plus (single .channelUsedQuota id quota) := by
  simp only [updateChannelUsedQuota, plus, Db.mk.injEq]
  refine ⟨(Table.exec_of_apply_eq ?_).symm, (Table.exec_of_apply_eq ?_).symm,
    Table.exec_eq_of_apply_eq ?_⟩
  · intro u
    simp [single]
  · intro t
    simp [single]
  · intro c
    by_cases hc : c.id = id <;> simp [single, hc]

end Db

/-! ## The maps in memory -/

/-- One of `batchUpdateStores`: a map from ids to amounts. -/
abbrev Store := List (Int × Int)

/-- The amount stored under `id`; a missing entry reads as zero. -/
def amount (store : Store) (id : Int) : Int := (findKey id store).getD 0

def addNewRecord (store : Store) (id value : Int) : Store :=
  match findKey id store with
  | none => setKey id value store
  | some v => setKey id (v + value) store

attribute [local simp] amount findKey_setKey findKey findKey_eraseKey

theorem amount_addNewRecord (store : Store) (id value i : Int) :
    amount (addNewRecord store id value) i = amount store i + if i = id then value else 0 := by
  unfold addNewRecord
  split
  · rename_i hnone
    by_cases hi : i = id
    · subst hi
      simp [hnone]
    · simp [hi, Ne.symm hi]
  rename_i v hsome
  by_cases hi : i = id
  · subst hi
    simp [hsome]
  · simp [hi, Ne.symm hi]

theorem amount_eraseKey (store : Store) (id i : Int) :
    amount (eraseKey id store) i = if i = id then 0 else amount store i := by
  by_cases hi : i = id
  · subst hi
    simp
  · simp [hi, Ne.symm hi]

/-! ## A running `batchUpdate` -/

/-- Where a call of `batchUpdate` is. -/
inductive Flush where
  /-- It looks for a map with an entry, next in map `i`. -/
  | checking (i : Nat)
  /-- It swaps the maps for empty ones, next map `i`. -/
  | taking (i : Nat) (stores : BatchUpdateType → Store)
  /-- It writes the entries of the token map, then of the channel map. -/
  | writing (stores : BatchUpdateType → Store)
  /-- It writes the users of `userIDs`, one statement for the three counters of each. -/
  | users (userIDs : List Int) (stores : BatchUpdateType → Store)
  | returned

namespace Flush

def start : Flush := .checking 0

/-- Every id of the three user maps, once. -/
def userIDs (stores : BatchUpdateType → Store) : List Int :=
  ((stores .userQuota).map Prod.fst ++ (stores .usedQuota).map Prod.fst ++ (stores .requestCount).map Prod.fst).dedup

/-- What the flush has taken from the maps and not written yet. -/
def outstanding : Flush → Amounts
  | .checking _ | .returned => 0
  | .taking n stores => fun t i => if t.index < n then amount (stores t) i else 0
  | .writing stores => fun t i => amount (stores t) i
  | .users ids stores => fun t i =>
    if t ≠ .tokenQuota ∧ t ≠ .channelUsedQuota ∧ i ∈ ids then amount (stores t) i else 0

end Flush

/-- Database, maps and running calls of `batchUpdate`. -/
structure State where
  db : Db
  stores : BatchUpdateType → Store
  flushes : List Flush

namespace State

def start (db : Db) : State := ⟨db, fun _ => [], []⟩

/-- One atomic step of a running `batchUpdate`. The iteration order of a map is not fixed: `key` is
the entry that comes next. -/
def advance (s : State) (key : Int) : Flush → State × Flush
  | .checking i =>
    match BatchUpdateType.ofIndex i with
    | none => (s, .returned)
    | some t => (s, if s.stores t = [] then .checking (i + 1) else .taking 0 fun _ => [])
  | .taking i stores =>
    match BatchUpdateType.ofIndex i with
    | none => (s, .writing stores)
    | some t =>
      ({ s with stores := Function.update s.stores t [] }, .taking (i + 1) (Function.update stores t (s.stores t)))
  | .writing stores =>
    if stores .tokenQuota ≠ [] then
      match findKey key (stores .tokenQuota) with
      | none => (s, .writing stores)
      | some value =>
        ({ s with db := s.db.increaseTokenQuota key value },
          .writing (Function.update stores .tokenQuota (eraseKey key (stores .tokenQuota))))
    else if stores .channelUsedQuota ≠ [] then
      match findKey key (stores .channelUsedQuota) with
      | none => (s, .writing stores)
      | some value =>
        ({ s with db := s.db.updateChannelUsedQuota key value },
          .writing (Function.update stores .channelUsedQuota (eraseKey key (stores .channelUsedQuota))))
    else (s, .users (Flush.userIDs stores) stores)
  | .users ids stores =>
    if ids = [] then (s, .returned)
    else if key ∈ ids then
      let db := s.db.updateUserQuotaUsedQuotaAndRequestCount key (amount (stores .userQuota) key)
        (amount (stores .usedQuota) key) (amount (stores .requestCount) key)
      ({ s with db := db }, .users (ids.filter fun i => decide (i ≠ key)) stores)
    else (s, .users ids stores)
  | .returned => (s, .returned)

end State

/-! ## Callers -/

/-- An atomic effect of a request: a record in memory or a statement of its own. -/
inductive Effect where
  | addNewRecord (type : BatchUpdateType) (id value : Int)
  | increaseUserQuota (id quota : Int)
  | decreaseUserQuota (id quota : Int)
  | updateUserUsedQuotaAndRequestCount (id quota count : Int)
  | increaseTokenQuota (id quota : Int)
  | decreaseTokenQuota (id quota : Int)
  | updateChannelUsedQuota (id quota : Int)
  deriving DecidableEq, Repr

namespace Effect

/-- The amounts the effect records or writes. -/
def amounts : Effect → Amounts
  | .addNewRecord type id value => single type id value
  | .increaseUserQuota id quota => single .userQuota id quota
  | .decreaseUserQuota id quota => single .userQuota id (-quota)
  | .updateUserUsedQuotaAndRequestCount id quota count =>
    single .usedQuota id quota + single .requestCount id count
  | .increaseTokenQuota id quota => single .tokenQuota id quota
  | .decreaseTokenQuota id quota => single .tokenQuota id (-quota)
  | .updateChannelUsedQuota id quota => single .channelUsedQuota id quota

def perform (s : State) : Effect → State
  | .addNewRecord type id value =>
    { s with stores := Function.update s.stores type (BatchUpdate.addNewRecord (s.stores type) id value) }
  | .increaseUserQuota id quota => { s with db := s.db.increaseUserQuota id quota }
  | .decreaseUserQuota id quota => { s with db := s.db.decreaseUserQuota id quota }
  | .updateUserUsedQuotaAndRequestCount id quota count =>
    { s with db := s.db.updateUserUsedQuotaAndRequestCount id quota count }
  | .increaseTokenQuota id quota => { s with db := s.db.increaseTokenQuota id quota }
  | .decreaseTokenQuota id quota => { s with db := s.db.decreaseTokenQuota id quota }
  | .updateChannelUsedQuota id quota => { s with db := s.db.updateChannelUsedQuota id quota }

end Effect

/-- The exported functions; `db` asks for a statement at once. -/
inductive Call where
  | increaseUserQuota (id quota : Int) (db : Bool)
  | decreaseUserQuota (id quota : Int) (db : Bool)
  | updateUserUsedQuotaAndRequestCount (id quota : Int)
  | increaseTokenQuota (tokenId quota : Int)
  | decreaseTokenQuota (id quota : Int)
  | updateChannelUsedQuota (id quota : Int)
  deriving DecidableEq, Repr

/-- What a call does, one atomic effect after the other. A negative quota is refused. -/
def Call.effects (batchUpdateEnabled : Bool) : Call → List Effect
  | .increaseUserQuota id quota db =>
    if quota < 0 then []
    else if !db && batchUpdateEnabled then [.addNewRecord .userQuota id quota]
    else [.increaseUserQuota id quota]
  | .decreaseUserQuota id quota db =>
    if quota < 0 then []
    else if !db && batchUpdateEnabled then [.addNewRecord .userQuota id (-quota)]
    else [.decreaseUserQuota id quota]
  | .updateUserUsedQuotaAndRequestCount id quota =>
    if batchUpdateEnabled then [.addNewRecord .usedQuota id quota, .addNewRecord .requestCount id 1]
    else [.updateUserUsedQuotaAndRequestCount id quota 1]
  | .increaseTokenQuota id quota =>
    if quota < 0 then []
    else if batchUpdateEnabled then [.addNewRecord .tokenQuota id quota]
    else [.increaseTokenQuota id quota]
  | .decreaseTokenQuota id quota =>
    if quota < 0 then []
    else if batchUpdateEnabled then [.addNewRecord .tokenQuota id (-quota)]
    else [.decreaseTokenQuota id quota]
  | .updateChannelUsedQuota id quota =>
    if batchUpdateEnabled then [.addNewRecord .channelUsedQuota id quota]
    else [.updateChannelUsedQuota id quota]

/-! ## Runs -/

inductive Event where
  /-- A caller's next effect. -/
  | effect (e : Effect)
  /-- A call of `batchUpdate` begins. -/
  | batchUpdate
  /-- The `n`-th call of `batchUpdate` takes its next step. -/
  | advance (n : Nat) (key : Int)
  deriving DecidableEq, Repr

namespace Event

/-- The effect of a caller, if the event is one. -/
def effect? : Event → Option Effect
  | .effect e => some e
  | _ => none

end Event

namespace State

def step (s : State) : Event → State
  | .effect e => e.perform s
  | .batchUpdate => { s with flushes := s.flushes ++ [Flush.start] }
  | .advance n key =>
    match s.flushes[n]? with
    | none => s
    | some f => { (s.advance key f).1 with flushes := s.flushes.set n (s.advance key f).2 }

def run (db : Db) (events : List Event) : State := events.foldl step (start db)

/-- The entries still in the maps. -/
def pending (s : State) : Amounts := fun t i => amount (s.stores t) i

/-- The entries that running flushes have taken and not written. -/
def taken (s : State) : Amounts := (s.flushes.map Flush.outstanding).sum

/-- The database once everything that waits is written. -/
def settled (s : State) : Db := s.db.plus (s.taken + s.pending)

/-- Nothing waits in a map, and every `batchUpdate` has returned. -/
def Flushed (s : State) : Prop := (∀ t, s.stores t = []) ∧ ∀ f ∈ s.flushes, f = .returned

end State

/-- The sum of the amounts of the effects among the events. -/
def recorded (events : List Event) : Amounts :=
  ((events.filterMap Event.effect?).map Effect.amounts).sum

/-! ## Nothing is lost and nothing is counted twice -/

namespace State

variable {t : BatchUpdateType} {stores : BatchUpdateType → Store}

theorem plus_outstanding_writing {key value : Int} (h : findKey key (stores t) = some value) :
    single t key value +
        Flush.outstanding (.writing (Function.update stores t (eraseKey key (stores t)))) =
      Flush.outstanding (.writing stores) := by
  funext t' i
  simp only [Flush.outstanding, Pi.add_apply, single]
  by_cases ht : t' = t
  · subst ht
    rw [update_self, amount_eraseKey]
    by_cases hi : i = key
    · subst hi
      simp [h]
    · simp [hi]
  · simp [ht]

theorem amount_of_not_mem {store : Store} {id : Int} (h : id ∉ store.map Prod.fst) :
    amount store id = 0 := by
  unfold amount
  cases hf : findKey id store with
  | none => rfl
  | some v => exact absurd (mem_map_of_mem (mem_of_findKey hf)) h

theorem outstanding_users (htokens : stores .tokenQuota = [])
    (hchannels : stores .channelUsedQuota = []) :
    Flush.outstanding (.users (Flush.userIDs stores) stores) = Flush.outstanding (.writing stores) := by
  funext t i
  simp only [Flush.outstanding]
  split
  · rfl
  rename_i hnot
  cases t
  case tokenQuota => simp [htokens]
  case channelUsedQuota => simp [hchannels]
  all_goals
    refine (amount_of_not_mem fun hmem => hnot ⟨by decide, by decide, ?_⟩).symm
    simp only [Flush.userIDs, mem_dedup, mem_append]
    tauto

theorem plus_outstanding_users {ids : List Int} {key : Int} (hkey : key ∈ ids) :
    single .userQuota key (amount (stores .userQuota) key) + single .usedQuota key (amount (stores .usedQuota) key) +
          single .requestCount key (amount (stores .requestCount) key) +
        Flush.outstanding (.users (ids.filter fun i => decide (i ≠ key)) stores) =
      Flush.outstanding (.users ids stores) := by
  funext t i
  simp only [Flush.outstanding, Pi.add_apply, single]
  by_cases hi : i = key
  · subst hi
    cases t <;> simp [hkey]
  · cases t <;> simp [hi]

theorem outstanding_taking {i : Nat} {pool : BatchUpdateType → Store}
    (ht : t.index = i) (t' : BatchUpdateType) (id : Int) :
    Flush.outstanding (.taking (i + 1) (Function.update stores t (pool t))) t' id +
        amount (Function.update pool t [] t') id =
      Flush.outstanding (.taking i stores) t' id + amount (pool t') id := by
  subst ht
  simp only [Flush.outstanding]
  by_cases htt : t' = t
  · subst htt
    simp
  have hne : t'.index ≠ t.index := fun h => htt (BatchUpdateType.index_injective h)
  have hlt : (t'.index < t.index + 1) = (t'.index < t.index) := propext (by omega)
  simp only [update_of_ne htt, hlt]

/-- Amounts have only moved: from a map to what the flush has taken, and from there to the
database. -/
def Moves (s : State) (f : Flush) (r : State × Flush) : Prop :=
  ∃ δ, r.1.db = s.db.plus δ ∧ δ + (r.2.outstanding + r.1.pending) = f.outstanding + s.pending

variable {s : State}

theorem moves_still {f f' : Flush} (h : f'.outstanding = f.outstanding) : Moves s f (s, f') :=
  ⟨0, (Db.plus_zero _).symm, by rw [h, zero_add]⟩

attribute [local simp] Flush.outstanding

theorem moves_advance (s : State) (key : Int) (f : Flush) : Moves s f (s.advance key f) := by
  cases f with
  | checking i =>
    simp only [advance]
    split
    · exact moves_still rfl
    refine moves_still ?_
    split
    · rfl
    · funext t' id
      simp
  | taking i stores =>
    simp only [advance]
    split
    · rename_i hend
      refine moves_still ?_
      funext t' id
      simp [BatchUpdateType.index_lt_of_ofIndex hend t']
    rename_i t ht
    refine ⟨0, (Db.plus_zero _).symm, ?_⟩
    rw [zero_add]
    funext t' id
    exact outstanding_taking (BatchUpdateType.index_of_ofIndex ht) t' id
  | writing stores =>
    simp only [advance]
    split
    · split
      · exact moves_still rfl
      rename_i value hfind
      refine ⟨_, Db.increaseTokenQuota_eq_plus _ _ _, ?_⟩
      rw [← add_assoc, plus_outstanding_writing hfind]
      rfl
    · rename_i htokens
      split
      · split
        · exact moves_still rfl
        rename_i value hfind
        refine ⟨_, Db.updateChannelUsedQuota_eq_plus _ _ _, ?_⟩
        rw [← add_assoc, plus_outstanding_writing hfind]
        rfl
      · rename_i hchannels
        exact moves_still (outstanding_users (not_not.mp htokens) (not_not.mp hchannels))
  | users ids stores =>
    simp only [advance]
    split
    · rename_i hids
      refine moves_still ?_
      funext t' id
      simp [hids]
    split
    · rename_i hkey
      refine ⟨_, Db.updateUserQuotaUsedQuotaAndRequestCount_eq_plus _ _ _ _ _, ?_⟩
      rw [← add_assoc, plus_outstanding_users hkey]
      rfl
    · exact moves_still rfl
  | returned => exact moves_still rfl

theorem settled_perform (s : State) (e : Effect) :
    (e.perform s).settled = s.settled.plus e.amounts := by
  have written : ∀ {db : Db}, db = s.db.plus e.amounts → settled { s with db := db } = s.settled.plus e.amounts := by
    intro db hdb
    subst hdb
    show (s.db.plus e.amounts).plus (s.taken + s.pending) = (s.db.plus (s.taken + s.pending)).plus e.amounts
    rw [Db.plus_plus, Db.plus_plus, add_comm]
  cases e with
  | addNewRecord type id value =>
    simp only [settled, Db.plus_plus]
    refine congrArg (Db.plus s.db) ?_
    funext t i
    show s.taken t i + amount (update s.stores type _ t) i =
      s.taken t i + amount (s.stores t) i + single type id value t i
    by_cases ht : t = type
    · subst ht
      rw [update_self, amount_addNewRecord]
      simp [single, add_assoc]
    · simp [single, ht]
  | increaseUserQuota id quota => exact written (Db.increaseUserQuota_eq_plus _ _ _)
  | decreaseUserQuota id quota => exact written (Db.decreaseUserQuota_eq_plus _ _ _)
  | updateUserUsedQuotaAndRequestCount id quota count =>
    exact written (Db.updateUserUsedQuotaAndRequestCount_eq_plus _ _ _ _)
  | increaseTokenQuota id quota => exact written (Db.increaseTokenQuota_eq_plus _ _ _)
  | decreaseTokenQuota id quota => exact written (Db.decreaseTokenQuota_eq_plus _ _ _)
  | updateChannelUsedQuota id quota => exact written (Db.updateChannelUsedQuota_eq_plus _ _ _)

theorem taken_set {n : Nat} {f : Flush} (hf : s.flushes[n]? = some f) (f' : Flush) :
    ((s.flushes.set n f').map Flush.outstanding).sum = s.taken - f.outstanding + f'.outstanding := by
  obtain ⟨hn, hget⟩ := List.getElem?_eq_some_iff.mp hf
  rw [List.map_set, List.sum_set']
  simp only [length_map, hn, dif_pos, getElem_map, hget, taken]
  abel

theorem settled_step (s : State) (e : Event) :
    (s.step e).settled = s.settled.plus ((e.effect?.map Effect.amounts).getD 0) := by
  rcases e with e | _ | ⟨n, key⟩
  · exact settled_perform s e
  · have htaken : (s.step .batchUpdate).taken = s.taken := by simp [step, taken, Flush.start]
    show s.db.plus ((s.step .batchUpdate).taken + s.pending) = _
    rw [htaken]
    exact (Db.plus_zero _).symm
  refine Eq.trans ?_ (Db.plus_zero _).symm
  simp only [step]
  rcases hf : s.flushes[n]? with _ | f
  · rfl
  obtain ⟨δ, hdb, hmoves⟩ := s.moves_advance key f
  show (s.advance key f).1.db.plus (((s.flushes.set n (s.advance key f).2).map Flush.outstanding).sum +
    (s.advance key f).1.pending) = s.settled
  rw [hdb, Db.plus_plus, taken_set hf]
  refine congrArg (Db.plus s.db) ?_
  calc δ + (s.taken - f.outstanding + (s.advance key f).2.outstanding + (s.advance key f).1.pending)
      = s.taken - f.outstanding +
          (δ + ((s.advance key f).2.outstanding + (s.advance key f).1.pending)) := by abel
    _ = s.taken - f.outstanding + (f.outstanding + s.pending) := by rw [hmoves]
    _ = s.taken + s.pending := by abel

theorem settled_foldl (events : List Event) (s : State) :
    (events.foldl step s).settled = s.settled.plus (recorded events) := by
  induction events generalizing s with
  | nil => exact (Db.plus_zero _).symm
  | cons e events ih =>
    rw [foldl_cons, ih, settled_step, Db.plus_plus]
    refine congrArg (Db.plus s.settled) ?_
    cases h : e.effect? <;> simp [recorded, h]

theorem settled_start (db : Db) : (start db).settled = db := by
  exact Db.plus_zero db

theorem Flushed.settled (h : s.Flushed) : s.settled = s.db := by
  have htaken : s.taken = 0 := by
    refine sum_eq_zero fun δ hδ => ?_
    obtain ⟨f, hf, rfl⟩ := mem_map.mp hδ
    rw [h.2 f hf]
    rfl
  have hpending : s.pending = 0 := by
    funext t i
    simp [pending, h.1 t]
  rw [State.settled, htaken, hpending, add_zero, Db.plus_zero]

end State

/-! ## The two modes -/

/-- The calls with batch updates off, one after the other. -/
def unbatched (db : Db) (calls : List Call) : Db :=
  ((calls.flatMap (Call.effects false)).foldl (fun s e => e.perform s) (State.start db)).db

/-- The effect is a statement of its own. -/
def Effect.direct : Effect → Bool
  | .addNewRecord .. => false
  | _ => true

theorem Call.direct_of_mem_effects {c : Call} {e : Effect} (h : e ∈ c.effects false) :
    e.direct = true := by
  cases c <;> simp only [Call.effects, Bool.and_false, Bool.false_eq_true, if_false] at h
  case updateUserUsedQuotaAndRequestCount | updateChannelUsedQuota =>
    rw [mem_singleton.mp h]
    rfl
  all_goals
    split at h
    · cases h
    · rw [mem_singleton.mp h]
      rfl

theorem flushed_foldl_direct {effects : List Effect}
    (hdirect : ∀ e ∈ effects, e.direct = true) {s : State} (hs : s.Flushed) :
    (effects.foldl (fun s e => e.perform s) s).Flushed := by
  induction effects generalizing s with
  | nil => exact hs
  | cons e effects ih =>
    refine ih (fun e' he' => hdirect e' (mem_cons_of_mem _ he')) ?_
    have he := hdirect e mem_cons_self
    cases e with
    | addNewRecord type id value => cases he
    | _ => exact hs

theorem foldl_perform_eq_step (effects : List Effect) (s : State) :
    effects.foldl (fun s e => e.perform s) s = (effects.map Event.effect).foldl State.step s := by
  rw [foldl_map]
  rfl

theorem recorded_map_effect (effects : List Effect) :
    recorded (effects.map Event.effect) = (effects.map Effect.amounts).sum := by
  have heffects : (effects.map Event.effect).filterMap Event.effect? = effects := by
    induction effects with
    | nil => rfl
    | cons e effects ih => simp [Event.effect?, ih]
  rw [recorded, heffects]

theorem unbatched_eq_plus (db : Db) (calls : List Call) :
    unbatched db calls = db.plus ((calls.flatMap (Call.effects false)).map Effect.amounts).sum := by
  have hflushed : ((calls.flatMap (Call.effects false)).foldl (fun s e => e.perform s) (State.start db)).Flushed := by
    refine flushed_foldl_direct ?_ ⟨fun _ => rfl, fun f hf => by cases hf⟩
    intro e he
    obtain ⟨c, _, hc⟩ := mem_flatMap.mp he
    exact Call.direct_of_mem_effects hc
  rw [unbatched, ← hflushed.settled, foldl_perform_eq_step, State.settled_foldl,
    State.settled_start, recorded_map_effect]

theorem Call.sum_effects (c : Call) :
    ((c.effects true).map Effect.amounts).sum = ((c.effects false).map Effect.amounts).sum := by
  cases c <;> simp only [Call.effects]
  case increaseUserQuota id quota db => cases db <;> split <;> rfl
  case decreaseUserQuota id quota db => cases db <;> split <;> rfl
  case updateUserUsedQuotaAndRequestCount id quota => simp [Effect.amounts]
  case increaseTokenQuota id quota => split <;> rfl
  case decreaseTokenQuota id quota => split <;> rfl
  case updateChannelUsedQuota id quota => rfl

theorem sum_flatMap_effects (calls : List Call) :
    ((calls.flatMap (Call.effects true)).map Effect.amounts).sum =
      ((calls.flatMap (Call.effects false)).map Effect.amounts).sum := by
  induction calls with
  | nil => rfl
  | cons c calls ih => simp [ih, c.sum_effects]

/-- **Conservation in batch mode**: a counter with what running flushes have taken and what its map
holds is its first value with all recorded amounts. Once everything is flushed the database is what
the same calls make of it with batch updates off. -/
theorem batched_updates_conserve (db : Db) (events : List Event) :
    (∀ type id, ((State.run db events).db.value type id).map
          (· + (State.run db events).taken type id + (State.run db events).pending type id) =
        (db.value type id).map (· + recorded events type id)) ∧
      ∀ calls :
      List Call, (events.filterMap Event.effect?).Perm (calls.flatMap (Call.effects true)) →
        (State.run db events).Flushed → (State.run db events).db = unbatched db calls := by
  have hsettled : (State.run db events).settled = db.plus (recorded events) := by
    rw [State.run, State.settled_foldl, State.settled_start]
  constructor
  · intro type id
    rw [← Db.value_plus, ← hsettled, State.settled, Db.value_plus]
    simp only [Pi.add_apply, add_assoc]
  intro calls hperm hflushed
  have hrecorded : recorded events = ((calls.flatMap (Call.effects false)).map Effect.amounts).sum := by
    rw [recorded, (hperm.map _).sum_eq, sum_flatMap_effects]
  rw [← hflushed.settled, hsettled, hrecorded, unbatched_eq_plus]

def sampleDb : Db where
  users := ⟨[⟨1, 100, 0, 0⟩], List.nodup_singleton _⟩
  tokens := ⟨[⟨5, 50, 0⟩], List.nodup_singleton _⟩
  channels := ⟨[⟨7, 0⟩], List.nodup_singleton _⟩

/-- A request takes 30 from user 1 and token 5 while a flush runs; its usage is recorded before and
after the flush takes that map. -/
def sampleEvents : List Event :=
  [Event.effect (.addNewRecord .userQuota 1 (-30)), .effect (.addNewRecord .tokenQuota 5 (-30)), .batchUpdate] ++
    List.replicate 3 (Event.advance 0 0) ++ [Event.effect (.addNewRecord .usedQuota 1 30)] ++
    List.replicate 4 (Event.advance 0 0) ++ [Event.effect (.addNewRecord .requestCount 1 1), .advance 0 5] ++
    [Event.advance 0 0, .advance 0 1, .advance 0 0, .batchUpdate] ++
    List.replicate 13 (Event.advance 1 0) ++ [Event.advance 1 1, .advance 1 0]

def sampleCalls : List Call :=
  [.decreaseUserQuota 1 30 false, .decreaseTokenQuota 5 30, .updateUserUsedQuotaAndRequestCount 1 30]

theorem sample_flush_equals_unbatched : (State.run sampleDb sampleEvents).Flushed ∧
      (State.run sampleDb sampleEvents).db = unbatched sampleDb sampleCalls := by
  have hflushed : (State.run sampleDb sampleEvents).Flushed := by
    refine ⟨fun t => ?_, ?_⟩
    · cases t <;> rfl
    · have hlist : (State.run sampleDb sampleEvents).flushes = [.returned, .returned] := rfl
      simp [hlist]
  exact ⟨hflushed, (batched_updates_conserve sampleDb sampleEvents).2 sampleCalls (by decide) hflushed⟩

end NewApi.BatchUpdate
