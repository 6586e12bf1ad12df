import NewApi.Model.Channel
import NewApi.Lib.Draw
import NewApi.Lib.Run

/-!
# The channel cache (`model/channel_cache.go`)

With the memory cache enabled, requests are routed from an index: for each group and model the ids
of the enabled channels that list them.

* `Cache`, `initChannelCache` — the index and the channels behind it; filling the index panics when
  an enabled channel lists a group that no ability has.
* `cacheUpdateChannelStatus` — a status change; a channel that is no longer enabled is taken out of
  the lists, one occurrence of it from each.
-/

namespace NewApi.Channels

open List Table

/-! ## The index -/

structure Cache where
  /-- `group2model2channels`, with group and model as one key. -/
  lists : List ((String × String) × List Int)
  /-- `channelsIDM`: all channels, disabled ones too. -/
  channels : ChannelTable

namespace Cache

/-- `group2model2channels[group][model]`. -/
def ids (cache : Cache) (group model : String) : List Int :=
  (findKey (group, model) cache.lists).getD []

end Cache

/-- Every entry that the loops append, in their order. -/
def cacheEntries (channels : List Channel) : List ((String × String) × Int) :=
  (channels.filter fun c => decide (c.status = channelStatusEnabled)).flatMap fun c =>
    c.groups.flatMap fun group => c.modelNames.map fun model => ((group, model), c.id)

/-- `GetPriority` of the channel with this id. -/
def priorityOf (channels : ChannelTable) (id : Int) : Int :=
  ((channels.get id).map Channel.priority).getD 0

/-- `InitChannelCache`; `none` is the panic of writing to a nil map. -/
def initChannelCache (S : Sorting) (db : Db) : Option Cache :=
  let groups := db.abilities.rows.map Ability.group
  if (cacheEntries db.channels.rows).all fun e => decide (e.1.1 ∈ groups) then
    let lists := (cacheEntries db.channels.rows).foldl (fun m e => pushKey e.1 e.2 m) []
    some ⟨lists.map fun e => (e.1, S.sort (priorityOf db.channels) e.2), db.channels⟩
  else none

/-! ## Selection -/

def handleThinkingBudgetModel (name start wildcard : String) : String :=
  if Text.hasPrefix name start && Text.contains name "-thinking-" then wildcard else name

def formatMatchingModelName (name : String) : String :=
  let name :=
    if Text.hasPrefix name "gemini-2.5-flash-lite" then
      handleThinkingBudgetModel name "gemini-2.5-flash-lite" "gemini-2.5-flash-lite-thinking-*"
    else if Text.hasPrefix name "gemini-2.5-flash" then
      handleThinkingBudgetModel name "gemini-2.5-flash" "gemini-2.5-flash-thinking-*"
    else if Text.hasPrefix name "gemini-2.5-pro" then
      handleThinkingBudgetModel name "gemini-2.5-pro" "gemini-2.5-pro-thinking-*"
    else name
  let name := if Text.hasPrefix name "gpt-4-gizmo" then "gpt-4-gizmo-*" else name
  if Text.hasPrefix name "gpt-4o-gizmo" then "gpt-4o-gizmo-*" else name

def missingChannel (id : Int) : String :=
  "数据库一致性错误，渠道# " ++ toString id ++ " 不存在，请联系管理员修复"

/-- The channels of the ids, or the error for the first id without one. -/
def lookupAll (channels : ChannelTable) : List Int → Except String (List Channel)
  | [] => .ok []
  | id :: ids =>
    match channels.get id with
    | none => .error (missingChannel id)
    | some c =>
      match lookupAll channels ids with
      | .error e => .error e
      | .ok cs => .ok (c :: cs)

/-- `sumWeight`, a sum of Go's `int`. -/
def sumWeight (targets : List Channel) : Int := int64 (totalWeight Channel.weight targets)

/-- `smoothingFactor` and `smoothingAdjustment`. -/
def smoothing (sumWeight : Int) (count : Nat) : Int × Int :=
  if sumWeight = 0 then (1, 100) else if sumWeight.tdiv count < 10 then (100, 0) else (1, 0)

/-- What the loop takes off the random number for a channel. -/
def effectiveWeight (targets : List Channel) (c : Channel) : Int :=
  let s := smoothing (sumWeight targets) targets.length
  int64 (int64 c.weight * s.1 + s.2)

/-- The bound of the random number: `sumWeight * smoothingFactor`. -/
def drawBound (targets : List Channel) : Int :=
  let sum := sumWeight targets
  int64 ((if sum = 0 then (targets.length * 100 : Int) else sum) * (smoothing sum targets.length).1)

/-- The draw among the channels of the target priority; `draw` modulo the bound is `rand.Intn`,
which panics if the bound is not positive. -/
def drawTarget (targets : List Channel) (draw : Nat) : Except String (Option Channel) :=
  if drawBound targets ≤ 0 then .error "invalid argument to Intn"
  else
    match walk (decide <| · < 0) (effectiveWeight targets) targets (draw % drawBound targets) with
    | some c => .ok (some c)
    | none => .error "channel not found"

namespace Cache

/-- The ids a request is routed among: those of the model, or else those of its normalised name. -/
def candidates (cache : Cache) (group model : String) : List Int :=
  if cache.ids group model = [] then cache.ids group (formatMatchingModelName model)
  else cache.ids group model

/-- The choice among several ids: the priority for the retry, then the draw. -/
def chooseAmong (channels : ChannelTable) (ids : List Int) (group model : String)
    (retry draw : Nat) : Except String (Option Channel) :=
  match lookupAll channels ids with
  | .error e => .error e
  | .ok cs =>
    let target := rankOrLast (cs.map Channel.priority) retry
    let targets := cs.filter fun c => decide (some c.priority = target)
    if targets = [] then
      .error ("no channel found, group: " ++ group ++ ", model: " ++ model ++ ", priority: " ++
        toString (target.getD 0))
    else drawTarget targets draw

/-- `GetRandomSatisfiedChannel` with the memory cache enabled. -/
def getRandomSatisfiedChannel (cache : Cache) (group model : String) (retry draw : Nat) :
    Except String (Option Channel) :=
  match cache.candidates group model with
  | [] => .ok none
  | [id] =>
    match cache.channels.get id with
    | some c => .ok (some c)
    | none => .error (missingChannel id)
  | ids => chooseAmong cache.channels ids group model retry draw

def cacheUpdateChannelStatus (cache : Cache) (id status : Int) : Cache where
  lists := if status ≠ channelStatusEnabled then cache.lists.map fun e => (e.1, e.2.erase id) else cache.lists
  channels := cache.channels.exec ⟨fun c => decide (c.id = id), fun c => { c with status := status }, fun _ _ => rfl⟩

end Cache

/-! ## Calls -/

inductive CacheCall where
  | cacheUpdateChannelStatus (id status : Int)
  | getRandomSatisfiedChannel (group model : String) (retry draw : Nat)
  deriving DecidableEq, Repr

namespace Cache

/-- A selection reads the cache only. -/
def step (cache : Cache) : CacheCall → Cache
  | .cacheUpdateChannelStatus id status => cache.cacheUpdateChannelStatus id status
  | .getRandomSatisfiedChannel .. => cache

def run (cache : Cache) (calls : List CacheCall) : Cache := calls.foldl step cache

end Cache

/-! ## What a selection returns -/

variable {ids : List Int} {channels : ChannelTable}

theorem lookupAll_ok {cs : List Channel}
    (h : lookupAll channels ids = .ok cs) : ∀ c, c ∈ cs ↔ ∃ id ∈ ids, channels.get id = some c := by
  induction ids generalizing cs with
  | nil =>
    cases h
    simp
  | cons id ids ih =>
    simp only [lookupAll] at h
    split at h
    · cases h
    rename_i c₀ hget
    split at h
    · cases h
    rename_i rest hrest
    cases h
    intro c
    rw [mem_cons, ih hrest, exists_mem_cons_iff, hget, Option.some.injEq, eq_comm]

theorem exists_lookupAll (h : ∀ id ∈ ids, (channels.get id).isSome) :
    ∃ cs, lookupAll channels ids = .ok cs := by
  induction ids with
  | nil => exact ⟨[], rfl⟩
  | cons id ids ih =>
    obtain ⟨c, hc⟩ := Option.isSome_iff_exists.mp (h id mem_cons_self)
    obtain ⟨cs, hcs⟩ := ih fun i hi => h i (mem_cons_of_mem _ hi)
    exact ⟨c :: cs, by simp [lookupAll, hc, hcs]⟩

/-- With ten added to each and a hundred times as large, the weights still sum up in Go's `int`. -/
def Fits (weights : List Nat) : Prop := 100 * (weights.sum + 10 * weights.length) < 2 ^ 63

instance (weights : List Nat) : Decidable (Fits weights) := inferInstanceAs (Decidable (_ < _))

/-- The weight in exact arithmetic: 100 more if all are zero, 100 times as much if they are below 10
on average. -/
def exactWeight (targets : List Channel) (c : Channel) : Nat :=
  let total := totalWeight Channel.weight targets
  if total = 0 then c.weight + 100 else if total / targets.length < 10 then c.weight * 100 else c.weight

theorem totalWeight_affine {α : Type} (w : α → Nat) (f a : Nat) (as : List α) :
    totalWeight (fun x => w x * f + a) as = totalWeight w as * f + as.length * a := by
  induction as with
  | nil => simp
  | cons x as ih =>
    simp only [totalWeight_cons, ih, length_cons]
    ring

variable {targets : List Channel}

theorem smoothing_natCast (total count : Nat) : smoothing total count =
    if total = 0 then (1, 100) else if total / count < 10 then (100, 0) else (1, 0) := by
  rw [smoothing, ← Int.ofNat_tdiv]
  norm_cast

theorem totalWeight_exactWeight (targets : List Channel) :
    totalWeight (exactWeight targets) targets =
    let total := totalWeight Channel.weight targets
    if total = 0 then targets.length * 100
    else if total / targets.length < 10 then total * 100 else total := by
  have hadjusted := totalWeight_affine Channel.weight 1 100 targets
  have hscaled := totalWeight_affine Channel.weight 100 0 targets
  simp only [mul_one, add_zero, mul_zero] at hadjusted hscaled
  by_cases hzero : totalWeight Channel.weight targets = 0
  · have hweight : exactWeight targets = fun c => c.weight + 100 := funext fun c => if_pos hzero
    rw [hweight, hadjusted, hzero, zero_add, if_pos rfl]
  · have hweight : exactWeight targets = fun c => _ := funext fun c => if_neg hzero
    rw [hweight, if_neg hzero]
    split
    · exact hscaled
    · rfl

section

variable (hfit : Fits (targets.map Channel.weight))

include hfit

theorem Fits.total_lt :
    100 * (totalWeight Channel.weight targets + 10 * targets.length) < 2 ^ 63 := by
  simpa [Fits, totalWeight] using hfit

theorem Fits.sumWeight_eq : sumWeight targets = totalWeight Channel.weight targets :=
  int64_natCast (by have := hfit.total_lt; omega)

theorem Fits.effectiveWeight_eq {c : Channel} (hc : c ∈ targets) :
    effectiveWeight targets c = exactWeight targets c ∧ exactWeight targets c < 2 ^ 63 := by
  have htotal := hfit.total_lt
  have hle : c.weight ≤ totalWeight Channel.weight targets := List.le_sum_of_mem (mem_map_of_mem hc)
  have hpos : 0 < targets.length := length_pos_of_mem hc
  have hexact : exactWeight targets c < 2 ^ 63 := by
    simp only [exactWeight]
    split
    · omega
    split <;> omega
  refine ⟨?_, hexact⟩
  simp only [effectiveWeight, hfit.sumWeight_eq, smoothing_natCast,
    int64_natCast (n := c.weight) (by omega)]
  rw [← int64_natCast hexact]
  simp only [exactWeight]
  split
  · simp
  split <;> simp

theorem Fits.total_exactWeight_lt : totalWeight (exactWeight targets) targets < 2 ^ 63 := by
  have htotal := hfit.total_lt
  simp only [totalWeight_exactWeight]
  split_ifs <;> omega

theorem Fits.drawBound_eq : drawBound targets = totalWeight (exactWeight targets) targets := by
  rw [← int64_natCast hfit.total_exactWeight_lt, totalWeight_exactWeight]
  simp only [drawBound, hfit.sumWeight_eq, smoothing_natCast, Nat.cast_eq_zero]
  split_ifs <;> simp

omit hfit in
theorem total_exactWeight_pos (hne : targets ≠ []) :
    0 < totalWeight (exactWeight targets) targets := by
  have hlen : 0 < targets.length := length_pos_of_ne_nil hne
  simp only [totalWeight_exactWeight]
  split_ifs <;> omega

/-- While the weights fit, the draw is the one with the exact weights. -/
theorem Fits.drawTarget_eq (hne : targets ≠ []) (draw : Nat) : drawTarget targets draw =
    match drawBelow (exactWeight targets) targets
      ((draw % totalWeight (exactWeight targets) targets : Nat) : Int) with
    | some c => .ok (some c)
    | none => .error "channel not found" := by
  have hpos := total_exactWeight_pos hne
  have hlt := hfit.total_exactWeight_lt
  have hdraw := Nat.mod_lt draw hpos
  rw [drawTarget, hfit.drawBound_eq, if_neg (by omega), ← Int.natCast_mod,
    walk_eq_drawBelow (fun c hc => hfit.effectiveWeight_eq hc) (by omega) (by omega)]

theorem exists_drawTarget (hne : targets ≠ []) (draw : Nat) :
    ∃ c ∈ targets, drawTarget targets draw = .ok (some c) := by
  have hlt := Nat.mod_lt draw (total_exactWeight_pos hne)
  obtain ⟨c, hc⟩ := Option.isSome_iff_exists.mp
    (drawBelow_isSome (by omega) (Int.ofNat_lt.mpr hlt))
  refine ⟨c, (drawBelow_some (by omega) hc).1, ?_⟩
  rw [hfit.drawTarget_eq hne, hc]

end

theorem drawTarget_ok {draw : Nat} {result : Option Channel}
    (h : drawTarget targets draw = .ok result) : ∃ c ∈ targets, result = some c := by
  rw [drawTarget] at h
  split at h
  · cases h
  split at h
  · rename_i hc
    cases h
    exact ⟨_, walk_mem hc, rfl⟩
  · cases h

variable {id : Int}

namespace Cache

/-- Every id of the index has its channel. -/
def Known (cache : Cache) : Prop :=
  ∀ group model, ∀ id ∈ cache.ids group model, (cache.channels.get id).isSome

variable {cache : Cache} {group model : String}

theorem exists_chosen (hne : ids ≠ [])
    (hknown : ∀ id ∈ ids, (channels.get id).isSome) (group model : String) (retry : Nat) :
    ∃ cs, lookupAll channels ids = .ok cs ∧
      (cs.filter fun c => decide (some c.priority = rankOrLast (cs.map Channel.priority) retry)) ≠ [] ∧
      ∀ draw, chooseAmong channels ids group model retry draw =
        drawTarget (cs.filter fun c => decide (some c.priority = rankOrLast (cs.map Channel.priority) retry))
          draw := by
  obtain ⟨cs, hcs⟩ := exists_lookupAll hknown
  have hcsne : cs.map Channel.priority ≠ [] := by
    obtain ⟨id, hid⟩ := exists_mem_of_ne_nil _ hne
    obtain ⟨c, hc⟩ := Option.isSome_iff_exists.mp (hknown id hid)
    exact ne_nil_of_mem (mem_map_of_mem ((lookupAll_ok hcs c).mpr ⟨id, hid, hc⟩))
  obtain ⟨t, ht, hmem⟩ := exists_rankOrLast hcsne retry
  obtain ⟨c, hc, hprio⟩ := mem_map.mp hmem
  have htargets : (cs.filter fun c => decide (some c.priority = rankOrLast (cs.map Channel.priority) retry)) ≠
      [] := ne_nil_of_mem (mem_filter.mpr ⟨hc, by simp [ht, hprio]⟩)
  refine ⟨cs, hcs, htargets, fun draw => ?_⟩
  simp only [chooseAmong, hcs]
  rw [if_neg htargets]

theorem selected_cases {retry draw : Nat} {result : Option Channel}
    (h : cache.getRandomSatisfiedChannel group model retry draw = .ok result) :
    cache.candidates group model = [] ∧ result = none ∨
      ∃ c, result = some c ∧ c.id ∈ cache.candidates group model := by
  unfold getRandomSatisfiedChannel at h
  split at h
  · rename_i hnil
    cases h
    exact .inl ⟨hnil, rfl⟩
  · rename_i id hone
    split at h
    · rename_i c hc
      cases h
      exact .inr ⟨c, rfl, by simp [hone, (key_of_get hc : c.id = id)]⟩
    · cases h
  · unfold chooseAmong at h
    split at h
    · cases h
    rename_i cs hcs
    dsimp only at h
    split at h
    · cases h
    obtain ⟨c, hc, rfl⟩ := drawTarget_ok h
    obtain ⟨i, hi, hget⟩ := (lookupAll_ok hcs c).mp (mem_filter.mp hc).1
    have hid : c.id = i := key_of_get hget
    exact .inr ⟨c, rfl, hid ▸ hi⟩

/-! ## Status changes -/

theorem ids_update (cache : Cache) (id status : Int) (group model : String) :
    (cache.cacheUpdateChannelStatus id status).ids group model =
      if status ≠ channelStatusEnabled then (cache.ids group model).erase id else cache.ids group model := by
  simp only [cacheUpdateChannelStatus, ids]
  split
  · rw [findKey_map fun l : List Int => l.erase id]
    cases findKey (group, model) cache.lists <;> rfl
  · rfl

theorem isSome_get_update (id status i : Int) :
    ((cache.cacheUpdateChannelStatus id status).channels.get i).isSome = (cache.channels.get i).isSome := by
  simp [cacheUpdateChannelStatus, get_exec]

theorem known_step (h : cache.Known) (call : CacheCall) : (cache.step call).Known := by
  cases call with
  | getRandomSatisfiedChannel group model retry draw => exact h
  | cacheUpdateChannelStatus id status =>
    intro group model i hi
    have hold : i ∈ cache.ids group model := by
      have hi' : i ∈ (cache.cacheUpdateChannelStatus id status).ids group model := hi
      rw [ids_update] at hi'
      split at hi'
      · exact mem_of_mem_erase hi'
      · exact hi'
    exact (isSome_get_update id status i).trans (h group model i hold)

theorem known_run (h : cache.Known) (calls : List CacheCall) : (cache.run calls).Known :=
  foldl_invariant (P := Known) (fun _ call hs => known_step hs call) calls h

/-- No list holds an id twice. -/
def Single (cache : Cache) : Prop := ∀ group model, (cache.ids group model).Nodup

def Without (id : Int) (cache : Cache) : Prop := ∀ group model, id ∉ cache.ids group model

theorem single_step (h : cache.Single) (call : CacheCall) : (cache.step call).Single := by
  cases call with
  | getRandomSatisfiedChannel group model retry draw => exact h
  | cacheUpdateChannelStatus id status =>
    intro group model
    show ((cache.cacheUpdateChannelStatus id status).ids group model).Nodup
    rw [ids_update]
    split
    · exact (h group model).erase id
    · exact h group model

theorem without_step (h : cache.Without id) (call : CacheCall) : (cache.step call).Without id := by
  cases call with
  | getRandomSatisfiedChannel group model retry draw => exact h
  | cacheUpdateChannelStatus i status =>
    intro group model
    show id ∉ (cache.cacheUpdateChannelStatus i status).ids group model
    rw [ids_update]
    split
    · exact fun hmem => h group model (mem_of_mem_erase hmem)
    · exact h group model

/-- Taking one occurrence out of each list takes the channel out, when there is no second one. -/
theorem without_of_disabled (h : cache.Single) (id : Int) {status : Int}
    (hstatus : status ≠ channelStatusEnabled) :
    (cache.cacheUpdateChannelStatus id status).Without id := by
  intro group model
  rw [ids_update, if_pos hstatus]
  exact (h group model).not_mem_erase

end Cache

/-! ## The fresh index -/

variable {cache : Cache} {S : Sorting} {db : Db}

theorem ids_perm_of_init (h : initChannelCache S db = some cache) (group model : String) :
    (cache.ids group model).Perm
      (((cacheEntries db.channels.rows).filter fun e => decide (e.1 = (group, model))).map Prod.snd) := by
  simp only [initChannelCache] at h
  split at h
  · cases h
    have hlist := findKey_foldl_pushKey Prod.fst Prod.snd (group,
      model) (cacheEntries db.channels.rows) []
    simp only [findKey, Option.getD_none, nil_append] at hlist
    rw [← hlist]
    simp only [Cache.ids, findKey_map]
    cases findKey (group, model) ((cacheEntries db.channels.rows).foldl (fun m e => pushKey e.1 e.2 m) []) with
    | none => exact List.Perm.refl _
    | some l => exact S.perm _ l
  · cases h

theorem channels_of_init (h : initChannelCache S db = some cache) :
    cache.channels = db.channels := by
  simp only [initChannelCache] at h
  split at h
  · cases h
    rfl
  · cases h

theorem mem_cacheEntries {channels : List Channel} {group model : String} :
    ((group, model), id) ∈ cacheEntries channels ↔ ∃ c ∈ channels, c.status = channelStatusEnabled ∧
      c.id = id ∧ group ∈ c.groups ∧ model ∈ c.modelNames := by
  simp only [cacheEntries, mem_flatMap, mem_filter, mem_map, decide_eq_true_eq, Prod.mk.injEq]
  constructor
  · rintro ⟨c, ⟨hc, henabled⟩, g, hg, m, hm, ⟨rfl, rfl⟩, rfl⟩
    exact ⟨c, hc, henabled, rfl, hg, hm⟩
  · rintro ⟨c, hc, henabled, rfl, hg, hm⟩
    exact ⟨c, ⟨hc, henabled⟩, group, hg, model, hm, ⟨rfl, rfl⟩, rfl⟩

section

variable (h : initChannelCache S db = some cache)

include h

theorem mem_ids_of_init {group model : String} :
    id ∈ cache.ids group model ↔ ∃ c ∈ db.channels.rows, c.status = channelStatusEnabled ∧
      c.id = id ∧
      group ∈ c.groups ∧ model ∈ c.modelNames := by
  rw [(ids_perm_of_init h group model).mem_iff, ← mem_cacheEntries, mem_map]
  constructor
  · rintro ⟨⟨k, i⟩, he, rfl⟩
    obtain ⟨he, hk⟩ := mem_filter.mp he
    rw [decide_eq_true_eq] at hk
    exact hk ▸ he
  · exact fun he => ⟨_, mem_filter.mpr ⟨he, by simp⟩, rfl⟩

theorem known_of_init : cache.Known := by
  intro group model id hid
  obtain ⟨c, hc, _, rfl, _⟩ := (mem_ids_of_init h).mp hid
  rw [channels_of_init h, (Table.get_of_mem hc :)]
  rfl

theorem single_iff_nodup_entries : cache.Single ↔ (cacheEntries db.channels.rows).Nodup := by
  have hcount : ∀ group model id, (cache.ids group model).count id =
      (cacheEntries db.channels.rows).count ((group, model), id) := by
    intro group model id
    rw [(ids_perm_of_init h group model).count_eq, count_values]
  simp only [Cache.Single, nodup_iff_count_le_one]
  constructor
  · rintro hall ⟨⟨group, model⟩, id⟩
    exact hcount group model id ▸ hall group model id
  intro hall group model id
  rw [hcount]
  exact hall _

end

/-- The channel names no group and no model twice. -/
def Channel.ListsOnce (c : Channel) : Prop := c.groups.Nodup ∧ c.modelNames.Nodup

instance (c : Channel) : Decidable c.ListsOnce := inferInstanceAs (Decidable (_ ∧ _))

theorem nodup_entries_of_channel (c : Channel) :
    (c.groups.flatMap fun group => c.modelNames.map fun model => ((group, model), c.id)).Nodup ↔
      c.ListsOnce := by
  have hinj : ∀ group : String, Function.Injective fun model : String => ((group, model), c.id) :=
    fun group m m' heq => by
      injection heq with hpair
      injection hpair
  obtain ⟨g₀, hg₀⟩ := exists_mem_of_ne_nil _ (Text.split_ne_nil c.group ',')
  obtain ⟨m₀, hm₀⟩ := exists_mem_of_ne_nil _ (Text.split_ne_nil c.models ',')
  rw [nodup_flatMap]
  constructor
  · rintro ⟨hmodels, hgroups⟩
    refine ⟨hgroups.imp fun {g g'} hdisjoint heq => ?_, (hmodels g₀ hg₀).of_map _⟩
    subst heq
    exact hdisjoint (mem_map_of_mem hm₀) (mem_map_of_mem hm₀)
  rintro ⟨hgroups, hmodels⟩
  refine ⟨fun g _ => hmodels.map (hinj g), hgroups.imp fun {g g'} hne => ?_⟩
  intro e he he'
  obtain ⟨m, _, rfl⟩ := mem_map.mp he
  obtain ⟨m', _, heq⟩ := mem_map.mp he'
  injection heq with hpair
  injection hpair with hg
  exact hne hg.symm

theorem nodup_cacheEntries_iff (channels : ChannelTable) : (cacheEntries channels.rows).Nodup ↔
      ∀ c ∈ channels.rows, c.status = channelStatusEnabled → c.ListsOnce := by
  have hdistinct : (channels.rows.filter fun c => decide (c.status = channelStatusEnabled)).Pairwise
      fun c c' => c.id ≠ c'.id := by
    have hrows := channels.nodup
    rw [List.Nodup, pairwise_map] at hrows
    exact hrows.sublist filter_sublist
  rw [cacheEntries, nodup_flatMap]
  simp only [nodup_entries_of_channel, mem_filter, decide_eq_true_eq, and_imp]
  refine ⟨fun h => h.1, fun h => ⟨h, hdistinct.imp fun {c c'} hne => ?_⟩⟩
  intro e he he'
  simp only [mem_flatMap, mem_map] at he he'
  obtain ⟨g, _, m, _, rfl⟩ := he
  obtain ⟨g', _, m', _, heq⟩ := he'
  injection heq with _ hid
  exact hne hid.symm

/-! ## Disabled channels -/

namespace Cache

/-- A disabled channel is not returned by any later selection, whatever is called before and
after. -/
def NeverSelectsDisabled (cache : Cache) : Prop :=
  ∀ (before after : List CacheCall) (id status : Int), status ≠ channelStatusEnabled → ∀ group model retry draw c,
      (cache.run (before ++ .cacheUpdateChannelStatus id status :: after)).getRandomSatisfiedChannel
          group model retry draw = .ok (some c) → c.id ≠ id

theorem neverSelectsDisabled_of_single {cache : Cache} (hsingle : cache.Single) :
    cache.NeverSelectsDisabled := by
  intro before after id status hstatus group model retry draw c hc hid
  have hbefore : (cache.run before).Single :=
    foldl_invariant (P := Single) (fun _ call hs => single_step hs call) before hsingle
  have hrun : cache.run (before ++ .cacheUpdateChannelStatus id status :: after) =
      ((cache.run before).cacheUpdateChannelStatus id status).run after := by
    simp [run, step]
  have hwithout : (cache.run (before ++ .cacheUpdateChannelStatus id status :: after)).Without id := by
    rw [hrun]
    exact foldl_invariant (P := Without id) (fun _ call hs => without_step hs call) after
      (without_of_disabled hbefore id hstatus)
  obtain ⟨_, hnone⟩ | ⟨_, hsome, hmem⟩ := selected_cases hc
  · cases hnone
  cases hsome
  rw [hid] at hmem
  unfold candidates at hmem
  split at hmem
  · exact hwithout _ _ hmem
  · exact hwithout _ _ hmem

theorem ids_run_disable (ids : List Int) (cache : Cache) (group model : String) :
    (cache.run (ids.map fun i => .cacheUpdateChannelStatus i channelStatusManuallyDisabled)).ids group model =
      (cache.ids group model).diff ids := by
  induction ids generalizing cache with
  | nil => rfl
  | cons i ids ih =>
    rw [map_cons, run, foldl_cons, ← run, ih, diff_cons]
    congr 1
    exact (ids_update cache i channelStatusManuallyDisabled group model).trans (if_pos (by decide))

/-- With a channel twice in a list, disabling it until one occurrence is left, and every other
channel of the list, leaves it to be selected. -/
theorem selects_disabled_of_twice {cache : Cache} (hknown : cache.Known) {group model : String}
    (htwice : 2 ≤ (cache.ids group model).count id) : ¬ cache.NeverSelectsDisabled := by
  intro hnever
  let others := (cache.ids group model).filter fun i => decide (i ≠ id)
  let rest := others ++ replicate ((cache.ids group model).count id - 2) id
  let calls : List CacheCall := (id :: rest).map fun i =>
    .cacheUpdateChannelStatus i channelStatusManuallyDisabled
  have hids : (cache.run calls).ids group model = (cache.ids group model).diff (id :: rest) :=
    ids_run_disable (id :: rest) cache group model
  have hcount : ∀ i, ((cache.run calls).ids group model).count i = if i = id then 1 else 0 := by
    intro i
    rw [hids, count_diff, count_cons, count_append, count_replicate]
    by_cases hi : i = id
    · subst hi
      have hzero : others.count i = 0 := count_eq_zero.mpr (by simp [others])
      simp only [hzero, beq_self_eq_true, if_true]
      omega
    · have hsame : others.count i = (cache.ids group model).count i :=
        count_filter (by simpa using hi)
      simp [Ne.symm hi, hi, hsame]
  have honly : (cache.run calls).ids group model = [id] :=
    perm_singleton.mp (perm_iff_count.mpr fun i => by
      rw [hcount, count_singleton]
      simp only [beq_iff_eq]
      exact if_congr eq_comm rfl rfl)
  have hcand : (cache.run calls).candidates group model = [id] := by
    rw [candidates, if_neg (by simp [honly]), honly]
  obtain ⟨c, hc⟩ := Option.isSome_iff_exists.mp (known_run hknown calls group model id (by simp [honly]))
  refine hnever [] (rest.map fun i => .cacheUpdateChannelStatus i channelStatusManuallyDisabled) id
    channelStatusManuallyDisabled (by decide) group model 0 0 c ?_ (key_of_get hc)
  show (cache.run calls).getRandomSatisfiedChannel group model 0 0 = _
  rw [getRandomSatisfiedChannel, hcand]
  simp [hc]

end Cache

/-- **Disabled channels are not selected**: from a fresh cache no run returns a channel after it was
disabled, exactly when no enabled channel repeats a group or a model. -/
theorem disabled_channel_never_selected_iff {S : Sorting} {db : Db} {cache : Cache}
    (h : initChannelCache S db = some cache) :
    cache.NeverSelectsDisabled ↔
      ∀ c ∈ db.channels.rows, c.status = channelStatusEnabled → c.ListsOnce := by
  rw [← nodup_cacheEntries_iff, ← single_iff_nodup_entries h]
  constructor
  · intro hnever group model
    rw [nodup_iff_count_le_one]
    intro id
    by_contra hle
    have htwice : 2 ≤ (cache.ids group model).count id := by omega
    exact Cache.selects_disabled_of_twice (known_of_init h) htwice hnever
  · exact Cache.neverSelectsDisabled_of_single

def oneChannel (models : String) : Db :=
  Db.insert ⟨Table.empty, Table.empty⟩ ⟨1, "sk", channelStatusEnabled, none, models, "default", none, none, .zero⟩

theorem one_channel_never_selected_when_disabled :
    ∃ cache, initChannelCache .stable (oneChannel "gpt-4,gpt-4o") = some cache ∧ cache.NeverSelectsDisabled := by
  have hsome : (initChannelCache .stable (oneChannel "gpt-4,gpt-4o")).isSome := by decide +kernel
  obtain ⟨cache, hcache⟩ := Option.isSome_iff_exists.mp hsome
  exact ⟨cache, hcache, (disabled_channel_never_selected_iff hcache).mpr (by decide +kernel)⟩

def returnedId : Except String (Option Channel) → Option Int
  | .ok (some c) => some c.id
  | _ => none

/-- A channel that lists a model twice is returned after it was disabled. -/
theorem repeated_model_selected_when_disabled :
    (initChannelCache .stable (oneChannel "gpt-4,gpt-4")).map (fun cache =>
      returnedId ((cache.run [.cacheUpdateChannelStatus 1 channelStatusAutoDisabled]).getRandomSatisfiedChannel
        "default" "gpt-4" 0 0)) = some (some 1) := by
  decide +kernel

end NewApi.Channels
