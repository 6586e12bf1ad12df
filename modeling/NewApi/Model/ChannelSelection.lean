import NewApi.Model.ChannelAbilities
import NewApi.Model.ChannelCache

/-!
# The two channel selectors (`model/channel_cache.go`, `model/ability.go`)

A request is routed from the memory cache or, with the cache off, by queries on the abilities.

* `getPriority`, `getChannelQuery`, `getChannel` — the database selection, as a function of the
  random number it draws.
-/

namespace NewApi.Channels

open List Table Nat

/-! ## The database selection -/

/-- `WHERE group = ? AND model = ? AND enabled`. -/
def enabledAbilities (db : Db) (group model : String) : List Ability :=
  db.abilities.rows.filter fun a => decide (a.group = group ∧ a.model = model ∧ a.enabled = true)

def getPriority (db : Db) (group model : String) (retry : Nat) : Except String Int :=
  let priorities := ranks ((enabledAbilities db group model).map Ability.priority)
  match priorities.getLast? with
  | none => .error "数据库一致性被破坏"
  | some last => .ok (if retry ≥ priorities.length then last else priorities.getD retry 0)

/-- The rows that `getChannelQuery` finds: the highest priority at first, then the one for the
retry. -/
def getChannelQuery (db : Db) (group model : String) (retry : Nat) : Except String (List Ability) :=
  let rows := enabledAbilities db group model
  if retry = 0 then .ok (rows.filter fun a => decide (some a.priority = (rows.map Ability.priority).max?))
  else
    match getPriority db group model retry with
    | .error e => .error e
    | .ok priority => .ok (rows.filter fun a => decide (a.priority = priority))

/-- The draw of `GetChannel`: `draw` modulo the sum of the weights, an `int` again, is
`GetRandomInt`, which panics if the sum is not positive. -/
def drawAbility (abilities : List Ability) (draw : Nat) : Except String (Option Ability) :=
  let weightSum := int64 (totalWeight (fun a => a.weight + 10) abilities)
  if weightSum ≤ 0 then .error "invalid argument to Intn"
  else .ok (walk (decide <| · ≤ 0) (fun a => int64 (int64 a.weight + 10)) abilities (draw % weightSum))

def getChannel (S : Sorting) (db : Db) (group model : String) (retry draw : Nat) :
    Except String (Option Channel) :=
  match getChannelQuery db group model retry with
  | .error e => .error e
  | .ok rows =>
    let abilities := S.sort (fun a : Ability => (a.weight : Int)) rows
    if abilities = [] then .ok none
    else
      match drawAbility abilities draw with
      | .error e => .error e
      | .ok drawn =>
        match db.channels.get ((drawn.map Ability.channelId).getD 0) with
        | some c => .ok (some c)
        | none => .error "record not found"

/-! ## What both are about -/

variable {c : Channel}

namespace Db

/-- The enabled channels that list the group and the model. -/
def serving (db : Db) (group model : String) : List Channel :=
  db.channels.rows.filter fun c =>
    decide (c.status = channelStatusEnabled ∧ group ∈ c.groups ∧ model ∈ c.modelNames)

/-- The priority for a retry: the highest at first, then the next lower one, at last the lowest. -/
def targetPriority (db : Db) (group model : String) (retry : Nat) : Option Int :=
  rankOrLast ((db.serving group model).map Channel.priority) retry

/-- The serving channels of that priority. -/
def target (db : Db) (group model : String) (retry : Nat) : List Channel :=
  (db.serving group model).filter fun c => decide (some c.priority = db.targetPriority group model retry)

variable {db : Db} {group model : String}

theorem mem_serving : c ∈ db.serving group model ↔
    c ∈ db.channels.rows ∧ c.status = channelStatusEnabled ∧ group ∈ c.groups ∧
      model ∈ c.modelNames := by
  rw [serving, mem_filter, decide_eq_true_eq]

theorem mem_target {retry : Nat} : c ∈ db.target group model retry ↔
    c ∈ db.serving group model ∧ some c.priority = db.targetPriority group model retry := by
  rw [target, mem_filter, decide_eq_true_eq]

theorem target_ne_nil (h : db.serving group model ≠ []) (retry : Nat) :
    db.target group model retry ≠ [] := by
  obtain ⟨t, ht, hmem⟩ := exists_rankOrLast (mt map_eq_nil_iff.mp h) retry
  obtain ⟨c, hc, hprio⟩ := mem_map.mp hmem
  exact ne_nil_of_mem (mem_target.mpr ⟨hc, by rw [targetPriority, ht, hprio]⟩)

theorem mem_enabledAbilities (h : db.Consistent) {a : Ability} :
    a ∈ enabledAbilities db group model ↔
      ∃ c ∈ db.serving group model, a = c.abilityFor (group, model) := by
  rw [enabledAbilities, mem_filter, decide_eq_true_eq, h.rows]
  constructor
  · rintro ⟨⟨c, hc, hlisted⟩, hgroup, hmodel, henabled⟩
    obtain ⟨p, hp, rfl⟩ := mem_map.mp hlisted
    obtain ⟨m, hm, hpair⟩ := mem_flatMap.mp hp
    obtain ⟨g, hg, rfl⟩ := mem_map.mp hpair
    have hg' : g = group := hgroup
    have hm' : m = model := hmodel
    subst hg' hm'
    exact ⟨c, mem_serving.mpr ⟨hc, of_decide_eq_true henabled, hg, hm⟩, rfl⟩
  · rintro ⟨c, hc, rfl⟩
    obtain ⟨hc, henabled, hg, hm⟩ := mem_serving.mp hc
    refine ⟨⟨c, hc, ?_⟩, rfl, rfl, decide_eq_true henabled⟩
    exact mem_map_of_mem (mem_flatMap.mpr ⟨model, hm, mem_map_of_mem hg⟩)

end Db

/-! ## Weights that fit -/

theorem Fits.mono {ws ws' : List Nat} (h : Fits ws) (hsub : ws'.Subperm ws) : Fits ws' := by
  obtain ⟨l, hperm, hsub⟩ := hsub
  have hsum := hsub.sum_le_sum fun _ _ => Nat.zero_le _
  have hlen := hsub.length_le
  rw [Fits] at h ⊢
  rw [← hperm.sum_eq, ← hperm.length_eq]
  omega

namespace Db

def weightOf (db : Db) (id : Int) : Nat := ((db.channels.get id).map Channel.weight).getD 0

/-- The ids that `InitChannelCache` appends for the group and the model. -/
def listed (db : Db) (group model : String) : List Int :=
  ((cacheEntries db.channels.rows).filter fun e => decide (e.1 = (group, model))).map Prod.snd

/-- The weights under every name of a model fit. -/
def WeightsFit (db : Db) (group : String) : Prop :=
  ∀ model, Fits ((db.listed group model).map db.weightOf)

theorem weightsFit_of_entries (db : Db) (group : String)
    (h : Fits ((cacheEntries db.channels.rows).map fun e => db.weightOf e.2)) :
    db.WeightsFit group := by
  intro model
  rw [listed, map_map]
  exact h.mono (filter_sublist.map _).subperm

end Db

theorem map_weight_lookupAll {db : Db} {ids : List Int} {cs : List Channel}
    (h : lookupAll db.channels ids = .ok cs) : cs.map Channel.weight = ids.map db.weightOf := by
  induction ids generalizing cs with
  | nil => cases h; rfl
  | cons id ids ih =>
    simp only [lookupAll] at h
    split at h
    · cases h
    rename_i c hget
    split at h
    · cases h
    rename_i rest hrest
    cases h
    simp [ih hrest, Db.weightOf, hget]

section Drawn

variable {abilities : List Ability} (hfit : Fits (abilities.map Ability.weight)) (hne : abilities ≠ [])

include hfit hne

theorem Fits.drawAbility_eq (draw : Nat) : drawAbility abilities draw =
    .ok (drawAtMost (fun a => a.weight + 10) abilities
      ((draw % totalWeight (fun a : Ability => a.weight + 10) abilities : Nat) : Int)) := by
  have hsum := totalWeight_affine Ability.weight 1 10 abilities
  have hlen := length_pos_of_ne_nil hne
  have htotal : 100 * (totalWeight Ability.weight abilities + 10 * abilities.length) < 2 ^ 63 := by
    simpa [Fits, totalWeight] using hfit
  simp only [mul_one] at hsum
  have hdraw := mod_lt draw (show 0 < totalWeight (fun a : Ability => a.weight + 10) abilities by omega)
  rw [drawAbility, int64_natCast (by omega), if_neg (by omega), ← Int.natCast_mod]
  refine congrArg Except.ok (walk_eq_drawAtMost (fun a ha => ?_) (by omega) (by omega))
  have hle : a.weight ≤ totalWeight Ability.weight abilities := le_sum_of_mem (mem_map_of_mem ha)
  refine ⟨?_, by omega⟩
  rw [int64_natCast (by omega)]
  exact int64_natCast (n := a.weight + 10) (by omega)

/-- Every number draws an ability. -/
theorem exists_drawAbility (draw : Nat) :
    ∃ a ∈ abilities, drawAbility abilities draw = .ok (some a) := by
  have hpos : 0 < totalWeight (fun a : Ability => a.weight + 10) abilities := by
    obtain ⟨a, as, rfl⟩ := exists_cons_of_ne_nil hne
    rw [totalWeight_cons]
    omega
  obtain ⟨a, ha⟩ := Option.isSome_iff_exists.mp
    (drawAtMost_isSome hne (Int.ofNat_le.mpr (mod_lt draw hpos).le))
  exact ⟨a, drawAtMost_mem ha, by rw [hfit.drawAbility_eq hne, ha]⟩

end Drawn

/-- Some random number makes the selection return this. -/
def CanReturn (select : Nat → Except String (Option Channel)) (result : Option Channel) : Prop :=
  ∃ draw, select draw = .ok result

/-! ## What the memory cache can return -/

theorem exactWeight_pos_iff {targets : List Channel} :
    0 < exactWeight targets c ↔ (∀ c' ∈ targets, c'.weight = 0) ∨ 0 < c.weight := by
  have hzero : totalWeight Channel.weight targets = 0 ↔ ∀ c' ∈ targets, c'.weight = 0 := by
    simp [totalWeight, sum_eq_zero_iff]
  simp only [exactWeight, ← hzero]
  by_cases h : totalWeight Channel.weight targets = 0
  · simp [h]
  · simp only [h, if_false, false_or]
    split <;> simp

theorem canReturn_drawTarget_iff {targets : List Channel} (hfit : Fits (targets.map Channel.weight))
    (hne : targets ≠ []) : CanReturn (drawTarget targets) (some c) ↔
      c ∈ targets ∧ ((∀ c' ∈ targets, c'.weight = 0) ∨ 0 < c.weight) := by
  rw [← exactWeight_pos_iff, ← exists_drawBelow_iff]
  constructor
  · rintro ⟨draw, hdraw⟩
    refine ⟨draw % totalWeight (exactWeight targets) targets, mod_lt _ (total_exactWeight_pos hne),
      ?_⟩
    rw [hfit.drawTarget_eq hne] at hdraw
    split at hdraw
    · rename_i heq
      cases hdraw
      exact heq
    · cases hdraw
  · rintro ⟨r, hr, hdraw⟩
    refine ⟨r, ?_⟩
    rw [hfit.drawTarget_eq hne, mod_eq_of_lt hr, hdraw]

section Memory

variable {S : Sorting} {db : Db} {cache : Cache} {group model : String}

variable (h : initChannelCache S db = some cache)

include h

theorem mem_ids_iff_serving {id : Int} :
    id ∈ cache.ids group model ↔ ∃ c ∈ db.serving group model, c.id = id := by
  rw [mem_ids_of_init h]
  constructor
  · rintro ⟨c, hc, henabled, hid, hg, hm⟩
    exact ⟨c, Db.mem_serving.mpr ⟨hc, henabled, hg, hm⟩, hid⟩
  rintro ⟨c, hc, hid⟩
  obtain ⟨hc, henabled, hg, hm⟩ := Db.mem_serving.mp hc
  exact ⟨c, hc, henabled, hid, hg, hm⟩

theorem ids_eq_nil_iff : cache.ids group model = [] ↔ db.serving group model = [] := by
  simp only [eq_nil_iff_forall_not_mem, mem_ids_iff_serving h, not_exists, not_and]
  exact ⟨fun hall c hc => hall c.id c hc rfl, fun hall _ c hc _ => hall c hc⟩

theorem get_ids_iff_serving :
    (∃ id ∈ cache.ids group model, cache.channels.get id = some c) ↔
      c ∈ db.serving group model := by
  simp only [mem_ids_iff_serving h, channels_of_init h]
  constructor
  · rintro ⟨id, ⟨c', hc', rfl⟩, hget⟩
    have hsame : db.channels.get c'.id = some c' := get_of_mem (Db.mem_serving.mp hc').1
    rw [hsame] at hget
    cases hget
    exact hc'
  · intro hc
    exact ⟨c.id, ⟨c, hc, rfl⟩, get_of_mem (Db.mem_serving.mp hc).1⟩

/-- **The memory selection**: of the channels of the target priority, those with positive weight, or
all when none has. -/
theorem memory_selects_iff (hfit : db.WeightsFit group) {name : String}
    (hcand : cache.candidates group model = cache.ids group name)
    (hserving : db.serving group name ≠ []) (retry : Nat) :
    CanReturn (cache.getRandomSatisfiedChannel group model retry) (some c) ↔
      c ∈ db.target group name retry ∧
        ((∀ c' ∈ db.target group name retry, c'.weight = 0) ∨ 0 < c.weight) := by
  have hne : cache.ids group name ≠ [] := mt (ids_eq_nil_iff h).mp hserving
  have hknown : ∀ id ∈ cache.ids group name, (cache.channels.get id).isSome :=
    fun id hid => known_of_init h group name id hid
  rcases hids : cache.ids group name with _ | ⟨id, _ | ⟨id', rest⟩⟩
  · exact absurd hids hne
  · -- one id: its channel is returned without a draw, and is the only serving one
    obtain ⟨only, hget⟩ := Option.isSome_iff_exists.mp (hknown id (by simp [hids]))
    have hserves : ∀ c', c' ∈ db.serving group name ↔ c' = only := by
      intro c'
      rw [← get_ids_iff_serving h, hids]
      simp [hget, eq_comm]
    have htarget : ∀ c', c' ∈ db.target group name retry ↔ c' = only := by
      obtain ⟨c₀, hc₀⟩ := exists_mem_of_ne_nil _ (Db.target_ne_nil hserving retry)
      have honly : c₀ = only := (hserves c₀).mp (Db.mem_target.mp hc₀).1
      intro c'
      refine ⟨fun hc' => (hserves c').mp (Db.mem_target.mp hc').1, ?_⟩
      rintro rfl
      exact honly ▸ hc₀
    have hselect : ∀ draw, cache.getRandomSatisfiedChannel group model retry draw = .ok (some only) := by
      intro draw
      rw [Cache.getRandomSatisfiedChannel, hcand, hids]
      simp [hget]
    simp only [CanReturn, hselect, htarget, Except.ok.injEq, Option.some.injEq, exists_const,
      forall_eq]
    refine ⟨?_, fun hc => hc.1.symm⟩
    rintro rfl
    exact ⟨rfl, Nat.eq_zero_or_pos _⟩
  · obtain ⟨cs, hcs, htargets, hchoose⟩ :=
      Cache.exists_chosen (hids ▸ hne) (hids ▸ hknown) group model retry
    have hmem : ∀ c', c' ∈ cs ↔ c' ∈ db.serving group name := by
      intro c'
      rw [lookupAll_ok hcs, ← hids]
      exact get_ids_iff_serving h
    have hprio : rankOrLast (cs.map Channel.priority) retry = db.targetPriority group name retry :=
      rankOrLast_congr (fun x => by simp [hmem]) retry
    rw [hprio] at htargets
    have htarget : ∀ c', c' ∈ (cs.filter fun c => decide (some c.priority =
        db.targetPriority group name retry)) ↔ c' ∈ db.target group name retry := by
      intro c'
      rw [mem_filter, decide_eq_true_eq, hmem, Db.mem_target]
    have hselect : ∀ draw, cache.getRandomSatisfiedChannel group model retry draw =
        drawTarget (cs.filter fun c => decide (some c.priority = db.targetPriority group name retry)) draw := by
      intro draw
      rw [Cache.getRandomSatisfiedChannel, hcand, hids, ← hprio]
      exact hchoose draw
    have hweights : cs.map Channel.weight = (cache.ids group name).map db.weightOf :=
      hids ▸ map_weight_lookupAll (channels_of_init h ▸ hcs)
    have hfits := (hfit name).mono ((((filter_sublist (p := fun c => decide (some c.priority =
      db.targetPriority group name retry))).map Channel.weight).subperm).trans
        (hweights ▸ ((ids_perm_of_init h group name).map db.weightOf).subperm))
    have hdraw := canReturn_drawTarget_iff hfits htargets (c := c)
    simp only [htarget] at hdraw
    rw [← hdraw]
    simp only [CanReturn, hselect]

theorem memory_reports_none_iff (retry : Nat) :
    CanReturn (cache.getRandomSatisfiedChannel group model retry) none ↔
      db.serving group model = [] ∧ db.serving group (formatMatchingModelName model) = [] := by
  have hcand : cache.candidates group model = [] ↔
      db.serving group model = [] ∧ db.serving group (formatMatchingModelName model) = [] := by
    rw [← ids_eq_nil_iff h, ← ids_eq_nil_iff h, Cache.candidates]
    split
    · rename_i hnil
      exact (and_iff_right hnil).symm
    · rename_i hne
      exact ⟨fun hnil => absurd hnil hne, fun hnil => absurd hnil.1 hne⟩
  rw [← hcand]
  constructor
  · rintro ⟨draw, hdraw⟩
    obtain ⟨hnil, _⟩ | ⟨c, hc, _⟩ := Cache.selected_cases hdraw
    · exact hnil
    · cases hc
  · intro hnil
    exact ⟨0, by rw [Cache.getRandomSatisfiedChannel, hnil]⟩

end Memory

/-! ## What the database can return -/

theorem getPriority_eq (db : Db) (group model : String) (retry : Nat) :
    getPriority db group model retry =
      match rankOrLast ((enabledAbilities db group model).map Ability.priority) retry with
      | none => .error "数据库一致性被破坏"
      | some priority => .ok priority := by
  simp only [getPriority, rankOrLast]
  rcases hranks : ranks ((enabledAbilities db group model).map Ability.priority) with _ | ⟨x, rest⟩
  · rfl
  rw [getLast?_eq_getElem?]
  have hlast : (x :: rest).length - 1 < (x :: rest).length := by simp
  have hrank : min retry ((x :: rest).length - 1) < (x :: rest).length := by omega
  rw [getElem?_eq_getElem hlast, getElem?_eq_getElem hrank]
  by_cases hretry : retry ≥ (x :: rest).length
  · have hmin : min retry ((x :: rest).length - 1) = (x :: rest).length - 1 := by omega
    simp only [hmin]
    rw [if_pos hretry]
  have hmin : min retry ((x :: rest).length - 1) = retry := by omega
  simp only [hmin]
  rw [if_neg hretry, getD_eq_getElem _ _ (by omega)]

section Database

variable {db : Db} {group model : String}

theorem rankOrLast_enabledAbilities (h : db.Consistent) (retry : Nat) :
    rankOrLast ((enabledAbilities db group model).map Ability.priority) retry =
      db.targetPriority group model retry := by
  refine rankOrLast_congr (fun x => ?_) retry
  simp only [mem_map, Db.mem_enabledAbilities h]
  constructor
  · rintro ⟨_, ⟨c, hc, rfl⟩, rfl⟩
    exact ⟨c, hc, rfl⟩
  · rintro ⟨c, hc, rfl⟩
    exact ⟨_, ⟨c, hc, rfl⟩, rfl⟩

theorem exists_getChannelQuery (h : db.Consistent) (hserving : db.serving group model ≠ [])
    (retry : Nat) :
    ∃ rows, getChannelQuery db group model retry = .ok rows ∧ rows.Sublist db.abilities.rows ∧
      ∀ a, a ∈ rows ↔ ∃ c ∈ db.target group model retry, a = c.abilityFor (group, model) := by
  have hrows : ∀ a, a ∈ ((enabledAbilities db group model).filter fun a =>
      decide (some a.priority = db.targetPriority group model retry)) ↔
        ∃ c ∈ db.target group model retry, a = c.abilityFor (group, model) := by
    intro a
    rw [mem_filter, decide_eq_true_eq, Db.mem_enabledAbilities h]
    constructor
    · rintro ⟨⟨c, hc, rfl⟩, hprio⟩
      exact ⟨c, Db.mem_target.mpr ⟨hc, hprio⟩, rfl⟩
    rintro ⟨c, hc, rfl⟩
    obtain ⟨hc, hprio⟩ := Db.mem_target.mp hc
    exact ⟨⟨c, hc, rfl⟩, hprio⟩
  have hsub : ∀ p, ((enabledAbilities db group model).filter p).Sublist db.abilities.rows :=
    fun _ => filter_sublist.trans filter_sublist
  by_cases hretry : retry = 0
  · subst hretry
    refine ⟨_, ?_, hsub _, hrows⟩
    simp only [getChannelQuery, if_true]
    rw [← rankOrLast_zero, rankOrLast_enabledAbilities h]
  obtain ⟨priority, hprio, _⟩ := exists_rankOrLast (mt map_eq_nil_iff.mp hserving) retry
  have htarget : db.targetPriority group model retry = some priority := hprio
  simp only [htarget, Option.some.injEq] at hrows
  refine ⟨_, ?_, hsub _, hrows⟩
  simp only [getChannelQuery]
  rw [if_neg hretry, getPriority_eq, rankOrLast_enabledAbilities h, htarget]

theorem Db.get_target {retry : Nat} {c : Channel} (hc : c ∈ db.target group model retry) :
    db.channels.get c.id = some c := get_of_mem (Db.mem_serving.mp (Db.mem_target.mp hc).1).1

/-- The rows a query finds are of different channels, all of them listed. -/
theorem fits_rows (hfit : db.WeightsFit group) {retry : Nat} {rows : List Ability}
    (hsub : rows.Sublist db.abilities.rows)
    (hrows : ∀ a, a ∈ rows ↔ ∃ c ∈ db.target group model retry, a = c.abilityFor (group, model)) :
    Fits (rows.map Ability.weight) := by
  have hnodup : (rows.map Ability.channelId).Nodup := by
    refine (db.abilities.nodup.of_map.sublist hsub).map_on fun a ha b hb hid => ?_
    obtain ⟨c, hc, rfl⟩ := (hrows a).mp ha
    obtain ⟨c', hc', rfl⟩ := (hrows b).mp hb
    have hsame : some c = some c' := by rw [← Db.get_target hc, ← Db.get_target hc']; exact congrArg _ hid
    cases hsame
    rfl
  have hlisted : rows.map Ability.channelId ⊆ db.listed group model := by
    intro id hid
    obtain ⟨a, ha, rfl⟩ := mem_map.mp hid
    obtain ⟨c, hc, rfl⟩ := (hrows a).mp ha
    obtain ⟨hc, henabled, hg, hm⟩ := Db.mem_serving.mp (Db.mem_target.mp hc).1
    exact mem_map.mpr ⟨((group, model), c.id),
      mem_filter.mpr ⟨mem_cacheEntries.mpr ⟨c, hc, henabled, rfl, hg, hm⟩, by simp⟩, rfl⟩
  have hweights : rows.map Ability.weight = (rows.map Ability.channelId).map db.weightOf := by
    rw [map_map]
    refine map_congr_left fun a ha => ?_
    obtain ⟨c, hc, rfl⟩ := (hrows a).mp ha
    have hget : db.channels.get c.id = some c := Db.get_target hc
    simp [Db.weightOf, Channel.abilityFor, hget]
  obtain ⟨ids, hperm, hsub'⟩ := hnodup.subperm hlisted
  exact (hfit model).mono ⟨ids.map db.weightOf, hweights ▸ hperm.map _, hsub'.map _⟩

/-- **The database selection**: any channel of the target priority. -/
theorem database_selects_iff (S : Sorting) (h : db.Consistent) (hfit : db.WeightsFit group)
    (hserving : db.serving group model ≠ []) (retry : Nat) {result : Option Channel} :
    CanReturn (getChannel S db group model retry) result ↔
      ∃ c ∈ db.target group model retry, result = some c := by
  obtain ⟨rows, hquery, hsub, hrows⟩ := exists_getChannelQuery h hserving retry
  let abilities := S.sort (fun a : Ability => (a.weight : Int)) rows
  have hmem : ∀ a, a ∈ abilities ↔ ∃ c ∈ db.target group model retry, a = c.abilityFor (group,
    model) :=
    fun a => (S.perm _ rows).mem_iff.trans (hrows a)
  have hne : abilities ≠ [] := by
    obtain ⟨c, hc⟩ := exists_mem_of_ne_nil _ (Db.target_ne_nil hserving retry)
    exact ne_nil_of_mem ((hmem _).mpr ⟨c, hc, rfl⟩)
  have hfits : Fits (abilities.map Ability.weight) :=
    (fits_rows hfit hsub hrows).mono ((S.perm _ rows).map _).subperm
  -- a row that is drawn leads to its channel
  have hfirst : ∀ (a : Ability) (draw : Nat), drawAbility abilities draw = .ok (some a) →
      ∃ c ∈ db.target group model retry, a = c.abilityFor (group, model) ∧
        getChannel S db group model retry draw = .ok (some c) := by
    intro a draw hdraw
    obtain ⟨a', ha', hdrawn⟩ := exists_drawAbility hfits hne draw
    obtain rfl : a' = a := by simpa [hdrawn] using hdraw
    obtain ⟨c, hc, ha⟩ := (hmem a').mp ha'
    refine ⟨c, hc, ha, ?_⟩
    have hget : db.channels.get a'.channelId = some c := ha ▸ Db.get_target hc
    simp only [getChannel, hquery]
    rw [if_neg hne, hdraw]
    simp [hget]
  constructor
  · rintro ⟨draw, hdraw⟩
    obtain ⟨a, _, ha⟩ := exists_drawAbility hfits hne draw
    obtain ⟨c, hc, _, hselect⟩ := hfirst a draw ha
    rw [hselect] at hdraw
    cases hdraw
    exact ⟨c, hc, rfl⟩
  · rintro ⟨c, hc, rfl⟩
    obtain ⟨r, hr, hdraw⟩ := (exists_drawAtMost_iff (w := fun a : Ability => a.weight + 10)
      (fun a _ => le_add_left 2 (a.weight + 8)) (c.abilityFor (group, model))).mpr ((hmem _).mpr ⟨c, hc, rfl⟩)
    obtain ⟨c', hc', ha, hselect⟩ := hfirst (c.abilityFor (group, model)) r
      (by rw [hfits.drawAbility_eq hne, mod_eq_of_lt hr, hdraw])
    have hid : c.id = c'.id := congrArg Ability.channelId ha
    have hsame : some c = some c' := by rw [← Db.get_target hc, hid, Db.get_target hc']
    rw [← hsame] at hselect
    exact ⟨r, hselect⟩

theorem getChannel_of_not_serving (S : Sorting) (h : db.Consistent)
    (hserving : db.serving group model = []) (retry draw : Nat) :
    getChannel S db group model retry draw =
      if retry = 0 then .ok none else .error "数据库一致性被破坏" := by
  have hrows : enabledAbilities db group model = [] := by
    refine eq_nil_iff_forall_not_mem.mpr fun a ha => ?_
    obtain ⟨c, hc, _⟩ := (Db.mem_enabledAbilities h).mp ha
    rw [hserving] at hc
    cases hc
  by_cases hretry : retry = 0
  · have hsorted : S.sort (fun a : Ability => (a.weight : Int)) [] = [] := (S.perm _ []).eq_nil
    simp [getChannel, getChannelQuery, hrows, hretry, hsorted]
  have hprio : getPriority db group model retry = .error "数据库一致性被破坏" := by
    rw [getPriority_eq, hrows]
    rfl
  simp [getChannel, getChannelQuery, hretry, hprio]

end Database

/-! ## Agreement -/

/-- Consistent data can be loaded: the groups of the enabled channels are those of their
abilities. -/
theorem exists_initChannelCache (S : Sorting) {db : Db} (h : db.Consistent) :
    ∃ cache, initChannelCache S db = some cache := by
  have hgroups : ((cacheEntries db.channels.rows).all fun e =>
      decide (e.1.1 ∈ db.abilities.rows.map Ability.group)) = true := by
    rw [all_eq_true]
    rintro ⟨⟨g, m⟩, id⟩ he
    obtain ⟨c, hc, _, _, hg, hm⟩ := mem_cacheEntries.mp he
    rw [decide_eq_true_eq]
    refine mem_map.mpr ⟨c.abilityFor (g, m), (h.rows _).mpr ⟨c, hc, ?_⟩, rfl⟩
    exact mem_map_of_mem (mem_flatMap.mpr ⟨m, hm, mem_map_of_mem hg⟩)
  simp only [initChannelCache]
  rw [if_pos hgroups]
  exact ⟨_, rfl⟩

/-- The two selections can return the same channels, and report none together. -/
def SelectorsAgree (S : Sorting) (cache : Cache) (db : Db) (group model : String) (retry : Nat) :
    Prop :=
  ∀ result, CanReturn (cache.getRandomSatisfiedChannel group model retry) result ↔
    CanReturn (getChannel S db group model retry) result

theorem selectorsAgree_of_serving {S S' : Sorting} {db : Db} {cache : Cache} {group model : String}
    (h : db.Consistent) (hfit : db.WeightsFit group) (hcache : initChannelCache S db = some cache)
    (hserving : db.serving group model ≠ []) (retry : Nat) :
    SelectorsAgree S' cache db group model retry ↔
      (∀ c ∈ db.target group model retry, c.weight = 0) ∨
      ∀ c ∈ db.target group model retry, 0 < c.weight := by
  have hnone : ¬ CanReturn (cache.getRandomSatisfiedChannel group model retry) none := fun hnone =>
    hserving ((memory_reports_none_iff hcache retry).mp hnone).1
  have hdatabase : ∀ result, CanReturn (getChannel S' db group model retry) result ↔
      ∃ c ∈ db.target group model retry, result = some c := fun _ => database_selects_iff S' h hfit hserving retry
  have hcand : cache.candidates group model = cache.ids group model :=
    if_neg (mt (ids_eq_nil_iff hcache).mp hserving)
  constructor
  · intro hagree
    by_contra hmixed
    obtain ⟨hsome, hpos⟩ := not_or.mp hmixed
    push Not at hpos
    obtain ⟨c, hc, hweight⟩ := hpos
    have hreturn := (hagree (some c)).mpr ((hdatabase _).mpr ⟨c, hc, rfl⟩)
    obtain ⟨_, hall | hpositive⟩ := (memory_selects_iff hcache hfit hcand hserving retry).mp hreturn
    · exact hsome hall
    · omega
  · intro hweights result
    rw [hdatabase]
    rcases result with _ | c
    · simp [hnone]
    rw [memory_selects_iff hcache hfit hcand hserving retry]
    constructor
    · exact fun hc => ⟨c, hc.1, rfl⟩
    rintro ⟨c', hc, heq⟩
    cases heq
    exact ⟨hc, hweights.imp id fun hall => hall c hc⟩

theorem selectorsAgree_of_not_serving {S S' : Sorting} {db : Db} {cache : Cache}
    {group model : String} (h : db.Consistent) (hfit : db.WeightsFit group)
    (hcache : initChannelCache S db = some cache) (hserving : db.serving group model = [])
    (retry : Nat) :
    SelectorsAgree S' cache db group model retry ↔
      db.serving group (formatMatchingModelName model) = [] ∧ retry = 0 := by
  have hdatabase : ∀ result, CanReturn (getChannel S' db group model retry) result ↔ retry = 0 ∧ result = none := by
    intro result
    simp only [CanReturn, getChannel_of_not_serving S' h hserving]
    split
    · rename_i hretry
      simp [hretry, eq_comm]
    · rename_i hretry
      simp [hretry]
  by_cases hfallback : db.serving group (formatMatchingModelName model) = []
  · have hselect : ∀ draw, cache.getRandomSatisfiedChannel group model retry draw = .ok none := by
      have hids : cache.ids group model = [] := (ids_eq_nil_iff hcache).mpr hserving
      have hids' : cache.ids group (formatMatchingModelName model) = [] :=
        (ids_eq_nil_iff hcache).mpr hfallback
      have hcand : cache.candidates group model = [] := by rw [Cache.candidates, if_pos hids, hids']
      intro draw
      rw [Cache.getRandomSatisfiedChannel, hcand]
    have hmemory : ∀ result, CanReturn (cache.getRandomSatisfiedChannel group model retry) result ↔ result = none := by
      intro result
      simp [CanReturn, hselect, eq_comm]
    simp only [SelectorsAgree, hdatabase, hmemory]
    refine ⟨fun hagree => ⟨hfallback, ((hagree none).mp rfl).1⟩, ?_⟩
    rintro ⟨_, hretry⟩ result
    exact ⟨fun heq => ⟨hretry, heq⟩, fun heq => heq.2⟩
  · -- the normalised name is served: the memory returns one of its channels
    refine ⟨fun hagree => ?_, fun hcond => absurd hcond.1 hfallback⟩
    have hcand : cache.candidates group model = cache.ids group (formatMatchingModelName model) :=
      if_pos ((ids_eq_nil_iff hcache).mpr hserving)
    obtain ⟨c, hc, hweight⟩ : ∃ c ∈ db.target group (formatMatchingModelName model) retry,
        (∀ c' ∈ db.target group (formatMatchingModelName model) retry, c'.weight = 0) ∨ 0 < c.weight := by
      by_contra hnone
      push Not at hnone
      obtain ⟨c, hc⟩ := exists_mem_of_ne_nil _ (Db.target_ne_nil hfallback retry)
      obtain ⟨⟨c', hc', hne⟩, _⟩ := hnone c hc
      exact hne (Nat.le_zero.mp (hnone c' hc').2)
    have hreturn := (memory_selects_iff hcache hfit hcand hfallback retry).mpr ⟨hc, hweight⟩
    have hnone := ((hdatabase (some c)).mp ((hagree (some c)).mp hreturn)).2
    cases hnone

/-- **Agreement of the two selectors** on consistent data with a fresh cache and weights that fit,
exactly when a model without service has no channels under its normalised name either and this is
the first try, and the weights of the target priority are all zero or all positive. -/
theorem selectors_agree_iff (S S' : Sorting) {db : Db} (h : db.Consistent) {group : String}
    (hfit : db.WeightsFit group) (model : String) (retry : Nat) :
    ∃ cache, initChannelCache S db = some cache ∧ (SelectorsAgree S' cache db group model retry ↔
        (db.serving group model = [] → db.serving group (formatMatchingModelName model) = [] ∧ retry = 0) ∧
        (db.serving group model ≠ [] → (∀ c ∈ db.target group model retry, c.weight = 0) ∨
          ∀ c ∈ db.target group model retry, 0 < c.weight)) := by
  obtain ⟨cache, hcache⟩ := exists_initChannelCache S h
  refine ⟨cache, hcache, ?_⟩
  by_cases hserving : db.serving group model = []
  · rw [selectorsAgree_of_not_serving h hfit hcache hserving]
    exact ⟨fun hcond => ⟨fun _ => hcond, fun hne => absurd hserving hne⟩,
      fun hcond => hcond.1 hserving⟩
  · rw [selectorsAgree_of_serving h hfit hcache hserving]
    exact ⟨fun hcond => ⟨fun hnil => absurd hnil hserving, fun _ => hcond⟩,
      fun hcond => hcond.2 hserving⟩

/-- Two channels of one priority with these weights. -/
def twoChannels (weight weight' : Nat) (models : String) : Db :=
  (Db.empty.insert ⟨1, "sk", channelStatusEnabled, some weight, models, "default", none, none, .zero⟩).insert
    ⟨2, "sk", channelStatusEnabled, some weight', models, "default", none, none, .zero⟩

theorem two_channels_agree : (twoChannels 3 5 "gpt-4").Consistent ∧
      ∃ cache, initChannelCache .stable (twoChannels 3 5 "gpt-4") = some cache ∧
        SelectorsAgree .stable cache (twoChannels 3 5 "gpt-4") "default" "gpt-4" 0 := by
  have hconsistent : (twoChannels 3 5 "gpt-4").Consistent :=
    (Db.consistent_insert ((Db.consistent_insert Db.consistent_empty _).mpr (by decide +kernel)) _).mpr
      (by decide +kernel)
  obtain ⟨cache, hcache, hiff⟩ := selectors_agree_iff .stable .stable hconsistent
    (Db.weightsFit_of_entries _ "default" (by decide +kernel)) "gpt-4" 0
  exact ⟨hconsistent, cache, hcache, hiff.mpr (by decide +kernel)⟩

/-- Three disagreements: weight zero beside positive weight, a model served under its normalised
name only, and a retry for a model that is not served. -/
theorem selectors_disagree : (∃ cache, initChannelCache .stable (twoChannels 0 5 "gpt-4") = some cache ∧
        ¬ SelectorsAgree .stable cache (twoChannels 0 5 "gpt-4") "default" "gpt-4" 0) ∧
      ∃ cache, initChannelCache .stable (twoChannels 3 5 "gpt-4-gizmo-*") = some cache ∧
        ¬ SelectorsAgree .stable cache (twoChannels 3 5 "gpt-4-gizmo-*") "default" "gpt-4-gizmo-g-1" 0 ∧
        ¬ SelectorsAgree .stable cache (twoChannels 3 5 "gpt-4-gizmo-*") "default" "claude" 1 := by
  have hmixed : (twoChannels 0 5 "gpt-4").Consistent :=
    (Db.consistent_insert ((Db.consistent_insert Db.consistent_empty _).mpr (by decide +kernel)) _).mpr
      (by decide +kernel)
  have hgizmo : (twoChannels 3 5 "gpt-4-gizmo-*").Consistent :=
    (Db.consistent_insert ((Db.consistent_insert Db.consistent_empty _).mpr (by decide +kernel)) _).mpr
      (by decide +kernel)
  have hfits := Db.weightsFit_of_entries (twoChannels 0 5 "gpt-4") "default" (by decide +kernel)
  have hfits' := Db.weightsFit_of_entries (twoChannels 3 5 "gpt-4-gizmo-*") "default" (by decide +kernel)
  obtain ⟨cache, hcache⟩ := exists_initChannelCache .stable hmixed
  obtain ⟨cache', hcache'⟩ := exists_initChannelCache .stable hgizmo
  refine ⟨⟨cache, hcache, ?_⟩, cache', hcache', ?_, ?_⟩
  · rw [selectorsAgree_of_serving hmixed hfits hcache (by decide +kernel)]
    decide +kernel
  · rw [selectorsAgree_of_not_serving hgizmo hfits' hcache' (by decide +kernel)]
    decide +kernel
  · rw [selectorsAgree_of_not_serving hgizmo hfits' hcache' (by decide +kernel)]
    decide +kernel

/-! ## How often a channel is drawn -/

/-- **How often a channel is drawn**: while the weights fit, every number selects some channel; the
memory selection draws each channel by as many numbers as its effective weight, the database
selection only if there is no choice. -/
theorem draws_by_weight_iff {targets : List Channel} {abilities : List Ability}
    (htargets : targets ≠ []) (hnodup : targets.Nodup) (hfit : Fits (targets.map Channel.weight))
    (habilities : abilities ≠ []) (hfit' : Fits (abilities.map Ability.weight)) :
    let bound := totalWeight (fun a : Ability => a.weight + 10) abilities
    (∀ draw, ∃ c ∈ targets, drawTarget targets draw = .ok (some c)) ∧
    (∀ draw, ∃ a ∈ abilities, drawAbility abilities draw = .ok (some a)) ∧
    (∀ c ∈ targets, drawCount (drawBound targets).toNat (drawTarget targets) (.ok (some c)) =
      effectiveWeight targets c) ∧
    ((∀ a ∈ abilities, drawCount bound (drawAbility abilities) (.ok (some a)) = a.weight + 10) ↔
      abilities.length = 1) := by
  intro bound
  refine ⟨exists_drawTarget hfit htargets, exists_drawAbility hfit' habilities, fun c hc => ?_, ?_⟩
  · have hcount := drawCount_drawBelow (w := exactWeight targets) targets c
    rw [count_eq_one_of_mem hnodup hc, one_mul] at hcount
    rw [(hfit.effectiveWeight_eq hc).1, hfit.drawBound_eq, Int.toNat_natCast, Nat.cast_inj,
      ← hcount]
    refine countP_congr fun draw hdraw => ?_
    rw [hfit.drawTarget_eq htargets, mod_eq_of_lt (mem_range.mp hdraw)]
    cases hdrawn : drawBelow (exactWeight targets) targets draw <;> simp [hdrawn]
  · have hexact : ∀ a, drawCount bound (drawAbility abilities) (.ok (some a)) =
        drawCount bound (fun draw => drawAtMost (fun a : Ability => a.weight + 10) abilities draw) (some a) :=
      fun a => countP_congr fun draw hdraw => by
        rw [hfit'.drawAbility_eq habilities, mod_eq_of_lt (mem_range.mp hdraw)]
        simp
    simp only [hexact]
    exact drawCount_drawAtMost_iff habilities fun a _ => succ_pos _

theorem one_channel_drawn_by_weight :
    let c : Channel := ⟨1, "sk", channelStatusEnabled, 3, "m", "default", 0, none, .zero⟩
    let a : Ability := ⟨"default", "m", 1, true, 0, 3, none⟩
    (drawCount (drawBound [c]).toNat (drawTarget [c]) (.ok (some c)) : Int) = effectiveWeight [c] c ∧
    drawCount 13 (drawAbility [a]) (.ok (some a)) = 13 := by
  intro c a
  obtain ⟨-, -, hmemory, hdatabase⟩ :=
    draws_by_weight_iff (show [c] ≠ [] by simp) (by simp) (by decide)
    (show [a] ≠ [] by simp) (by decide)
  exact ⟨hmemory c (by simp), hdatabase.mpr rfl a (by simp)⟩

/-- Two channels of weight 0: 11 of the 20 numbers select the first. With weights of `2 ^ 62` the
sum is negative in Go's `int`, and every draw panics. -/
theorem first_ability_drawn_once_more :
    let a (weight : Nat) : Ability := ⟨"default", "m", 1, true, 0, weight, none⟩
    let b (weight : Nat) : Ability := ⟨"default", "m", 2, true, 0, weight, none⟩
    drawCount 20 (drawAbility [a 0, b 0]) (.ok (some (a 0))) = 11 ∧
    drawCount 20 (drawAbility [a 0, b 0]) (.ok (some (b 0))) = 9 ∧
    drawAbility [a (2 ^ 62), b (2 ^ 62)] 0 = .error "invalid argument to Intn" := by
  decide +kernel

end NewApi.Channels
