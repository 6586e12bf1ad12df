import NewApi.Relay.Price

/-!
# The upstream model of an attempt (`relay/helper/model_mapped.go`)

Each channel may redirect model names to names of its own. The retry loop tries channel after
channel, and on each the redirects of that channel are followed from the request's model name.
-/

namespace NewApi.Relay

open NewApi.Channels List

/-! ## Redirects -/

/-- The model names of a `RelayInfo`. -/
structure ModelNames where
  originModelName : String
  upstreamModelName : String
  isModelMapped : Bool
deriving DecidableEq, Repr

/-- How the loop over the redirects ends. -/
inductive MappingEnd where
  | done (currentModel : String) (isModelMapped : Bool)
  /-- The origin model is redirected to itself: `ModelMappedHelper` returns at once. -/
  | originKept
  | cycle
deriving DecidableEq, Repr

/-- The loop of `ModelMappedHelper`. Every round visits a new key, so as many rounds as the map has
    entries, and one more, are enough: `mappingLoop_spec`. -/
def mappingLoop (originModelName : String) (modelMap : List (String × String)) :
    Nat → List String → String → Bool → MappingEnd
  | 0, _, currentModel, isModelMapped => .done currentModel isModelMapped
  | rounds + 1, visitedModels, currentModel, isModelMapped =>
    match findKey currentModel modelMap with
    | none => .done currentModel isModelMapped
    | some mappedModel =>
      if mappedModel = "" then .done currentModel isModelMapped
      else if mappedModel ∈ visitedModels then
        if mappedModel = currentModel then
          if currentModel = originModelName then .originKept else .done currentModel true
        else .cycle
      else mappingLoop originModelName modelMap rounds (mappedModel :: visitedModels) mappedModel true

/-- The relay modes the handlers of this module serve. -/
inductive RelayMode where
  | chatCompletions
  | responses
  | responsesCompact
  | gemini
  /-- `RelayModeVideoSubmit` and `RelayModeSunoSubmit`. -/
  | taskSubmit
deriving DecidableEq, Repr

/-- `mappingModelName`: where the redirects are followed from. -/
def mappingModelName (mode : RelayMode) (originModelName : String) : String :=
  if mode = .responsesCompact ∧ hasCompactSuffix originModelName = true then
    String.ofList (originModelName.toList.take (originModelName.length - compactModelSuffix.length))
  else originModelName

/-- The part of `ModelMappedHelper` after the redirects. -/
def afterMapping (mode : RelayMode) (names : ModelNames) : ModelNames :=
  if mode = .responsesCompact then
    let finalUpstreamModelName :=
      if names.isModelMapped ∧ names.upstreamModelName ≠ "" then names.upstreamModelName
      else mappingModelName mode names.originModelName
    { names with
      upstreamModelName := finalUpstreamModelName
      originModelName := withCompactModelSuffix finalUpstreamModelName }
  else names

/-- `ModelMappedHelper`. The channel's mapping is the object its text parses to, `none` when it does
    not parse; a missing text is the empty object. -/
def modelMappedHelper (mode : RelayMode) (modelMapping : Option (List (String × String)))
    (names : ModelNames) : Except String ModelNames :=
  match modelMapping with
  | none => .error "unmarshal_model_mapping_failed"
  | some modelMap =>
    let start := mappingModelName mode names.originModelName
    match mappingLoop names.originModelName modelMap (modelMap.length + 1) [start] start names.isModelMapped with
    | .cycle => .error "model_mapping_contains_cycle"
    | .originKept => .ok { names with isModelMapped := false }
    | .done currentModel isModelMapped =>
      .ok (afterMapping mode { names with
        isModelMapped := isModelMapped
        upstreamModelName := if isModelMapped then currentModel else names.upstreamModelName })

/-! ## The end of the chain -/

/-- One redirect of the map; an empty name is no redirect. -/
def Redirect (modelMap : List (String × String)) (a b : String) : Prop :=
  findKey a modelMap = some b ∧ b ≠ "" ∧ b ≠ a

/-- Following the redirects from `a` ends at `b`. -/
def Redirected (modelMap : List (String × String)) (a b : String) : Prop :=
  Relation.ReflTransGen (Redirect modelMap) a b ∧ ∀ c, ¬ Redirect modelMap b c

open Relation

section Chain

variable {modelMap : List (String × String)} {a b c : String}

theorem Redirect.unique : Relator.RightUnique (Redirect modelMap) := by
  intro a b c hb hc
  exact Option.some.inj (hb.1.symm.trans hc.1)

theorem Redirected.last (h : Redirected modelMap a b) (hbc : ReflTransGen (Redirect modelMap) b c) :
    b = c := by
  rcases hbc.cases_head with heq | ⟨d, hstep, _⟩
  · exact heq
  · exact absurd hstep (h.2 d)

theorem Redirected.unique (hb : Redirected modelMap a b) (hc : Redirected modelMap a c) :
    b = c := by
  rcases ReflTransGen.total_of_right_unique Redirect.unique hb.1 hc.1 with h | h
  · exact hb.last h
  · exact (hc.last h).symm

/-- Following the redirects from `a` runs into a cycle; a redirect leads to another name, so the
    cycle has two names or more. -/
def Cyclic (modelMap : List (String × String)) (a : String) : Prop :=
  ∃ c, ReflTransGen (Redirect modelMap) a c ∧ TransGen (Redirect modelMap) c c

theorem Redirected.not_cyclic (hb : Redirected modelMap a b) : ¬ Cyclic modelMap a := by
  rintro ⟨c, hac, hcycle⟩
  -- from a name of the cycle on, every name is on it
  have hround {d : String} (hcd : ReflTransGen (Redirect modelMap) c d) : TransGen (Redirect modelMap) d d := by
    induction hcd with
    | refl => exact hcycle
    | tail _ hstep ih =>
      obtain ⟨e, hfirst, hback⟩ := TransGen.head'_iff.mp ih
      cases Redirect.unique hstep hfirst
      exact .tail' hback hstep
  have hcb : ReflTransGen (Redirect modelMap) c b := by
    rcases ReflTransGen.total_of_right_unique Redirect.unique hb.1 hac with h | h
    · rw [hb.last h]
    · exact h
  obtain ⟨e, hstep, _⟩ := TransGen.head'_iff.mp (hround hcb)
  exact hb.2 e hstep

end Chain

section Loop

variable {originModelName : String} {modelMap : List (String × String)}

/-- What is true of the visited names: no name twice, the current one first, and all the others are
keys. -/
structure Visited (modelMap : List (String × String)) (rounds : Nat) (visitedModels : List String)
    (currentModel : String) : Prop where
  nodup : visitedModels.Nodup
  head : visitedModels.head? = some currentModel
  keys : ∀ name ∈ visitedModels.tail, name ∈ modelMap.map Prod.fst
  rounds : rounds + visitedModels.length = modelMap.length + 2

theorem Visited.init (start : String) : Visited modelMap (modelMap.length + 1) [start] start where
  nodup := nodup_singleton start
  head := rfl
  keys := by simp
  rounds := by simp

variable {visitedModels : List String} {currentModel : String}

theorem Visited.rounds_pos (h : Visited modelMap 0 visitedModels currentModel) : False := by
  have htail : visitedModels.tail.Nodup := h.nodup.tail
  have hlen : visitedModels.tail.length ≤ (modelMap.map Prod.fst).length :=
    (subperm_of_subset htail h.keys).length_le
  have hsum := h.rounds
  rw [length_tail, length_map] at hlen
  omega

variable {rounds : Nat}

theorem Visited.next {mappedModel : String}
    (h : Visited modelMap (rounds + 1) visitedModels currentModel)
    (hkey : findKey currentModel modelMap = some mappedModel) (hnew : mappedModel ∉ visitedModels) :
    Visited modelMap rounds (mappedModel :: visitedModels) mappedModel where
  nodup := nodup_cons.mpr ⟨hnew, h.nodup⟩
  head := rfl
  keys := by
    intro name hname
    have hcons := head?_eq_some_iff.mp h.head
    obtain ⟨tail, htail⟩ := hcons
    rw [tail_cons, htail] at hname
    rcases mem_cons.mp hname with rfl | hold
    · exact mem_map_of_mem (mem_of_findKey hkey)
    refine h.keys name ?_
    rw [htail]
    exact hold
  rounds := by
    have hsum := h.rounds
    simp only [length_cons]
    omega

theorem mappingLoop_rounds {isModelMapped : Bool} (extra : Nat)
    (hvisited : Visited modelMap rounds visitedModels currentModel) :
    mappingLoop originModelName modelMap (rounds + extra) visitedModels currentModel isModelMapped =
      mappingLoop originModelName modelMap rounds visitedModels currentModel isModelMapped := by
  induction rounds generalizing visitedModels currentModel isModelMapped with
  | zero => exact hvisited.rounds_pos.elim
  | succ rounds ih =>
    rw [Nat.add_right_comm, mappingLoop, mappingLoop]
    cases hkey : findKey currentModel modelMap with
    | none => rfl
    | some mappedModel =>
      by_cases hseen : mappedModel ∈ visitedModels
      · simp [hseen]
      · simp [ih (hvisited.next hkey hseen)]

/-- What an end of the loop says about the chain from `start`. -/
def MappingEnd.Ends (originModelName : String) (modelMap : List (String × String))
    (start : String) :
    MappingEnd → Prop
  | .done last mapped => Redirected modelMap start last ∧
      (if mapped then last ≠ "" ∧ (start = originModelName → last ≠ start) else last = start)
  | .originKept => Redirected modelMap start originModelName
  | .cycle => Cyclic modelMap start

theorem mappingLoop_spec {start : String} {isModelMapped : Bool}
    (hvisited : Visited modelMap rounds visitedModels currentModel)
    (hchain : ∀ name ∈ visitedModels, ReflTransGen (Redirect modelMap) start name ∧
      ReflTransGen (Redirect modelMap) name currentModel) (hstart : start ∈ visitedModels)
    (hmapped : if isModelMapped then currentModel ≠ "" ∧ (start = originModelName → currentModel ≠ start)
      else currentModel = start) :
    (mappingLoop originModelName modelMap rounds visitedModels currentModel isModelMapped).Ends
      originModelName modelMap start := by
  induction rounds generalizing visitedModels currentModel isModelMapped with
  | zero => exact hvisited.rounds_pos.elim
  | succ rounds ih =>
    have hhere := (hchain start hstart).2
    unfold mappingLoop
    rcases hkey : findKey currentModel modelMap with _ | mappedModel
    · refine ⟨⟨hhere, ?_⟩, hmapped⟩
      intro c hc
      rw [Redirect, hkey] at hc
      cases hc.1
    -- a redirect to the empty name or to the name itself ends the chain
    have hend : mappedModel = "" ∨ mappedModel = currentModel → Redirected modelMap start currentModel := by
      refine fun hstop => ⟨hhere, ?_⟩
      rintro c ⟨hc, hne, hself⟩
      rw [hkey] at hc
      cases hc
      rcases hstop with rfl | rfl
      · exact hne rfl
      · exact hself rfl
    by_cases hempty : mappedModel = ""
    · simp only [hempty, if_true]
      exact ⟨hend (.inl hempty), hmapped⟩
    simp only [hempty, if_false]
    by_cases hseen : mappedModel ∈ visitedModels
    · simp only [hseen, if_true]
      by_cases hself : mappedModel = currentModel
      · simp only [hself, if_true]
        by_cases horigin : currentModel = originModelName
        · simp only [horigin, if_true]
          rw [← horigin]
          exact hend (.inr hself)
        simp only [horigin, if_false]
        refine ⟨hend (.inr hself), hself ▸ hempty, ?_⟩
        rintro rfl
        exact horigin
      · simp only [hself, if_false]
        -- a name visited before leads to the current one, and the current one back to it
        obtain ⟨hreach, hback⟩ := hchain mappedModel hseen
        exact ⟨mappedModel, hreach, .tail' hback ⟨hkey, hempty, hself⟩⟩
    · simp only [hseen, if_false]
      have hstep : Redirect modelMap currentModel mappedModel := by
        refine ⟨hkey, hempty, ?_⟩
        intro heq
        obtain ⟨tail, htail⟩ := head?_eq_some_iff.mp hvisited.head
        rw [heq, htail] at hseen
        exact hseen mem_cons_self
      refine ih (hvisited.next hkey hseen) ?_ (mem_cons_of_mem _ hstart) ⟨hempty, ?_⟩
      · intro name hname
        rcases mem_cons.mp hname with rfl | hold
        · exact ⟨hhere.tail hstep, .refl⟩
        · exact ⟨(hchain name hold).1, (hchain name hold).2.tail hstep⟩
      · rintro - rfl
        exact hseen hstart

theorem mappingLoop_start (start : String) :
    (mappingLoop originModelName modelMap (modelMap.length + 1) [start] start false).Ends
      originModelName modelMap start := by
  refine mappingLoop_spec (Visited.init start) ?_ (mem_singleton_self start) rfl
  intro name hname
  cases mem_singleton.mp hname
  exact ⟨.refl, .refl⟩

end Loop

/-- The names an attempt starts with: `SetupContextForSelectedChannel` puts the origin model into
    the context and `InitChannelMeta` takes it from there. -/
def initChannelMeta (originModelName : String) : ModelNames :=
  ⟨originModelName, originModelName, false⟩

attribute [local simp] afterMapping withCompactModelSuffix

/-- The name used is the end of the channel's chain, and in a compaction request it becomes the
    request's model. -/
theorem modelMappedHelper_spec {mode : RelayMode} {modelMap : List (String × String)}
    {origin : String} {names : ModelNames}
    (hsuffix : mode = .responsesCompact → hasCompactSuffix origin = true)
    (h : modelMappedHelper mode (some modelMap) (initChannelMeta origin) = .ok names) :
    Redirected modelMap (mappingModelName mode origin) names.upstreamModelName ∧
    names.originModelName =
      if mode = .responsesCompact then withCompactModelSuffix names.upstreamModelName else origin := by
  have hspec := @mappingLoop_start origin modelMap (mappingModelName mode origin)
  simp only [modelMappedHelper, initChannelMeta] at h
  cases hloop : mappingLoop origin modelMap (modelMap.length + 1) [mappingModelName mode origin]
      (mappingModelName mode origin) false with
  | cycle =>
    rw [hloop] at h
    cases h
  | originKept =>
    rw [hloop] at h hspec
    cases h
    refine ⟨hspec, ?_⟩
    by_cases hmode : mode = .responsesCompact
    · simp [hsuffix hmode]
    · simp [hmode]
  | done last mapped =>
    rw [hloop] at h hspec
    obtain ⟨hend, hlast⟩ := hspec
    cases h
    by_cases hmode : mode = .responsesCompact
    · cases mapped with
      | true =>
        have hne : last ≠ "" := hlast.1
        simpa [hmode, hne] using hend
      | false =>
        have heq : last = mappingModelName mode origin := hlast
        subst heq
        simpa [hmode] using hend
    · cases mapped with
      | true => simpa [hmode] using hend
      | false =>
        have heq : last = mappingModelName mode origin := hlast
        subst heq
        have hstart : mappingModelName mode origin = origin := by simp [mappingModelName, hmode]
        rw [hstart] at hend ⊢
        simpa [hmode] using hend

/-- Outside compaction the loop ends, and it ends in an error exactly when the redirects run into a
cycle. Otherwise the name used is the last of the chain, and the model counts as mapped exactly when
that is another name than the requested one. -/
theorem modelMappedHelper_chain (mode : RelayMode) (modelMap : List (String × String))
    (origin : String) (hmode : mode ≠ .responsesCompact) :
    (∀ extra, mappingLoop origin modelMap (modelMap.length + 1 + extra) [origin] origin false =
      mappingLoop origin modelMap (modelMap.length + 1) [origin] origin false) ∧
    (modelMappedHelper mode (some modelMap) (initChannelMeta origin) = .error "model_mapping_contains_cycle" ↔
      Cyclic modelMap origin) ∧
    (¬ Cyclic modelMap origin → ∃ names,
      modelMappedHelper mode (some modelMap) (initChannelMeta origin) = .ok names ∧
      Redirected modelMap origin names.upstreamModelName ∧
      (names.isModelMapped = true ↔ names.upstreamModelName ≠ origin)) := by
  refine ⟨fun extra => mappingLoop_rounds extra (Visited.init origin), ?_⟩
  have hspec := @mappingLoop_start origin modelMap origin
  simp only [modelMappedHelper, initChannelMeta, mappingModelName, afterMapping, hmode, false_and,
    if_false]
  cases hloop : mappingLoop origin modelMap (modelMap.length + 1) [origin] origin false with
  | cycle =>
    rw [hloop] at hspec
    exact ⟨iff_of_true rfl hspec, (absurd hspec ·)⟩
  | originKept =>
    rw [hloop] at hspec
    exact ⟨iff_of_false (by simp) hspec.not_cyclic, fun _ => ⟨_, rfl, hspec, by simp⟩⟩
  | done last mapped =>
    rw [hloop] at hspec
    obtain ⟨hend, hlast⟩ := hspec
    refine ⟨iff_of_false (by simp) hend.not_cyclic, fun _ => ⟨_, rfl, ?_⟩⟩
    cases mapped with
    | true => exact ⟨hend, by simpa using hlast.2⟩
    | false =>
      have heq : last = origin := hlast
      subst heq
      exact ⟨hend, by simp⟩

/-- A chain of two redirects is followed to its end. -/
theorem modelMappedHelper_chain_gemini : RelayMode.gemini ≠ .responsesCompact ∧
    (modelMappedHelper .gemini (some [("a", "b"), ("b", "c")]) (initChannelMeta "a") =
      .error "model_mapping_contains_cycle" ↔ Cyclic [("a", "b"), ("b", "c")] "a") :=
  ⟨by decide, (modelMappedHelper_chain .gemini [("a", "b"), ("b", "c")] "a" (by decide)).2.1⟩

/-! ## Attempts of a retry loop -/

/-- A request as the mapping sees it. -/
structure MappedRequest where
  mode : RelayMode
  /-- The model named by the client. -/
  model : String
  /-- `GenerationConfig.ThinkingConfig.ThinkingBudget`, when there is one. -/
  thinkingBudget : Option Int
deriving DecidableEq, Repr

/-- The model `getModelRequest` takes down: compaction requests get the suffix. -/
def MappedRequest.originModel (r : MappedRequest) : String :=
  if r.mode = .responsesCompact then withCompactModelSuffix r.model else r.model

/-- The name the client asked for, as channels list it. -/
def MappedRequest.askedModel (r : MappedRequest) : String := mappingModelName r.mode r.originModel

def MappedRequest.isNoThinkingRequest (r : MappedRequest) : Bool :=
  decide (r.thinkingBudget = some 0)

/-- The settings an attempt reads. -/
structure MappingSetting where
  price : PriceSetting
  thinkingAdapterEnabled : Bool

/-- `GeminiHelper` bills a request without thinking under a name of its own if that name has a
price. -/
def usesNoThinkingModel (s : MappingSetting) (r : MappedRequest) (originModelName : String) :
    Bool :=
  s.thinkingAdapterEnabled && r.isNoThinkingRequest && !Text.contains originModelName "-nothinking" &&
    s.price.hasModelBillingConfig (originModelName ++ "-nothinking")

/-- The renaming of `GeminiHelper`: both names are replaced. -/
def noThinkingModel (s : MappingSetting) (r : MappedRequest) (names : ModelNames) : ModelNames :=
  if usesNoThinkingModel s r names.originModelName then
    { names with
      originModelName := names.originModelName ++ "-nothinking"
      upstreamModelName := names.originModelName ++ "-nothinking" }
  else names

/-- The names of an attempt on a channel with this mapping, for a request whose origin model is
    `originModelName` by then. -/
def attemptNames (s : MappingSetting) (r : MappedRequest) (originModelName : String)
    (modelMapping : Option (List (String × String))) : Except String ModelNames :=
  match modelMappedHelper r.mode modelMapping (initChannelMeta originModelName) with
  | .error err => .error err
  | .ok names => .ok (if r.mode = .gemini then noThinkingModel s r names else names)

/-- The upstream model of each attempt. A mapping error is not retried. -/
def upstreamNames (s : MappingSetting) (r : MappedRequest) :
    String → List (Option (List (String × String))) → List String
  | _, [] => []
  | originModelName, modelMapping :: rest =>
    match attemptNames s r originModelName modelMapping with
    | .error _ => []
    | .ok names => names.upstreamModelName :: upstreamNames s r names.originModelName rest

/-- The channel has no redirect for the model the client asked for. -/
def Unredirected (r : MappedRequest) (modelMap : List (String × String)) : Prop :=
  ∀ name, ¬ Redirect modelMap r.askedModel name

/-- Whether the request's model can change while it is relayed: a compaction request by redirects or
by a doubled suffix, a Gemini request by its thinking budget. -/
structure ModelKept (s : MappingSetting) (r : MappedRequest)
    (tried : List (Option (List (String × String)))) : Prop where
  suffixOnce : r.mode = .responsesCompact → hasCompactSuffix r.askedModel = false
  unredirected : r.mode = .responsesCompact → ∀ modelMap, some modelMap ∈ tried → Unredirected r modelMap
  thinking : r.mode = .gemini → usesNoThinkingModel s r r.originModel = false

section Attempts

variable {s : MappingSetting} {r : MappedRequest}

theorem hasCompactSuffix_withCompactModelSuffix (name : String) :
    hasCompactSuffix (withCompactModelSuffix name) = true := by
  unfold withCompactModelSuffix
  split
  · assumption
  · simp [hasCompactSuffix]

theorem hasCompactSuffix_originModel (h : r.mode = .responsesCompact) :
    hasCompactSuffix r.originModel = true := by
  rw [MappedRequest.originModel, if_pos h]
  exact hasCompactSuffix_withCompactModelSuffix r.model

theorem originModel_eq (h : r.mode = .responsesCompact) :
    r.originModel = r.askedModel ++ compactModelSuffix := by
  have hsuffix := hasCompactSuffix_originModel h
  have hlist : compactModelSuffix.toList <:+ r.originModel.toList :=
    isSuffixOf_iff_suffix.mp hsuffix
  obtain ⟨base, hbase⟩ := hlist
  unfold MappedRequest.askedModel mappingModelName
  rw [if_pos ⟨h, hsuffix⟩, ← String.toList_inj, String.toList_append, String.toList_ofList,
    ← String.length_toList, ← String.length_toList, ← hbase]
  simp

/-- An attempt uses its own channel's redirects from the name asked for, and keeps the request's
model unless that channel redirects it. -/
theorem attemptNames_spec {modelMapping : Option (List (String × String))} {names : ModelNames}
    (hkept : ModelKept s r []) (h : attemptNames s r r.originModel modelMapping = .ok names) :
    ∃ modelMap, modelMapping = some modelMap ∧
      Redirected modelMap r.askedModel names.upstreamModelName ∧
      (ModelKept s r [modelMapping] → names.originModelName = r.originModel) := by
  rcases modelMapping with _ | modelMap
  · cases h
  unfold attemptNames at h
  rcases hmap : modelMappedHelper r.mode (some modelMap) (initChannelMeta r.originModel) with err | mapped
  · rw [hmap] at h
    cases h
  rw [hmap] at h
  obtain ⟨hend, horigin⟩ := modelMappedHelper_spec hasCompactSuffix_originModel hmap
  refine ⟨modelMap, rfl, ?_⟩
  cases hmode : r.mode with
  | chatCompletions | responses | taskSubmit =>
    simp only [hmode] at h horigin
    cases h
    exact ⟨hend, fun _ => by simpa using horigin⟩
  | responsesCompact =>
    simp only [hmode] at h horigin
    cases h
    refine ⟨hend, ?_⟩
    intro hkept'
    -- without a redirect the chain ends where it starts
    have hnone := hkept'.unredirected hmode modelMap (mem_singleton_self _)
    have hsame : mapped.upstreamModelName = r.askedModel :=
      hend.unique ⟨ReflTransGen.refl, hnone⟩
    have honce := hkept'.suffixOnce hmode
    rw [originModel_eq hmode]
    simpa [hsame, honce] using horigin
  | gemini =>
    simp only [hmode] at h horigin
    have hthinking := hkept.thinking hmode
    have hnames : mapped.originModelName = r.originModel := by simpa using horigin
    have hsame : noThinkingModel s r mapped = mapped := by
      rw [noThinkingModel, hnames, hthinking]
      rfl
    simp only [hsame, if_true] at h
    cases h
    exact ⟨hend, fun _ => hnames⟩

theorem ModelKept.mono {tried tried' : List (Option (List (String × String)))}
    (h : ModelKept s r tried) (hsub : ∀ m ∈ tried', m ∈ tried) : ModelKept s r tried' where
  suffixOnce := h.suffixOnce
  unredirected := fun hmode modelMap hmem => h.unredirected hmode modelMap (hsub _ hmem)
  thinking := h.thinking

/-- The name used on an attempt is what its channel makes of the model asked for, if the channels
before kept the request's model. -/
theorem own_mapping_of_kept_model (s : MappingSetting) (r : MappedRequest)
    (channels : List (Option (List (String × String)))) (i : Nat) (name : String)
    (hkept : ModelKept s r (channels.take i))
    (hname : (upstreamNames s r r.originModel channels)[i]? = some name) :
    ∃ modelMap, channels[i]? = some (some modelMap) ∧ Redirected modelMap r.askedModel name := by
  -- by induction on the attempts; the origin model is the same at the start of each
  induction channels generalizing i with
  | nil => simp [upstreamNames] at hname
  | cons modelMapping rest ih =>
    rcases hattempt : attemptNames s r r.originModel modelMapping with err | names
    · simp [upstreamNames, hattempt] at hname
    obtain ⟨modelMap, rfl, hend, hsame⟩ := attemptNames_spec (hkept.mono (by simp)) hattempt
    rcases i with _ | i
    · simp only [upstreamNames, hattempt, getElem?_cons_zero, Option.some.injEq] at hname
      exact ⟨modelMap, rfl, hname ▸ hend⟩
    have horigin : names.originModelName = r.originModel := hsame (hkept.mono (by simp))
    simp only [upstreamNames, hattempt, getElem?_cons_succ, horigin] at hname
    refine ih i (hkept.mono ?_) hname
    intro m hm
    exact mem_cons_of_mem _ hm

end Attempts

/-- A compaction request whose second channel has a redirect of its own. -/
theorem compaction_second_channel_redirects :
    (upstreamNames ⟨.unset, false⟩ ⟨.responsesCompact, "gpt-5", none⟩ "gpt-5-openai-compact"
      [some [], some [("gpt-5", "gpt-5-mini")]])[1]? = some "gpt-5-mini" ∧
    ∃ modelMap, [some [], some [("gpt-5", "gpt-5-mini")]][1]? = some (some modelMap) ∧
      Redirected modelMap "gpt-5" "gpt-5-mini" := by
  have hname : (upstreamNames ⟨.unset, false⟩ ⟨.responsesCompact, "gpt-5", none⟩ "gpt-5-openai-compact"
      [some [], some [("gpt-5", "gpt-5-mini")]])[1]? = some "gpt-5-mini" := by decide +kernel
  refine ⟨hname, ?_⟩
  refine own_mapping_of_kept_model ⟨.unset, false⟩ ⟨.responsesCompact, "gpt-5", none⟩ _ 1 _ ⟨?_, ?_, ?_⟩ hname
  · intro _
    decide +kernel
  · intro _ modelMap hmem name hredirect
    rw [take_succ_cons, take_zero, mem_singleton, Option.some.injEq] at hmem
    subst hmem
    cases hredirect.1
  · intro h
    cases h

/-- Settings with a price for the variant without thinking. -/
def noThinkingPriced : MappingSetting where
  price := { PriceSetting.unset with
    modelRatioMap := fun name => if name = "gemini-2.5-flash-nothinking" then some 1 else none }
  thinkingAdapterEnabled := true

/-- The second channel of a compaction request has no redirect and is asked for the model the first
redirected to. With a zero thinking budget the redirect is lost. -/
theorem compaction_retry_maps_previous_result :
    (upstreamNames ⟨.unset, false⟩ ⟨.responsesCompact, "gpt-5", none⟩ "gpt-5-openai-compact"
        [some [("gpt-5", "gpt-5-mini")], some []] = ["gpt-5-mini", "gpt-5-mini"] ∧
      ¬ Redirected [] "gpt-5" "gpt-5-mini") ∧
    (upstreamNames noThinkingPriced ⟨.gemini, "gemini-2.5-flash", some 0⟩ "gemini-2.5-flash"
        [some [("gemini-2.5-flash", "gemini-flash-latest")]] = ["gemini-2.5-flash-nothinking"] ∧
      Redirected [("gemini-2.5-flash", "gemini-flash-latest")] "gemini-2.5-flash" "gemini-flash-latest") := by
  refine ⟨⟨by decide +kernel, ?_⟩, by decide +kernel, ?_⟩
  · intro h
    have hsame : Redirected [] "gpt-5" "gpt-5" := by
      refine ⟨ReflTransGen.refl, ?_⟩
      intro name hname
      cases hname.1
    exact absurd (h.unique hsame) (by decide)
  · refine ⟨ReflTransGen.single ⟨by decide, by decide, by decide⟩, ?_⟩
    intro name hname
    cases hname.1

end NewApi.Relay
