import NewApi.Lib.Grouping
import NewApi.Lib.Text

/-!
# Public model names

Channels register models under internal names; clients see public ones. An administrator's alias
gives an internal name its public name, otherwise the public name is what is left of the internal
one without its channel prefix (`service/model_public_name.go`).

* `Registry.toPublicModelName`, `Registry.resolveInternalModelName` — the two directions.

Both kinds of name are looked up in one string space, internal names first. So a public name is
read back as the model it was made for unless some other enabled model is registered under it.

## Results

* `Registry.resolve_internal`, `Registry.resolve_shared`, `Registry.resolve_single` — what
  resolution returns for an internal name, for a public name of several models and of one.
-/

namespace NewApi.PublicNames

open NewApi.Text List

/-- A row of `model_public_aliases`. -/
structure ModelPublicAlias where
  internalName : String
  publicName : String
deriving Repr, DecidableEq

def normalizeModelChannelPrefix (text : String) : String :=
  let text := trimSpace text
  if text = "" then ""
  else if "-".toList.isSuffixOf text.toList then text else text ++ "-"

/-- `stripWithPrefixes`: the name without the first of the prefixes it starts with. -/
def stripWithPrefixes (modelName : String) (prefixes : List String) : String :=
  let trimmed := trimSpace modelName
  match prefixes.find? (hasPrefix trimmed) with
  | some start => trimSpace (String.ofList (trimmed.toList.drop start.length))
  | none => trimmed

/-- `modelPublicRegistry`. -/
structure Registry where
  internalSet : List String
  publicToInternals : List (String × List String)
  internalToPublic : List (String × String)
  collisions : List (String × List String)
  channelPrefixes : List String

/-- The prefixes of the enabled rows, in their order, the empty ones left out. -/
def channelPrefixesOf (prefixRows : List String) : List String :=
  (prefixRows.map normalizeModelChannelPrefix).filter fun start => decide (start ≠ "")

/-- `overrideByInternal`: a later row replaces an earlier one of the same internal name. -/
def overridesOf (aliases : List ModelPublicAlias) : List (String × String) :=
  aliases.foldl (fun overrides row =>
    let internal := trimSpace row.internalName
    let publicName := trimSpace row.publicName
    if internal = "" ∨ publicName = "" then overrides else setKey internal publicName overrides) []

/-- The public name the loop over the models gives `internal`. -/
def publicNameOf (overrides : List (String × String)) (prefixes : List String) (internal : String) :
    String :=
  let publicName := (findKey internal overrides).getD ""
  let publicName := if publicName = "" then stripWithPrefixes internal prefixes else publicName
  if publicName = "" then internal else publicName

/-- The names the loop over the models does not skip. -/
def internalNames (models : List String) : List String :=
  (models.map trimSpace).filter fun internal => decide (internal ≠ "")

/-- `RefreshModelPublicNameRegistry` over `GetEnabledModels`, `GetAllModelPublicAliases` and the
    texts of `GetEnabledModelChannelPrefixes`. -/
def refreshModelPublicNameRegistry (models : List String) (aliases : List ModelPublicAlias)
    (prefixRows : List String) : Registry :=
  let prefixes := channelPrefixesOf prefixRows
  let name := publicNameOf (overridesOf aliases) prefixes
  let internals := internalNames models
  let publicToInternals := internals.foldl (fun m internal => pushKey (name internal) internal m) []
  { internalSet := internals
    publicToInternals := publicToInternals
    internalToPublic := internals.foldl (fun m internal => setKey internal (name internal) m) []
    collisions := publicToInternals.filter fun entry => decide (1 < entry.2.length)
    channelPrefixes := prefixes }

def Registry.stripChannelRegistrationPrefix (registry : Registry) (modelName : String) : String :=
  stripWithPrefixes modelName registry.channelPrefixes

def Registry.toPublicModelName (registry : Registry) (internalName : String) : String :=
  let internalName := trimSpace internalName
  if internalName = "" then ""
  else
    match findKey internalName registry.internalToPublic with
    | some publicName =>
      if publicName = "" then registry.stripChannelRegistrationPrefix internalName else publicName
    | none => registry.stripChannelRegistrationPrefix internalName

/-- `ResolveInternalModelName`: the internal name and the public name kept for the client. -/
def Registry.resolveInternalModelName (registry : Registry) (publicOrInternal : String) :
    Except String (String × String) :=
  let name := trimSpace publicOrInternal
  if name = "" then .error "model is required"
  else if name ∈ registry.internalSet then
    let publicName := (findKey name registry.internalToPublic).getD ""
    .ok (name, if publicName = "" then registry.stripChannelRegistrationPrefix name else publicName)
  else
    match (findKey name registry.publicToInternals).getD [] with
    | [] => .error ("model " ++ name ++ " not found")
    | [internal] => .ok (internal, name)
    | _ => .error ("ambiguous public model name " ++ name)

/-! ## The names of the registry -/

theorem trimSpace_stripWithPrefixes (modelName : String) (prefixes : List String) :
    trimSpace (stripWithPrefixes modelName prefixes) = stripWithPrefixes modelName prefixes := by
  simp only [stripWithPrefixes]
  split <;> exact trimSpace_trimSpace _

variable {internal : String}

theorem trimSpace_of_override {aliases : List ModelPublicAlias} {publicName : String}
    (h : findKey internal (overridesOf aliases) = some publicName) :
    trimSpace publicName = publicName := by
  suffices hfold : ∀ (rows : List ModelPublicAlias) (overrides : List (String × String)),
      (∀ name, findKey internal overrides = some name → trimSpace name = name) →
      ∀ name, findKey internal (rows.foldl (fun overrides row =>
        let internal := trimSpace row.internalName
        let publicName := trimSpace row.publicName
        if internal = "" ∨ publicName = "" then overrides
        else setKey internal publicName overrides) overrides) = some name → trimSpace name = name from
    hfold aliases [] (fun name hname => by cases hname) publicName h
  intro rows
  induction rows with
  | nil => exact fun _ hall => hall
  | cons row rows ih =>
    intro overrides hall
    refine ih _ ?_
    intro name hname
    dsimp only at hname
    split at hname
    · exact hall name hname
    rw [findKey_setKey] at hname
    split at hname
    · cases hname
      exact trimSpace_trimSpace _
    · exact hall name hname

variable {models : List String}

theorem mem_internalNames (h : internal ∈ internalNames models) : internal ≠ "" ∧ trimSpace internal = internal := by
  obtain ⟨hmem, hne⟩ := mem_filter.mp h
  obtain ⟨name, -, rfl⟩ := mem_map.mp hmem
  exact ⟨of_decide_eq_true hne, trimSpace_trimSpace name⟩

theorem publicNameOf_spec (aliases : List ModelPublicAlias)
    (prefixes : List String) (h : internal ∈ internalNames models) :
    publicNameOf (overridesOf aliases) prefixes internal ≠ "" ∧
      trimSpace (publicNameOf (overridesOf aliases) prefixes internal) =
        publicNameOf (overridesOf aliases) prefixes internal := by
  have hsource : ∀ name : String, trimSpace name = name → (if name = "" then internal else name) ≠ "" ∧
        trimSpace (if name = "" then internal else name) = if name = "" then internal else name := by
    intro name hname
    split
    · exact mem_internalNames h
    · exact ⟨by assumption, hname⟩
  refine hsource _ ?_
  split
  · exact trimSpace_stripWithPrefixes internal prefixes
  rename_i hfound
  cases hlookup : findKey internal (overridesOf aliases) with
  | none => rw [hlookup] at hfound; exact absurd rfl hfound
  | some name => exact trimSpace_of_override hlookup

theorem findKey_foldl_setKey (value : String → String) (names : List String) (m : List (String × String)) (k : String) :
    findKey k (names.foldl (fun m name => setKey name (value name) m) m) =
      if k ∈ names then some (value k) else findKey k m := by
  induction names generalizing m with
  | nil => simp
  | cons name names ih =>
    rw [foldl_cons, ih, findKey_setKey]
    by_cases hk : k ∈ names
    · rw [if_pos hk, if_pos (mem_cons_of_mem _ hk)]
    by_cases hname : name = k
    · subst hname
      rw [if_neg hk, if_pos rfl, if_pos mem_cons_self]
    have hnot : k ∉ name :: names := by
      rw [mem_cons, not_or]
      exact ⟨fun h => hname h.symm, hk⟩
    rw [if_neg hk, if_neg hname, if_neg hnot]

section Built

variable (models : List String) (aliases : List ModelPublicAlias) (prefixRows : List String)

/-- The public name of a model in the registry built from these rows. -/
abbrev builtName : String → String :=
  publicNameOf (overridesOf aliases) (channelPrefixesOf prefixRows)

/-- The registry built from these rows. -/
abbrev built : Registry := refreshModelPublicNameRegistry models aliases prefixRows

/-- The enabled models with the public name `name`. -/
def sharers (name : String) : List String :=
  (internalNames models).filter fun internal => decide (builtName aliases prefixRows internal = name)

theorem built_publicToInternals : (built models aliases prefixRows).publicToInternals =
    groupKey (builtName aliases prefixRows) (internalNames models) := rfl

theorem internals_of_public (name : String) :
    (findKey name (built models aliases prefixRows).publicToInternals).getD [] =
      sharers models aliases prefixRows name := by
  rw [built_publicToInternals, groupKey, findKey_foldl_pushKey (builtName aliases prefixRows)
    (fun internal => internal), map_id']
  rfl

variable {internal name : String}

theorem toPublicModelName_of_mem (h : internal ∈ (built models aliases prefixRows).internalSet) :
    (built models aliases prefixRows).toPublicModelName internal = builtName aliases prefixRows internal := by
  obtain ⟨hne, htrim⟩ := mem_internalNames h
  obtain ⟨hpublic, -⟩ := publicNameOf_spec aliases (channelPrefixesOf prefixRows) h
  have hfind : findKey internal (built models aliases prefixRows).internalToPublic =
      some (builtName aliases prefixRows internal) := by
    have hfold := findKey_foldl_setKey (builtName aliases prefixRows) (internalNames models) [] internal
    exact hfold.trans (if_pos h)
  unfold Registry.toPublicModelName
  simp [htrim, hne, hfind, hpublic]

theorem mem_collisions_iff (name : String) :
    name ∈ (built models aliases prefixRows).collisions.map Prod.fst ↔
      1 < (sharers models aliases prefixRows name).length := by
  rw [← internals_of_public models aliases prefixRows name]
  have hnodup : ((built models aliases prefixRows).publicToInternals.map Prod.fst).Nodup :=
    nodup_groupKey (builtName aliases prefixRows) (internalNames models)
  constructor
  · intro hmem
    obtain ⟨⟨k, internals⟩, hentry, rfl⟩ := mem_map.mp hmem
    obtain ⟨hin, hlen⟩ := mem_filter.mp hentry
    rw [findKey_of_mem hnodup hin]
    exact of_decide_eq_true hlen
  intro hlen
  cases hfind : findKey name (built models aliases prefixRows).publicToInternals with
  | none => rw [hfind] at hlen; exact absurd hlen (by simp)
  | some internals =>
    rw [hfind] at hlen
    refine mem_map.mpr ⟨(name, internals), mem_filter.mpr ⟨mem_of_findKey hfind, ?_⟩, rfl⟩
    exact decide_eq_true hlen

variable {models aliases prefixRows}

theorem mem_sharers (h : internal ∈ (built models aliases prefixRows).internalSet) :
    internal ∈ sharers models aliases prefixRows
      ((built models aliases prefixRows).toPublicModelName internal) := by
  refine mem_filter.mpr ⟨h, decide_eq_true ?_⟩
  exact (toPublicModelName_of_mem models aliases prefixRows h).symm

/-! ## What a name resolves to -/

theorem Registry.resolve_internal (h : name ∈ (built models aliases prefixRows).internalSet) :
    (built models aliases prefixRows).resolveInternalModelName name =
      .ok (name, (built models aliases prefixRows).toPublicModelName name) := by
  obtain ⟨hne, htrim⟩ := mem_internalNames h
  simp only [resolveInternalModelName, toPublicModelName, htrim, hne, h, if_false, if_true]
  cases hfind : findKey name (built models aliases prefixRows).internalToPublic with
  | none => rfl
  | some publicName => rfl

section

variable (hinternal : internal ∈ (built models aliases prefixRows).internalSet)

include hinternal

theorem Registry.resolve_public
    (hpublic : (built models aliases prefixRows).toPublicModelName internal = name)
    (hname : name ∉ (built models aliases prefixRows).internalSet) :
    (built models aliases prefixRows).resolveInternalModelName name =
      match sharers models aliases prefixRows name with
      | [] => .error ("model " ++ name ++ " not found")
      | [internal] => .ok (internal, name)
      | _ => .error ("ambiguous public model name " ++ name) := by
  rw [toPublicModelName_of_mem models aliases prefixRows hinternal] at hpublic
  have hspec : name ≠ "" ∧ trimSpace name = name :=
    hpublic ▸ publicNameOf_spec aliases (channelPrefixesOf prefixRows) hinternal
  obtain ⟨hne, htrim⟩ := hspec
  rw [← internals_of_public models aliases prefixRows name]
  simp [resolveInternalModelName, htrim, hne, hname]

theorem Registry.resolve_single
    (hcollision : (built models aliases prefixRows).toPublicModelName internal ∉
      (built models aliases prefixRows).collisions.map Prod.fst)
    (hname : (built models aliases prefixRows).toPublicModelName internal ∉
      (built models aliases prefixRows).internalSet) :
    (built models aliases prefixRows).resolveInternalModelName
        ((built models aliases prefixRows).toPublicModelName internal) =
      .ok (internal, (built models aliases prefixRows).toPublicModelName internal) := by
  rw [resolve_public hinternal rfl hname]
  rw [mem_collisions_iff] at hcollision
  -- the model itself is among those with its public name, and there is room for no other
  have hself := mem_sharers hinternal
  revert hself hcollision
  cases sharers models aliases prefixRows ((built models aliases prefixRows).toPublicModelName internal) with
  | nil => intro _ hself; cases hself
  | cons first rest =>
    intro hlen hself
    cases rest with
    | nil =>
      rw [mem_singleton] at hself
      rw [hself]
    | cons second rest => exact absurd (by simp) hlen

end

theorem Registry.resolve_shared {first second : String}
    (hfirst : first ∈ (built models aliases prefixRows).internalSet)
    (hsecond : second ∈ (built models aliases prefixRows).internalSet) (hne : first ≠ second)
    (hpublic : (built models aliases prefixRows).toPublicModelName first = name)
    (hpublic' : (built models aliases prefixRows).toPublicModelName second = name)
    (hname : name ∉ (built models aliases prefixRows).internalSet) :
    (built models aliases prefixRows).resolveInternalModelName name =
      .error ("ambiguous public model name " ++ name) := by
  rw [resolve_public hfirst hpublic hname]
  have hin := hpublic ▸ mem_sharers hfirst
  have hin' := hpublic' ▸ mem_sharers hsecond
  revert hin hin'
  rcases sharers models aliases prefixRows name with _ | ⟨a, rest⟩
  · intro hin; cases hin
  intro hin hin'
  cases rest with
  | nil =>
    rw [mem_singleton] at hin hin'
    exact absurd (hin.trans hin'.symm) hne
  | cons b rest => rfl

end Built

/-- **The round trip of public names.** A public name resolves to its enabled model if it is neither
a reported collision nor the internal name of another one; a name that two enabled models share is
refused as ambiguous unless a model is registered under it, which it then names. -/
theorem public_names_resolve (models : List String) (aliases : List ModelPublicAlias)
    (prefixRows : List String) :
    let registry := refreshModelPublicNameRegistry models aliases prefixRows
    (∀ internal ∈ registry.internalSet, registry.toPublicModelName internal ∉ registry.collisions.map Prod.fst →
      (∀ other ∈ registry.internalSet, registry.toPublicModelName internal = other → other = internal) →
      registry.resolveInternalModelName (registry.toPublicModelName internal) =
        .ok (internal, registry.toPublicModelName internal)) ∧
    (∀ first ∈ registry.internalSet, ∀ second ∈ registry.internalSet, first ≠ second →
      registry.toPublicModelName first = registry.toPublicModelName second →
      (registry.toPublicModelName first ∉ registry.internalSet →
        registry.resolveInternalModelName (registry.toPublicModelName first) =
          .error ("ambiguous public model name " ++ registry.toPublicModelName first)) ∧
      (registry.toPublicModelName first ∈ registry.internalSet →
        registry.resolveInternalModelName (registry.toPublicModelName first) = .ok (registry.toPublicModelName first,
            registry.toPublicModelName (registry.toPublicModelName first)))) := by
  intro registry
  constructor
  · intro internal hinternal hcollision hother
    by_cases hname : registry.toPublicModelName internal ∈ registry.internalSet
    · -- the public name is the model's own internal name
      have hself := hother _ hname rfl
      rw [Registry.resolve_internal hname, hself, hself]
    · exact Registry.resolve_single hinternal hcollision hname
  · intro first hfirst second hsecond hne hshared
    exact ⟨fun hname => Registry.resolve_shared hfirst hsecond hne rfl hshared.symm hname,
      fun hname => Registry.resolve_internal hname⟩

/-- One public name is resolved; one that two models share is not. -/
theorem prefixed_names_resolved :
    let registry := refreshModelPublicNameRegistry ["ch-gpt-4", "ch-o1", "hk-o1"] [] ["ch", "hk"]
    registry.toPublicModelName "ch-gpt-4" = "gpt-4" ∧
    registry.resolveInternalModelName (registry.toPublicModelName "ch-gpt-4") =
      .ok ("ch-gpt-4", registry.toPublicModelName "ch-gpt-4") ∧
    registry.resolveInternalModelName (registry.toPublicModelName "ch-o1") =
      .error ("ambiguous public model name " ++ registry.toPublicModelName "ch-o1") := by
  intro registry
  obtain ⟨hsingle, hshared⟩ :=
    public_names_resolve ["ch-gpt-4", "ch-o1", "hk-o1"] [] ["ch", "hk"]
  refine ⟨by decide +kernel, hsingle "ch-gpt-4" ?_ ?_ ?_, (hshared "ch-o1" ?_ "hk-o1" ?_ ?_ ?_).1 ?_⟩
  all_goals decide +kernel

/-- The prefix row ch turns ch-gpt-4 into gpt-4, which is registered too. With gpt-4 renamed by an
alias no collision is reported and the public name is read as gpt-4; without it the two models share
gpt-4, and it is resolved. -/
theorem alias_shadowed_by_internal_name :
    (let registry := refreshModelPublicNameRegistry ["gpt-4", "ch-gpt-4"] [⟨"gpt-4", "gpt-4-hk"⟩] ["ch"];
      "ch-gpt-4" ∈ registry.internalSet ∧
      registry.toPublicModelName "ch-gpt-4" ∉ registry.collisions.map Prod.fst ∧
      registry.resolveInternalModelName (registry.toPublicModelName "ch-gpt-4") = .ok ("gpt-4", "gpt-4-hk")) ∧
    (let registry := refreshModelPublicNameRegistry ["gpt-4", "ch-gpt-4"] [] ["ch"];
      registry.collisions = [("gpt-4", ["gpt-4", "ch-gpt-4"])] ∧
      registry.resolveInternalModelName "gpt-4" = .ok ("gpt-4", "gpt-4")) := by
  decide +kernel

end NewApi.PublicNames
