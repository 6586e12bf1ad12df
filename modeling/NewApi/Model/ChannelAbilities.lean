import NewApi.Model.Channel
import NewApi.Lib.Run

/-!
# The abilities table follows the channels

`Db.Consistent` says what the table is for: its rows are those that the channels list, with the
channel's own status, priority, weight and tag. Each operation keeps that exactly under a condition
on the request and on the database before it (`Db.Keeps`), and the condition names five defects:

* the key `group|model` of `abilitySet` takes two pairs for one when names contain the bar;
* `Update` of a channel that is gone writes abilities for it;
* `EditChannelByTag` does not write a weight of zero to the abilities;
* `BatchSetChannelTag` rebuilds the abilities from rows read before the new tag is committed;
* `DeleteChannelByStatus` and `DeleteDisabledChannel` leave the abilities behind.

`abilities_follow_channels_iff` — the table is right after every operation of a run exactly when
every operation meets its condition.
-/

namespace NewApi.Channels

open List Table Channel

/-! ## What a channel lists -/

variable {c c' : Channel} {a : Ability}

namespace Channel

/-- The rows the channel stands for: one per group and model. -/
def listed (c : Channel) : List Ability := c.pairs.map c.abilityFor

/-- No two pairs of the channel share a key of `abilitySet`. -/
def KeysDistinct (c : Channel) : Prop :=
  ∀ p ∈ c.pairs, ∀ q ∈ c.pairs, abilityKey p = abilityKey q → p = q

instance (c : Channel) : Decidable c.KeysDistinct :=
  inferInstanceAs (Decidable (∀ p ∈ c.pairs, ∀ q ∈ c.pairs, abilityKey p = abilityKey q → p = q))

theorem pairs_ne_nil (c : Channel) : c.pairs ≠ [] := by
  obtain ⟨m, ms, hm⟩ := exists_cons_of_ne_nil (Text.split_ne_nil c.models ',')
  obtain ⟨g, gs, hg⟩ := exists_cons_of_ne_nil (Text.split_ne_nil c.group ',')
  simp [pairs, modelNames, groups, hm, hg]

theorem abilityFor_inj {p q : String × String} (h : c.abilityFor p = c'.abilityFor q) :
    p = q ∧ c.id = c'.id := by
  injection h with hgroup hmodel hid
  exact ⟨Prod.ext hgroup hmodel, hid⟩

theorem channelId_of_mem_listed (h : a ∈ c.listed) : a.channelId = c.id := by
  obtain ⟨p, _, rfl⟩ := mem_map.mp h
  rfl

end Channel

/-! ## The product loop -/

section DistinctBy

variable {α κ : Type} [DecidableEq κ] {key : α → κ}

theorem mem_of_mem_distinctBy {a : α} {as : List α} :
    ∀ {seen : List κ}, a ∈ distinctBy key seen as → a ∈ as ∧ key a ∉ seen := by
  induction as with
  | nil => intro seen h; cases h
  | cons b as ih =>
    intro seen h
    simp only [distinctBy] at h
    split at h
    · exact ⟨mem_cons_of_mem _ (ih h).1, (ih h).2⟩
    rename_i hb
    rcases mem_cons.mp h with rfl | h
    · exact ⟨mem_cons_self, hb⟩
    · exact ⟨mem_cons_of_mem _ (ih h).1, fun hs => (ih h).2 (mem_cons_of_mem _ hs)⟩

theorem exists_mem_distinctBy (key : α → κ) {a : α} {as : List α} (ha : a ∈ as) :
    ∀ seen : List κ, key a ∉ seen → ∃ b ∈ distinctBy key seen as, key b = key a := by
  induction as with
  | nil => cases ha
  | cons c as ih =>
    intro seen hseen
    simp only [distinctBy]
    rcases mem_cons.mp ha with rfl | hmem
    · rw [if_neg hseen]
      exact ⟨a, mem_cons_self, rfl⟩
    split
    · exact ih hmem seen hseen
    by_cases hk : key a = key c
    · exact ⟨c, mem_cons_self, hk.symm⟩
    · obtain ⟨b, hb, hkey⟩ := ih hmem (key c :: seen) (by simp [hk, hseen])
      exact ⟨b, mem_cons_of_mem _ hb, hkey⟩

theorem nodup_distinctBy (as : List α) :
    ∀ seen : List κ, ((distinctBy key seen as).map key).Nodup := by
  induction as with
  | nil => intro seen; exact nodup_nil
  | cons a as ih =>
    intro seen
    simp only [distinctBy]
    split
    · exact ih seen
    rw [map_cons, nodup_cons]
    refine ⟨fun hmem => ?_, ih _⟩
    obtain ⟨b, hb, hkey⟩ := mem_map.mp hmem
    exact (mem_of_mem_distinctBy hb).2 (hkey ▸ mem_cons_self)

end DistinctBy

namespace Channel

theorem mem_listed_of_mem_built (h : a ∈ c.built) : a ∈ c.listed := by
  obtain ⟨p, hp, rfl⟩ := mem_map.mp h
  exact mem_map_of_mem (mem_of_mem_distinctBy hp).1

theorem built_ne_nil (c : Channel) : ∃ a, a ∈ c.built := by
  obtain ⟨p, hp⟩ := exists_mem_of_ne_nil _ c.pairs_ne_nil
  obtain ⟨q, hq, _⟩ := exists_mem_distinctBy abilityKey hp [] not_mem_nil
  exact ⟨c.abilityFor q, mem_map_of_mem hq⟩

/-- The loop builds every listed row exactly when the keys of its set tell the pairs apart. -/
theorem built_eq_listed_iff (c : Channel) : (∀ a ∈ c.listed, a ∈ c.built) ↔ c.KeysDistinct := by
  constructor
  · intro hall
    have hkept : ∀ p ∈ c.pairs, p ∈ distinctBy abilityKey [] c.pairs := by
      intro p hp
      obtain ⟨q, hq, heq⟩ := mem_map.mp (hall _ (mem_map_of_mem hp))
      exact (abilityFor_inj heq).1 ▸ hq
    intro p hp q hq hkey
    exact inj_on_of_nodup_map (nodup_distinctBy c.pairs []) (hkept p hp) (hkept q hq) hkey
  · intro hdistinct a ha
    obtain ⟨p, hp, rfl⟩ := mem_map.mp ha
    obtain ⟨q, hq, hkey⟩ := exists_mem_distinctBy abilityKey hp [] not_mem_nil
    have hqp : q = p := hdistinct q (mem_of_mem_distinctBy hq).1 p hp hkey
    exact mem_map_of_mem (hqp ▸ hq)

theorem nodup_keys_built (c : Channel) : (c.built.map Ability.key).Nodup := by
  have hpairs : (distinctBy abilityKey [] c.pairs).Nodup := (nodup_distinctBy c.pairs []).of_map _
  rw [built, map_map]
  refine hpairs.map fun p q h => ?_
  injection h with hgroup hrest
  injection hrest with hmodel
  exact Prod.ext hgroup hmodel

end Channel

/-! ## Rewriting the rows of a channel -/

variable {a : Ability} {abilities : AbilityTable} {c : Channel}

theorem mem_addAbilities (hfresh : ∀ a ∈ abilities.rows, a.channelId ≠ c.id) :
    a ∈ (addAbilities abilities c).rows ↔ a ∈ abilities.rows ∨ a ∈ c.built := by
  refine mem_foldl_insertNew c.nodup_keys_built ?_
  intro r hr hmem
  obtain ⟨b, hb, hkey⟩ := mem_map.mp hmem
  refine hfresh b hb ?_
  injection hkey with _ hrest
  injection hrest with _ hid
  rw [hid]
  exact channelId_of_mem_listed (mem_listed_of_mem_built hr)

theorem mem_updateAbilities :
    a ∈ (updateAbilities abilities c).rows ↔ (a ∈ abilities.rows ∧ a.channelId ≠ c.id) ∨
      a ∈ c.built := by
  rw [updateAbilities, mem_addAbilities]
  · rw [deleteAbilities, mem_delete, decide_eq_false_iff_not]
  · intro b hb
    exact of_decide_eq_false (mem_delete.mp hb).2

theorem addAbilities_eq_updateAbilities (hfresh : ∀ a ∈ abilities.rows, a.channelId ≠ c.id) :
    addAbilities abilities c = updateAbilities abilities c := by
  rw [updateAbilities, deleteAbilities, delete_of_forall]
  exact fun a ha => decide_eq_false (hfresh a ha)

variable {cs : List Channel}

theorem mem_foldl_updateAbilities (hcs : (cs.map Channel.id).Nodup) :
    a ∈ (cs.foldl updateAbilities abilities).rows ↔
      (a ∈ abilities.rows ∧ a.channelId ∉ cs.map Channel.id) ∨ ∃ c ∈ cs, a ∈ c.built := by
  induction cs generalizing abilities with
  | nil => simp
  | cons c cs ih =>
    rw [map_cons, nodup_cons] at hcs
    rw [foldl_cons, ih hcs.2, mem_updateAbilities]
    simp only [map_cons, mem_cons, not_or, exists_eq_or_imp]
    have hbuilt : a ∈ c.built → a.channelId ∉ cs.map Channel.id := fun h => by
      rw [channelId_of_mem_listed (mem_listed_of_mem_built h)]
      exact hcs.1
    constructor
    · rintro (⟨⟨ha, hc⟩ | hb, hid⟩ | hrest)
      · exact .inl ⟨ha, hc, hid⟩
      · exact .inr (.inl hb)
      · exact .inr (.inr hrest)
    rintro (⟨ha, hc, hid⟩ | hb | hrest)
    · exact .inl ⟨.inl ⟨ha, hc⟩, hid⟩
    · exact .inl ⟨.inr hb, hbuilt hb⟩
    · exact .inr hrest

theorem foldl_addAbilities_eq (hcs : (cs.map Channel.id).Nodup)
    (hfresh : ∀ a ∈ abilities.rows, a.channelId ∉ cs.map Channel.id) :
    cs.foldl addAbilities abilities = cs.foldl updateAbilities abilities := by
  induction cs generalizing abilities with
  | nil => rfl
  | cons c cs ih =>
    rw [map_cons, nodup_cons] at hcs
    have hc : ∀ a ∈ abilities.rows, a.channelId ≠ c.id := fun a ha hid =>
      hfresh a ha (by rw [hid]; exact mem_cons_self)
    rw [foldl_cons, foldl_cons, addAbilities_eq_updateAbilities hc]
    refine ih hcs.2 ?_
    intro a ha
    rcases mem_updateAbilities.mp ha with ⟨ha, _⟩ | hbuilt
    · exact fun hmem => hfresh a ha (mem_cons_of_mem _ hmem)
    · rw [channelId_of_mem_listed (mem_listed_of_mem_built hbuilt)]
      exact hcs.1

/-! ## Consistency -/

namespace Db

/-- The abilities are the rows that the channels list, and no others, one per channel, group and
model. Ids start at 1. -/
structure Consistent (db : Db) : Prop where
  ids : ∀ c ∈ db.channels.rows, c.id ≠ 0
  rows : ∀ a, a ∈ db.abilities.rows ↔ ∃ c ∈ db.channels.rows, a ∈ c.listed

variable {db : Db}

theorem built_iff_listed (c : Channel) : (∀ a, a ∈ c.built ↔ a ∈ c.listed) ↔ c.KeysDistinct := by
  rw [← c.built_eq_listed_iff]
  exact ⟨fun h a => (h a).mpr, fun h a => ⟨mem_listed_of_mem_built, h a⟩⟩

theorem built_iff_listed_tag (c : Channel) (tag : Option String) :
    (∀ a, a ∈ c.built ↔ a ∈ Channel.listed { c with tag := tag }) ↔ c.tag = tag ∧
      c.KeysDistinct := by
  constructor
  · intro h
    obtain ⟨a, ha⟩ := c.built_ne_nil
    have hold : a.tag = c.tag := by
      obtain ⟨p, _, rfl⟩ := mem_map.mp (mem_listed_of_mem_built ha)
      rfl
    have hnew : a.tag = tag := by
      obtain ⟨p, _, rfl⟩ := mem_map.mp ((h a).mp ha)
      rfl
    have htag : c.tag = tag := hold.symm.trans hnew
    subst htag
    exact ⟨rfl, (built_iff_listed c).mp h⟩
  · rintro ⟨rfl, hkeys⟩
    exact (built_iff_listed c).mpr hkeys

variable {u : Table.Update Channel.id}

section

variable (h : db.Consistent)

include h

theorem Consistent.channel_of_mem (ha : a ∈ db.abilities.rows) :
    ∃ c ∈ db.channels.rows, c.id = a.channelId := by
  obtain ⟨c, hc, hlisted⟩ := (h.rows a).mp ha
  exact ⟨c, hc, (channelId_of_mem_listed hlisted).symm⟩

/-- The two tables after the rows of the channels `cs` were rewritten while these channels became `g
c`. -/
theorem consistent_rewrite_iff {db' : Db} {cs : List Channel} {g : Channel → Channel}
    (hcs : (cs.map Channel.id).Nodup) (hg : ∀ c ∈ cs, (g c).id = c.id ∧ c.id ≠ 0)
    (hchannels : ∀ c', c' ∈ db'.channels.rows ↔
      (c' ∈ db.channels.rows ∧ c'.id ∉ cs.map Channel.id) ∨ ∃ c ∈ cs, c' = g c)
    (habilities : ∀ a, a ∈ db'.abilities.rows ↔
      (a ∈ db.abilities.rows ∧ a.channelId ∉ cs.map Channel.id) ∨ ∃ c ∈ cs, a ∈ c.built) :
    db'.Consistent ↔ ∀ c ∈ cs, ∀ a, a ∈ c.built ↔ a ∈ (g c).listed := by
  have hlistedId : ∀ c ∈ cs, ∀ a ∈ (g c).listed, a.channelId = c.id := fun c hc a ha =>
    (channelId_of_mem_listed ha).trans (hg c hc).1
  have hbuiltId : ∀ c : Channel, ∀ a ∈ c.built, a.channelId = c.id := fun c a ha =>
    channelId_of_mem_listed (mem_listed_of_mem_built ha)
  have hmemId : ∀ c ∈ cs, c.id ∈ cs.map Channel.id := fun c hc => mem_map_of_mem hc
  constructor
  · intro h' c hc a
    constructor
    · intro hbuilt
      obtain ⟨c', hc', ha⟩ := (h'.rows a).mp ((habilities a).mpr (.inr ⟨c, hc, hbuilt⟩))
      have hid : c'.id = (g c).id := by rw [← channelId_of_mem_listed ha, hbuiltId c a hbuilt, (hg c hc).1]
      have hgc : g c ∈ db'.channels.rows := (hchannels _).mpr (.inr ⟨c, hc, rfl⟩)
      exact eq_of_key_eq hc' hgc hid ▸ ha
    intro hlisted
    have hgc : g c ∈ db'.channels.rows := (hchannels _).mpr (.inr ⟨c, hc, rfl⟩)
    rcases (habilities a).mp ((h'.rows a).mpr ⟨_, hgc, hlisted⟩) with ⟨_, hout⟩ | ⟨c₂, hc₂, hbuilt⟩
    · exact absurd (hlistedId c hc a hlisted ▸ hmemId c hc) hout
    · have hid : c₂.id = c.id := (hbuiltId c₂ a hbuilt).symm.trans (hlistedId c hc a hlisted)
      exact inj_on_of_nodup_map hcs hc₂ hc hid ▸ hbuilt
  · intro hall
    refine ⟨fun c' hc' => ?_, fun a => ?_⟩
    · rcases (hchannels c').mp hc' with ⟨hold, _⟩ | ⟨c, hc, rfl⟩
      · exact h.ids c' hold
      · rw [(hg c hc).1]
        exact (hg c hc).2
    rw [habilities]
    constructor
    · rintro (⟨hold, hout⟩ | ⟨c, hc, hbuilt⟩)
      · obtain ⟨c, hc, ha⟩ := (h.rows a).mp hold
        have hid := channelId_of_mem_listed ha
        exact ⟨c, (hchannels c).mpr (.inl ⟨hc, hid ▸ hout⟩), ha⟩
      · exact ⟨g c, (hchannels _).mpr (.inr ⟨c, hc, rfl⟩), (hall c hc a).mp hbuilt⟩
    · rintro ⟨c', hc', ha⟩
      rcases (hchannels c').mp hc' with ⟨hold, hout⟩ | ⟨c, hc, rfl⟩
      · exact .inl ⟨(h.rows a).mpr ⟨c', hold, ha⟩, channelId_of_mem_listed ha ▸ hout⟩
      · exact .inr ⟨c, hc, (hall c hc a).mpr ha⟩

theorem consistent_exec_iff
    {v : Table.Update Ability.key} (hpairs : ∀ c ∈ db.channels.rows, (u.apply c).pairs = c.pairs) :
    Consistent ⟨db.channels.exec u, db.abilities.exec v⟩ ↔
      ∀ c ∈ db.channels.rows, ∀ p ∈ c.pairs, v.apply (c.abilityFor p) = (u.apply c).abilityFor p := by
  have hchannels : ∀ c', c' ∈ (db.channels.exec u).rows ↔ ∃ c ∈ db.channels.rows, u.apply c = c' :=
    fun c' => mem_map
  have habilities : ∀ a, a ∈ (db.abilities.exec v).rows ↔ ∃ b ∈ db.abilities.rows, v.apply b = a :=
    fun a => mem_map
  constructor
  · intro h' c hc p hp
    have hnew : (u.apply c).abilityFor p ∈ (u.apply c).listed :=
      mem_map_of_mem (by rw [hpairs c hc]; exact hp)
    have hmem := (h'.rows _).mpr ⟨u.apply c, (hchannels _).mpr ⟨c, hc, rfl⟩, hnew⟩
    obtain ⟨b, hb, hvb⟩ := (habilities _).mp hmem
    obtain ⟨c₂, hc₂, hlisted⟩ := (h.rows b).mp hb
    obtain ⟨q, hq, rfl⟩ := mem_map.mp hlisted
    -- the statement keeps the key, so the row comes from the same channel and pair
    have hkey : (c₂.abilityFor q).key = ((u.apply c).abilityFor p).key := by
      rw [← hvb]
      exact (v.key_apply _).symm
    injection hkey with hgroup hrest
    injection hrest with hmodel hid
    have hcc : c₂ = c := eq_of_key_eq hc₂ hc (hid.trans (u.key_apply c))
    have hpq : q = p := Prod.ext hgroup hmodel
    rw [← hvb, hcc, hpq]
  · intro hall
    refine ⟨fun c' hc' => ?_, fun a => ?_⟩
    · obtain ⟨c, hc, rfl⟩ := (hchannels c').mp hc'
      have hid : (u.apply c).id = c.id := u.key_apply c
      rw [hid]
      exact h.ids c hc
    rw [habilities]
    constructor
    · rintro ⟨b, hb, rfl⟩
      obtain ⟨c, hc, hlisted⟩ := (h.rows b).mp hb
      obtain ⟨p, hp, rfl⟩ := mem_map.mp hlisted
      refine ⟨u.apply c, (hchannels _).mpr ⟨c, hc, rfl⟩, ?_⟩
      rw [hall c hc p hp]
      exact mem_map_of_mem (by rw [hpairs c hc]; exact hp)
    · rintro ⟨c', hc', hlisted⟩
      obtain ⟨c, hc, rfl⟩ := (hchannels c').mp hc'
      obtain ⟨p, hp, rfl⟩ := mem_map.mp hlisted
      rw [hpairs c hc] at hp
      exact ⟨c.abilityFor p, (h.rows _).mpr ⟨c, hc, mem_map_of_mem hp⟩, hall c hc p hp⟩

theorem consistent_delete (gone : Int → Bool) :
    Consistent ⟨db.channels.delete fun c => gone c.id, db.abilities.delete fun a => gone a.channelId⟩ := by
  refine ⟨fun c hc => h.ids c (mem_delete.mp hc).1, fun a => ?_⟩
  rw [mem_delete, h.rows]
  constructor
  · rintro ⟨⟨c, hc, ha⟩, hgone⟩
    exact ⟨c, mem_delete.mpr ⟨hc, channelId_of_mem_listed ha ▸ hgone⟩, ha⟩
  rintro ⟨c, hc, ha⟩
  obtain ⟨hc, hgone⟩ := mem_delete.mp hc
  exact ⟨⟨c, hc, ha⟩, by rw [channelId_of_mem_listed ha]; exact hgone⟩

theorem consistent_delete_channels_iff (gone : Channel → Bool) :
    Consistent { db with channels := db.channels.delete gone } ↔
      ∀ c ∈ db.channels.rows, gone c = false := by
  constructor
  · intro h' c hc
    obtain ⟨p, hp⟩ := exists_mem_of_ne_nil _ c.pairs_ne_nil
    have hlisted : c.abilityFor p ∈ c.listed := mem_map_of_mem hp
    obtain ⟨c₂, hc₂, h₂⟩ := (h'.rows _).mp ((h.rows _).mpr ⟨c, hc, hlisted⟩)
    obtain ⟨hold, hgone⟩ := mem_delete.mp hc₂
    have hid : c₂.id = c.id := (channelId_of_mem_listed h₂).symm
    exact eq_of_key_eq hold hc hid ▸ hgone
  · intro hall
    rw [delete_of_forall hall]
    exact h

end

/-! ## One operation -/

/-- The condition under which an operation keeps the two tables consistent. -/
def Keeps (db : Db) : Op → Prop
  | .insert d => (create db.channels d).isSome → d.created.KeysDistinct
  | .batchInsertChannels ds => (createAll db.channels ds).isSome → ∀ d ∈ ds, d.created.KeysDistinct
  | .update d => d.id = 0 ∨ ∃ c ∈ db.channels.rows, c.id = d.id ∧ (d.mergeInto c).KeysDistinct
  | .editChannelByTag tag e =>
    if e.shouldReCreateAbilities then
      ∀ c ∈ db.channels.rows, ((e.statement tag).apply c).tag = some (e.updatedTag tag) →
        ((e.statement tag).apply c).KeysDistinct
    else e.weight = some 0 → ∀ c ∈ db.channels.rows, c.tag = some tag → c.weight = 0
  | .batchSetChannelTag ids tag => ∀ c ∈ db.channels.rows, c.id ∈ ids → c.tag = tag ∧ c.KeysDistinct
  | .deleteChannelByStatus status => ∀ c ∈ db.channels.rows, c.status ≠ status
  | .deleteDisabledChannel => ∀ c ∈ db.channels.rows,
    c.status ≠ channelStatusAutoDisabled ∧ c.status ≠ channelStatusManuallyDisabled
  | .fixAbility => ∀ c ∈ db.channels.rows, c.KeysDistinct
  | .updateChannelStatus .. | .enableChannelByTag _ | .disableChannelByTag _ | .delete _
  | .batchDeleteChannels _ => True

instance (db : Db) : ∀ op, Decidable (db.Keeps op)
  | .insert _ => inferInstanceAs (Decidable (_ → _))
  | .batchInsertChannels ds => inferInstanceAs (Decidable (_ → ∀ d ∈ ds, _))
  | .update _ => inferInstanceAs (Decidable (_ ∨ ∃ c ∈ db.channels.rows, _ ∧ _))
  | .editChannelByTag _ e => inferInstanceAs (Decidable (if e.shouldReCreateAbilities then ∀ c ∈ db.channels.rows, _ → _
    else _ → ∀ c ∈ db.channels.rows, _ → _))
  | .batchSetChannelTag .. => inferInstanceAs (Decidable (∀ c ∈ db.channels.rows, _ → _ ∧ _))
  | .deleteChannelByStatus _ => inferInstanceAs (Decidable (∀ c ∈ db.channels.rows, ¬ _))
  | .deleteDisabledChannel => inferInstanceAs (Decidable (∀ c ∈ db.channels.rows, _ ∧ _))
  | .fixAbility => inferInstanceAs (Decidable (∀ c ∈ db.channels.rows, _))
  | .updateChannelStatus .. | .enableChannelByTag _ | .disableChannelByTag _ | .delete _
  | .batchDeleteChannels _ => inferInstanceAs (Decidable True)

section Operations

variable {db : Db}

@[simp] theorem created_id (d : ChannelData) : d.created.id = d.id := rfl

variable {channels channels' : ChannelTable}

theorem create_some {d : ChannelData} (h : create channels d = some channels') :
    d.id ≠ 0 ∧ channels'.rows = channels.rows ++ [d.created] := by
  unfold create at h
  split at h
  · cases h
  · rename_i hid
    exact ⟨hid, (insert_some h).2⟩

theorem createAll_some {ds : List ChannelData} (h : createAll channels ds = some channels') :
    (∀ d ∈ ds, d.id ≠ 0) ∧ channels'.rows = channels.rows ++ ds.map ChannelData.created := by
  induction ds generalizing channels with
  | nil =>
    cases h
    simp
  | cons d ds ih =>
    simp only [createAll] at h
    split at h
    · cases h
    rename_i mid hcreate
    obtain ⟨hid, hmid⟩ := create_some hcreate
    obtain ⟨hids, hrows⟩ := ih h
    refine ⟨forall_mem_cons.mpr ⟨hid, hids⟩, ?_⟩
    rw [hrows, hmid, map_cons, append_assoc, singleton_append]

theorem consistent_insert_iff (h : db.Consistent) (cs : List Channel)
    (hids : ∀ c ∈ cs, c.id ≠ 0) (hrows : channels.rows = db.channels.rows ++ cs) :
    Consistent ⟨channels, cs.foldl addAbilities db.abilities⟩ ↔ ∀ c ∈ cs, c.KeysDistinct := by
  have hnodup := channels.nodup
  rw [hrows, map_append, nodup_append] at hnodup
  obtain ⟨_, hcs, hdisjoint⟩ := hnodup
  have hnew : ∀ c ∈ db.channels.rows, c.id ∉ cs.map Channel.id := fun c hc hmem =>
    hdisjoint _ (mem_map_of_mem hc) _ hmem rfl
  have hfresh : ∀ a ∈ db.abilities.rows, a.channelId ∉ cs.map Channel.id := by
    intro a ha
    obtain ⟨c, hc, hid⟩ := h.channel_of_mem ha
    exact hid ▸ hnew c hc
  rw [foldl_addAbilities_eq hcs hfresh]
  rw [consistent_rewrite_iff (g := fun c => c) h hcs (fun c hc => ⟨rfl, hids c hc⟩) ?_ (fun a => mem_foldl_updateAbilities hcs)]
  · exact forall₂_congr fun c _ => built_iff_listed c
  intro c'
  simp only [hrows, mem_append]
  constructor
  · rintro (hold | hmem)
    · exact .inl ⟨hold, hnew c' hold⟩
    · exact .inr ⟨c', hmem, rfl⟩
  rintro (⟨hold, _⟩ | ⟨c, hc, rfl⟩)
  · exact .inl hold
  · exact .inr hc

attribute [local simp] Keeps mergeStatement abilityByTag statusByTag

theorem consistent_insert (h : db.Consistent) (d : ChannelData) :
    (db.insert d).Consistent ↔ db.Keeps (.insert d) := by
  unfold insert
  cases hcreate : create db.channels d with
  | none => simp [hcreate, h]
  | some channels =>
    obtain ⟨hid, hrows⟩ := create_some hcreate
    have hone := consistent_insert_iff h [d.created] (by simpa using hid) hrows
    simpa [hcreate] using hone

theorem consistent_batchInsertChannels (h : db.Consistent) (ds : List ChannelData) :
    (db.batchInsertChannels ds).Consistent ↔ db.Keeps (.batchInsertChannels ds) := by
  unfold batchInsertChannels
  cases hcreate : createAll db.channels ds with
  | none => simp [hcreate, h]
  | some channels =>
    obtain ⟨hids, hrows⟩ := createAll_some hcreate
    have hall := consistent_insert_iff h _ (by simpa using hids) hrows
    simpa [hcreate] using hall

theorem consistent_foldl_update_iff (h : db.Consistent) {marked : Channel → Bool}
    (hmarked : ∀ c ∈ db.channels.rows, marked (u.apply c) = false → u.apply c = c) :
    Consistent ⟨db.channels.exec u, ((db.channels.exec u).rows.filter marked).foldl updateAbilities db.abilities⟩ ↔
      ∀ c ∈ db.channels.rows, marked (u.apply c) = true → (u.apply c).KeysDistinct := by
  have hcs : (((db.channels.exec u).rows.filter marked).map Channel.id).Nodup :=
    (db.channels.exec u).nodup.sublist (List.Sublist.map _ filter_sublist)
  have hmem : ∀ c', c' ∈ (db.channels.exec u).rows ↔ ∃ c ∈ db.channels.rows, u.apply c = c' :=
    fun c' => mem_map
  have hid : ∀ c, (u.apply c).id = c.id := u.key_apply
  rw [consistent_rewrite_iff (g := fun c => c) h hcs ?_ ?_ (fun a => mem_foldl_updateAbilities hcs)]
  · simp only [mem_filter, hmem, built_iff_listed]
    constructor
    · exact fun hall c hc hm => hall _ ⟨⟨c, hc, rfl⟩, hm⟩
    · rintro hall c' ⟨⟨c, hc, rfl⟩, hm⟩
      exact hall c hc hm
  · intro c' hc'
    obtain ⟨c, hc, rfl⟩ := (hmem c').mp (mem_filter.mp hc').1
    exact ⟨rfl, by rw [hid]; exact h.ids c hc⟩
  intro c'
  show c' ∈ (db.channels.exec u).rows ↔ _
  rw [hmem]
  constructor
  · rintro ⟨c, hc, rfl⟩
    cases hm : marked (u.apply c) with
    | true => exact .inr ⟨_, mem_filter.mpr ⟨(hmem _).mpr ⟨c, hc, rfl⟩, hm⟩, rfl⟩
    | false =>
      rw [hmarked c hc hm]
      refine .inl ⟨hc, fun hin => ?_⟩
      obtain ⟨c₂, hc₂, hid₂⟩ := mem_map.mp hin
      obtain ⟨hc₂, hm₂⟩ := mem_filter.mp hc₂
      have hself : u.apply c ∈ (db.channels.exec u).rows := (hmem _).mpr ⟨c, hc, rfl⟩
      have heq : c₂ = u.apply c := eq_of_key_eq hc₂ hself (hid₂.trans (hid c).symm)
      rw [heq, hm] at hm₂
      cases hm₂
  · rintro (⟨hc, hout⟩ | ⟨c, hc, rfl⟩)
    · refine ⟨c', hc, ?_⟩
      cases hm : marked (u.apply c') with
      | false => exact hmarked c' hc hm
      | true =>
        refine absurd (mem_map.mpr ⟨u.apply c', ?_, hid c'⟩) hout
        exact mem_filter.mpr ⟨(hmem _).mpr ⟨c', hc, rfl⟩, hm⟩
    · exact (hmem _).mp (mem_filter.mp hc).1

theorem pairs_congr (hmodels : c'.models = c.models) (hgroup : c'.group = c.group) :
    c'.pairs = c.pairs := by
  simp only [pairs, modelNames, groups, hmodels, hgroup]

theorem keysDistinct_congr (hmodels : c'.models = c.models) (hgroup : c'.group = c.group) :
    c'.KeysDistinct ↔ c.KeysDistinct := by
  simp only [Channel.KeysDistinct, pairs_congr hmodels hgroup]

@[simp] theorem completed_id (cfg : Config) (d : ChannelData) : (completed cfg db d).id = d.id := by
  unfold completed
  split <;> rfl

theorem keysDistinct_completed (cfg : Config) (d : ChannelData) (c : Channel) :
    ((completed cfg db d).mergeInto c).KeysDistinct ↔ (d.mergeInto c).KeysDistinct := by
  unfold completed
  split <;> exact keysDistinct_congr rfl rfl

theorem consistent_update (h : db.Consistent) (cfg : Config) (d : ChannelData) :
    (db.update cfg d).Consistent ↔ db.Keeps (.update d) := by
  unfold update
  by_cases hzero : d.id = 0
  · simp [hzero, h]
  rw [if_neg hzero]
  simp only [Keeps, hzero, false_or]
  have happly : ∀ c : Channel, c.id ≠ d.id → (mergeStatement (completed cfg db d)).apply c = c :=
    fun c hc => by
    simp [Update.apply, hc]
  cases hget : db.channels.get d.id with
  | none =>
    -- the rows of the request stay behind for a channel that is not there
    have hnone : ∀ c ∈ db.channels.rows, c.id ≠ d.id := fun c hc hid => by
      have hsome : db.channels.get c.id = some c := get_of_mem hc
      rw [hid, hget] at hsome
      cases hsome
    have hnot : ¬ ∃ c ∈ db.channels.rows, c.id = d.id ∧ (d.mergeInto c).KeysDistinct := by
      rintro ⟨c, hc, hid, -⟩
      exact hnone c hc hid
    refine iff_of_false (fun h' => ?_) hnot
    rw [completed_id, get_exec, hget] at h'
    obtain ⟨a, ha⟩ := (completed cfg db d).asRow.built_ne_nil
    obtain ⟨c', hc', hid'⟩ := h'.channel_of_mem (mem_updateAbilities.mpr (.inr ha))
    obtain ⟨c, hc, rfl⟩ := mem_map.mp hc'
    rw [happly c (hnone c hc), channelId_of_mem_listed (mem_listed_of_mem_built ha)] at hid'
    exact hnone c hc (hid'.trans (completed_id cfg d))
  | some c =>
    have hc : c ∈ db.channels.rows := mem_of_get hget
    have hid : c.id = d.id := key_of_get hget
    have hgetNew : (db.channels.exec (mergeStatement (completed cfg db d))).get d.id =
        some ((completed cfg db d).mergeInto c) := by
      rw [get_exec, hget]
      simp [Update.apply, hid]
    rw [completed_id, hgetNew, Option.getD_some]
    have hcs : (([(completed cfg db d).mergeInto c] : List Channel).map Channel.id).Nodup :=
      nodup_singleton _
    rw [consistent_rewrite_iff (g := fun c => c) h hcs ?_ ?_ (fun a => ?_)]
    · rw [forall_mem_singleton, built_iff_listed, keysDistinct_completed]
      constructor
      · exact fun hkeys => ⟨c, hc, hid, hkeys⟩
      · rintro ⟨c₂, hc₂, hid₂, hkeys⟩
        exact eq_of_key_eq hc₂ hc (hid₂.trans hid.symm) ▸ hkeys
    · rw [forall_mem_singleton]
      exact ⟨rfl, h.ids c hc⟩
    · intro c'
      simp only [mem_exec, mergeStatement, completed_id, decide_eq_true_eq, decide_eq_false_iff_not,
        map_cons, map_nil, mem_singleton, exists_eq_left]
      have hmerged : ((completed cfg db d).mergeInto c).id = d.id := hid
      rw [hmerged]
      refine or_congr Iff.rfl ⟨?_, fun heq => ⟨c, hc, hid, heq⟩⟩
      rintro ⟨c₂, hc₂, hid₂, rfl⟩
      rw [(eq_of_key_eq hc₂ hc (hid₂.trans hid.symm) : c₂ = c)]
    · rw [mem_updateAbilities]
      simp

theorem hasEnabledMultiKey_eraseKey {keys : List String} {key : String} {i : Nat}
    (hi : keys.idxOf? key = some i) (list : List (Nat × Int)) :
    hasEnabledMultiKey keys (eraseKey i list) = true := by
  have hlt : i < keys.length := by
    rw [idxOf?, findIdx?_eq_some_iff_getElem] at hi
    exact hi.1
  rw [hasEnabledMultiKey, any_eq_true]
  refine ⟨i, mem_range.mpr hlt, ?_⟩
  rw [findKey_eraseKey, if_pos rfl]

/-- `handlerMultiKeyUpdate` changes status and key list only, and a changed status is enabled
exactly when that was asked for. -/
theorem handlerMultiKeyUpdate_spec (cfg : Config) (c : Channel) (usingKey : String) (status : Int) :
    ∃ s info, handlerMultiKeyUpdate cfg c usingKey status = { c with status := s, channelInfo := info } ∧
      (s = c.status ∨ (s = channelStatusEnabled ↔ status = channelStatusEnabled)) := by
  unfold handlerMultiKeyUpdate
  dsimp only
  split
  · exact ⟨status, c.channelInfo, rfl, .inr Iff.rfl⟩
  split
  · split
    · exact ⟨c.status, c.channelInfo, rfl, .inl rfl⟩
    · exact ⟨status, c.channelInfo, rfl, .inr Iff.rfl⟩
  rename_i i hi
  by_cases henabled : status = channelStatusEnabled
  · rw [if_pos henabled, hasEnabledMultiKey_eraseKey hi, if_neg (by simp), if_pos henabled]
    exact ⟨channelStatusEnabled, _, rfl, .inr (iff_of_true rfl henabled)⟩
  rw [if_neg henabled]
  split
  · exact ⟨channelStatusAutoDisabled, _, rfl, .inr (iff_of_false (by decide) henabled)⟩
  · exact ⟨c.status, _, rfl, .inl rfl⟩

theorem withStatus_spec (cfg : Config) (c : Channel) (usingKey : String) (status : Int) :
    ∃ s info, (withStatus cfg c usingKey status).1 = { c with status := s, channelInfo := info } ∧
      if (withStatus cfg c usingKey status).2 then s = channelStatusEnabled ↔ status = channelStatusEnabled
      else s = c.status := by
  unfold withStatus
  split
  · obtain ⟨s, info, hc', hs⟩ := handlerMultiKeyUpdate_spec cfg c usingKey status
    refine ⟨s, info, hc', ?_⟩
    simp only [hc', decide_eq_true_eq]
    split
    · rename_i hne
      exact hs.resolve_left fun heq => hne heq.symm
    · rename_i heq
      exact (not_not.mp heq).symm
  · exact ⟨status, c.channelInfo, rfl, by simp⟩

theorem save_eq_exec (channels : ChannelTable) (row : Channel) : channels.save row = channels.exec
    ⟨fun c => decide (c.id = row.id), fun _ => row, fun _ h => (of_decide_eq_true h).symm⟩ := by
  refine ext (map_congr_left fun c _ => ?_)
  simp [Update.apply]

attribute [local simp] abilityFor

theorem consistent_updateChannelStatus (h : db.Consistent) (cfg : Config) (cache : CacheLookup)
    (channelId : Int) (usingKey : String) (status : Int) :
    (db.updateChannelStatus cfg cache channelId usingKey status).Consistent := by
  unfold updateChannelStatus
  split
  · split
    · exact h
    rename_i c hget
    have hc : c ∈ db.channels.rows := mem_of_get hget
    have hid : c.id = channelId := key_of_get hget
    split
    · exact h
    obtain ⟨s, info, hr, hs⟩ := withStatus_spec cfg c usingKey status
    dsimp only
    rw [if_neg (h.ids c hc), hr, save_eq_exec]
    have hrow : ∀ c' ∈ db.channels.rows, c'.id = c.id → c' = c := fun c' hc' heq =>
      eq_of_key_eq hc' hc heq
    have hpairs : ∀ c' ∈ db.channels.rows, (if c'.id = c.id then
        { c with status := s, channelInfo := info } else c').pairs = c'.pairs := by
      intro c' hc'
      split
      · rename_i heq
        rw [hrow c' hc' heq]
        rfl
      · rfl
    split at hs <;> rename_i hupdate
    on_goal 1 => rw [if_pos hupdate, updateAbilityStatus]
    on_goal 2 =>
      have hsame : db.abilities.exec ⟨fun _ => false, fun a => a, fun _ _ => rfl⟩ = db.abilities :=
        exec_of_apply_eq fun _ => rfl
      rw [if_neg hupdate, ← hsame]
    all_goals
      rw [consistent_exec_iff h (by simpa [Update.apply] using hpairs)]
      intro c' hc' p _
      by_cases hid' : c'.id = c.id
      · obtain rfl : c' = c := hrow c' hc' hid'
        simp [Update.apply, hid, hs]
      · simp [Update.apply, hid', hid ▸ hid']
  · exact h

theorem consistent_statusByTag (h : db.Consistent) (tag : String) (status : Int) :
    Consistent ⟨db.channels.exec (statusByTag tag status),
      updateAbilityStatusByTag db.abilities tag (decide (status = channelStatusEnabled))⟩ := by
  rw [updateAbilityStatusByTag, consistent_exec_iff h]
  · intro c _ p _
    by_cases htag : c.tag = some tag <;> simp [Update.apply, htag]
  intro c _
  refine pairs_congr ?_ ?_ <;>
    by_cases htag : c.tag = some tag <;> simp [Update.apply, htag]

open TagEdit

theorem tag_applyTo (e : TagEdit) {tag : String} (h : c.tag = some tag) :
    (e.applyTo tag c).tag = some (e.updatedTag tag) := by
  unfold applyTo updatedTag
  cases hnew : e.newTag with
  | none => simp [h]
  | some t =>
    by_cases ht : t = tag
    · simp [h, ht]
    · simp [ht]

theorem abilityByTag_apply_iff (e : TagEdit) (tag : String) (c : Channel) (p : String × String) :
    (abilityByTag tag e.newTag e.priority e.weight).apply (c.abilityFor p) =
      ((e.statement tag).apply c).abilityFor p ↔
      (c.tag = some tag → e.weight = some 0 → c.weight = 0) := by
  by_cases h : c.tag = some tag
  · have htag : (if e.newTag = none then some tag else e.newTag) =
        if e.newTag ≠ none ∧ e.newTag ≠ some tag then e.newTag else some tag := by
      cases hnew : e.newTag with
      | none => simp
      | some t => by_cases ht : t = tag <;> simp [ht]
    have hweight : (if e.weight.getD 0 = 0 then c.weight else e.weight.getD 0) = e.weight.getD c.weight ↔
        (e.weight = some 0 → c.weight = 0) := by
      cases hw : e.weight with
      | none => simp
      | some w => by_cases hzero : w = 0 <;> simp [hzero]
    rw [← hweight]
    simp [Update.apply, statement, applyTo, h, htag]
  · simp [Update.apply, statement, h]

theorem consistent_editChannelByTag (h : db.Consistent) (tag : String) (e : TagEdit) :
    (db.editChannelByTag tag e).Consistent ↔ db.Keeps (.editChannelByTag tag e) := by
  unfold editChannelByTag
  simp only [Keeps]
  split
  · rw [consistent_foldl_update_iff h]
    · simp
    intro c _ hunmarked
    rw [decide_eq_false_iff_not] at hunmarked
    by_cases htag : c.tag = some tag
    · refine absurd ?_ hunmarked
      simp only [Update.apply, statement, htag, decide_true, if_true]
      exact tag_applyTo e htag
    · simp [Update.apply, statement, htag]
  · rename_i hkeep
    rw [shouldReCreateAbilities, Bool.or_eq_true, not_or, Bool.not_eq_true,
      Bool.not_eq_true] at hkeep
    have hpairs : ∀ c ∈ db.channels.rows, ((e.statement tag).apply c).pairs = c.pairs := by
      intro c _
      refine pairs_congr ?_ ?_ <;>
        by_cases htag : c.tag = some tag <;>
          simp [Update.apply, statement, applyTo, htag, hkeep]
    rw [updateAbilityByTag, consistent_exec_iff h hpairs]
    simp only [abilityByTag_apply_iff]
    constructor
    · intro hall hw c hc htag
      obtain ⟨p, hp⟩ := exists_mem_of_ne_nil _ c.pairs_ne_nil
      exact hall c hc p hp htag hw
    · exact fun hall c hc p _ htag hw => hall hw c hc htag

theorem consistent_batchSetChannelTag (h : db.Consistent) (ids : List Int) (tag : Option String) :
    (db.batchSetChannelTag ids tag).Consistent ↔ db.Keeps (.batchSetChannelTag ids tag) := by
  have hcs : ((db.channels.rows.filter fun c => decide (c.id ∈ ids)).map Channel.id).Nodup :=
    db.channels.nodup.sublist (List.Sublist.map _ filter_sublist)
  have hmem : ∀ c, c ∈ db.channels.rows.filter (fun c => decide (c.id ∈ ids)) ↔
      c ∈ db.channels.rows ∧ c.id ∈ ids := fun c => by simp
  unfold batchSetChannelTag
  rw [consistent_rewrite_iff (g := fun c => { c with tag := tag }) h hcs
    (fun c hc => ⟨rfl, h.ids c ((hmem c).mp hc).1⟩) ?_ (fun a => mem_foldl_updateAbilities hcs)]
  · simp [built_iff_listed_tag]
  intro c'
  rw [mem_exec]
  simp only [tagByIds, decide_eq_true_eq, decide_eq_false_iff_not, hmem]
  constructor
  · rintro (⟨hc, hout⟩ | ⟨c, hc, hin, rfl⟩)
    · refine .inl ⟨hc, fun hin => hout ?_⟩
      obtain ⟨c, hc, hid⟩ := mem_map.mp hin
      exact hid ▸ ((hmem c).mp hc).2
    · exact .inr ⟨c, ⟨hc, hin⟩, rfl⟩
  · rintro (⟨hc, hout⟩ | ⟨c, ⟨hc, hin⟩, rfl⟩)
    · exact .inl ⟨hc, fun hin => hout (mem_map_of_mem ((hmem c').mpr ⟨hc, hin⟩))⟩
    · exact .inr ⟨c, hc, hin, rfl⟩

theorem consistent_fixAbility (h : db.Consistent) :
    db.fixAbility.Consistent ↔ db.Keeps .fixAbility := by
  unfold fixAbility
  rw [foldl_addAbilities_eq db.channels.nodup (fun a ha => by cases ha)]
  rw [consistent_rewrite_iff (g := fun c => c) h db.channels.nodup (fun c hc => ⟨rfl, h.ids c hc⟩) ?_ (fun a => ?_)]
  · exact forall₂_congr fun c _ => built_iff_listed c
  · intro c'
    constructor
    · exact fun hc => .inr ⟨c', hc, rfl⟩
    rintro (⟨hc, _⟩ | ⟨c, hc, rfl⟩)
    · exact hc
    · exact hc
  · rw [mem_foldl_updateAbilities db.channels.nodup]
    refine or_congr ⟨fun ha => ?_, fun ⟨ha, hout⟩ => ?_⟩ Iff.rfl
    · cases ha.1
    · obtain ⟨c, hc, hid⟩ := h.channel_of_mem ha
      exact absurd (hid ▸ mem_map_of_mem hc) hout

theorem consistent_step_iff (cfg : Config) (h : db.Consistent) (op : Op) :
    (db.step cfg op).Consistent ↔ db.Keeps op := by
  cases op with
  | insert d => exact consistent_insert h d
  | batchInsertChannels ds => exact consistent_batchInsertChannels h ds
  | update d => exact consistent_update h cfg d
  | updateChannelStatus cache channelId usingKey status =>
    exact iff_of_true (consistent_updateChannelStatus h cfg cache channelId usingKey status) trivial
  | enableChannelByTag tag => exact iff_of_true (consistent_statusByTag h tag channelStatusEnabled) trivial
  | disableChannelByTag tag => exact iff_of_true (consistent_statusByTag h tag channelStatusManuallyDisabled) trivial
  | editChannelByTag tag e => exact consistent_editChannelByTag h tag e
  | batchSetChannelTag ids tag => exact consistent_batchSetChannelTag h ids tag
  | delete id =>
    refine iff_of_true ?_ trivial
    show (db.delete id).Consistent
    unfold Db.delete
    split
    · exact h
    · exact consistent_delete h fun i => decide (i = id)
  | batchDeleteChannels ids => exact iff_of_true (consistent_delete h fun i => decide (i ∈ ids)) trivial
  | deleteChannelByStatus status | deleteDisabledChannel =>
    refine (consistent_delete_channels_iff h _).trans ?_
    simp
  | fixAbility => exact consistent_fixAbility h

end Operations

/-- **Abilities follow channels** after every operation of a run from a consistent database, exactly
when every operation meets its condition. -/
theorem abilities_follow_channels_iff (cfg : Config) {db : Db} (h : db.Consistent) (ops : List Op) :
    (∀ n, (db.run cfg (ops.take n)).Consistent) ↔ Guarded (step cfg) Keeps db ops :=
  (guarded_iff_prefixes (P := Consistent) (fun _ op hs => consistent_step_iff cfg hs op) ops h).symm

/-! ## Runs from the empty database -/

def empty : Db := ⟨Table.empty, Table.empty⟩

theorem consistent_empty : empty.Consistent where
  ids := fun _ hc => absurd hc not_mem_nil
  rows := fun _ => iff_of_false not_mem_nil fun ⟨_, hc, _⟩ => not_mem_nil hc

/-- Channel 1 with weight 5 and the tag "t". -/
def sampleData (group models : String) : ChannelData :=
  ⟨1, "sk", channelStatusEnabled, some 5, models, group, none, some "t", .zero⟩

/-- No key is a JSON array. -/
def plainConfig : Config := ⟨fun _ => none⟩

def sampleOps : List Op :=
  [.insert (sampleData "default,vip" "gpt-4,gpt-4"), .updateChannelStatus .disabled 1 "" channelStatusAutoDisabled,
    .editChannelByTag "t" ⟨some "u", none, none, some 3, some 7⟩, .enableChannelByTag "u", .fixAbility]

theorem sample_run_stays_consistent :
    Guarded (step plainConfig) Keeps empty sampleOps ∧
      (empty.run plainConfig sampleOps).Consistent := by
  have hguarded : Guarded (step plainConfig) Keeps empty sampleOps := by decide +kernel
  exact ⟨hguarded, (abilities_follow_channels_iff plainConfig consistent_empty sampleOps).mpr hguarded 5⟩

theorem not_consistent_of_not_keeps (ops : List Op) (op : Op)
    (hrun : Guarded (step plainConfig) Keeps empty ops)
    (hop : ¬ (empty.run plainConfig ops).Keeps op) :
    ¬ (empty.run plainConfig (ops ++ [op])).Consistent := by
  have hops : (empty.run plainConfig ops).Consistent :=
    hrun.invariant (fun _ op hkeeps hs => (consistent_step_iff plainConfig hs op).mpr hkeeps) consistent_empty
  rw [run, foldl_append]
  exact fun h => hop ((consistent_step_iff plainConfig hops op).mp h)

/-- The five defects: deleting disabled channels or those of a status leaves abilities, a weight of
zero or a new tag is not written, an update of a deleted channel writes rows for it, and two pairs
with one key become one row. -/
theorem abilities_do_not_follow :
    ¬ (empty.run plainConfig [.insert (sampleData "default" "gpt-4"), .disableChannelByTag "t",
        .deleteDisabledChannel]).Consistent ∧
      ¬ (empty.run plainConfig [.insert (sampleData "default" "gpt-4"),
        .deleteChannelByStatus channelStatusEnabled]).Consistent ∧
      ¬ (empty.run plainConfig [.insert (sampleData "default" "gpt-4"),
        .editChannelByTag "t" ⟨none, none, none, none, some 0⟩]).Consistent ∧
      ¬ (empty.run plainConfig [.insert (sampleData "default" "gpt-4"),
        .batchSetChannelTag [1] (some "u")]).Consistent ∧
      ¬ (empty.run plainConfig [.update (sampleData "default" "gpt-4")]).Consistent ∧
      ¬ (empty.run plainConfig [.insert (sampleData "a,a|b" "b|c,c")]).Consistent := by
  refine ⟨?_, ?_, ?_, ?_, ?_, ?_⟩
  · exact not_consistent_of_not_keeps [_, _] _ (by decide +kernel) (by decide +kernel)
  · exact not_consistent_of_not_keeps [_] _ (by decide +kernel) (by decide +kernel)
  · exact not_consistent_of_not_keeps [_] _ (by decide +kernel) (by decide +kernel)
  · exact not_consistent_of_not_keeps [_] _ (by decide +kernel) (by decide +kernel)
  · exact not_consistent_of_not_keeps [] _ (by decide +kernel) (by decide +kernel)
  · exact not_consistent_of_not_keeps [] _ (by decide +kernel) (by decide +kernel)

end Db

end NewApi.Channels
