import NewApi.Lib.Table
import NewApi.Lib.Grouping
import NewApi.Lib.Text

/-!
# Channels and abilities (`model/channel.go`, `model/ability.go`)

A channel lists the groups it serves and the models it offers. The `abilities` table spells the
product out, one row per group and model, with copies of the channel's status, priority, weight and
tag, so that a request can be routed by one query. Every operation on channels keeps that table up
to date by itself.

* `Channel`, `Ability`, `Db` — the columns the operations read and write.
* `Channel.built`, `addAbilities`, `updateAbilities` — the product loop with its `abilitySet`.
* `Op`, `Db.step` — the operations, under the names of the source. An operation that returns an
  error leaves the database as it was.
-/

namespace NewApi.Channels

/-! ## Rows -/

def channelStatusEnabled : Int := 1
def channelStatusManuallyDisabled : Int := 2
def channelStatusAutoDisabled : Int := 3

structure ChannelInfo where
  isMultiKey : Bool
  multiKeySize : Nat
  /-- Key index to status; a key without an entry is enabled. -/
  multiKeyStatusList : List (Nat × Int)
  deriving DecidableEq, Repr

namespace ChannelInfo

def zero : ChannelInfo := ⟨false, 0, []⟩

end ChannelInfo

/-- A row of `channels`. Weight and priority have a column default and are never null. -/
structure Channel where
  id : Int
  key : String
  status : Int
  weight : Nat
  models : String
  group : String
  priority : Int
  tag : Option String
  channelInfo : ChannelInfo
  deriving DecidableEq, Repr

structure Ability where
  group : String
  model : String
  channelId : Int
  enabled : Bool
  priority : Int
  weight : Nat
  tag : Option String
  deriving DecidableEq, Repr

namespace Ability

/-- The primary key of `abilities`. -/
def key (a : Ability) : String × String × Int := (a.group, a.model, a.channelId)

end Ability

abbrev ChannelTable := Table Int Channel Channel.id
abbrev AbilityTable := Table (String × String × Int) Ability Ability.key

structure Db where
  channels : ChannelTable
  abilities : AbilityTable

/-- A `Channel` value of a request, not yet stored. -/
structure ChannelData where
  id : Int
  key : String
  status : Int
  weight : Option Nat
  models : String
  group : String
  priority : Option Int
  tag : Option String
  channelInfo : ChannelInfo
  deriving DecidableEq, Repr

namespace ChannelData

/-- The fields as `GetWeight` and the default of `abilities.priority` read them. -/
def asRow (d : ChannelData) : Channel where
  id := d.id
  key := d.key
  status := d.status
  weight := d.weight.getD 0
  models := d.models
  group := d.group
  priority := d.priority.getD 0
  tag := d.tag
  channelInfo := d.channelInfo

/-- The row that `Create` stores: the defaults of the columns stand for zero values. -/
def created (d : ChannelData) : Channel :=
  { d.asRow with
    status := if d.status = 0 then channelStatusEnabled else d.status
    group := if d.group = "" then "default" else d.group }

/-- `Updates` with a struct writes the fields that are not zero. -/
def mergeInto (d : ChannelData) (c : Channel) : Channel where
  id := c.id
  key := if d.key = "" then c.key else d.key
  status := if d.status = 0 then c.status else d.status
  weight := d.weight.getD c.weight
  models := if d.models = "" then c.models else d.models
  group := if d.group = "" then c.group else d.group
  priority := d.priority.getD c.priority
  tag := if d.tag = none then c.tag else d.tag
  channelInfo := if d.channelInfo = .zero then c.channelInfo else d.channelInfo

end ChannelData

/-! ## The product of groups and models -/

/-- The loop with `abilitySet`: the first entry of each key. -/
def distinctBy {α κ : Type} [DecidableEq κ] (key : α → κ) : List κ → List α → List α
  | _, [] => []
  | seen, a :: as =>
    if key a ∈ seen then distinctBy key seen as else a :: distinctBy key (key a :: seen) as

/-- The key of `abilitySet`. -/
def abilityKey (p : String × String) : String := p.1 ++ "|" ++ p.2

namespace Channel

def groups (c : Channel) : List String := Text.split c.group ','

def modelNames (c : Channel) : List String := Text.split c.models ','

/-- Every group and model of the two loops, in their order. -/
def pairs (c : Channel) : List (String × String) :=
  c.modelNames.flatMap fun model => c.groups.map fun group => (group, model)

def abilityFor (c : Channel) (p : String × String) : Ability where
  group := p.1
  model := p.2
  channelId := c.id
  enabled := decide (c.status = channelStatusEnabled)
  priority := c.priority
  weight := c.weight
  tag := c.tag

/-- The `abilities` slice that the loops fill. -/
def built (c : Channel) : List Ability := (distinctBy abilityKey [] c.pairs).map c.abilityFor

end Channel

/-- `AddAbilities`; a row whose key is taken is skipped. Cutting the slice into chunks of 50 changes
nothing and is left out. -/
def addAbilities (abilities : AbilityTable) (c : Channel) : AbilityTable :=
  c.built.foldl Table.insertNew abilities

def deleteAbilities (abilities : AbilityTable) (channelId : Int) : AbilityTable :=
  abilities.delete fun a => decide (a.channelId = channelId)

def updateAbilities (abilities : AbilityTable) (c : Channel) : AbilityTable :=
  addAbilities (deleteAbilities abilities c.id) c

def updateAbilityStatus (abilities : AbilityTable) (channelId : Int) (status : Bool) :
    AbilityTable :=
  abilities.exec ⟨fun a => decide (a.channelId = channelId), fun a => { a with enabled := status }, fun _ _ => rfl⟩

def updateAbilityStatusByTag (abilities : AbilityTable) (tag : String) (status : Bool) :
    AbilityTable :=
  abilities.exec ⟨fun a => decide (a.tag = some tag), fun a => { a with enabled := status }, fun _ _ => rfl⟩

/-- The statement of `UpdateAbilityByTag`: a struct update again. Tag and priority are pointers, the
weight is not, so a weight of zero is not written. -/
def abilityByTag (tag : String) (newTag : Option String) (priority : Option Int)
    (weight : Option Nat) : Table.Update Ability.key :=
  ⟨fun a => decide (a.tag = some tag),
    fun a => { a with
      tag := if newTag = none then a.tag else newTag
      priority := priority.getD a.priority
      weight := if weight.getD 0 = 0 then a.weight else weight.getD 0 },
    fun _ _ => rfl⟩

def updateAbilityByTag (abilities : AbilityTable) (tag : String) (newTag : Option String)
    (priority : Option Int) (weight : Option Nat) : AbilityTable :=
  abilities.exec (abilityByTag tag newTag priority weight)

/-! ## Keys of a channel -/

/-- `rawElements` is `common.Unmarshal` into a list of raw JSON messages. -/
structure Config where
  rawElements : String → Option (List String)

/-- The fallback of `GetKeys`: one key per line. -/
def keyLines (key : String) : List String := Text.split (Text.trim key '\n') '\n'

def isJsonArray (key : String) : Bool := (Text.trimSpace key).toList.head? == some '['

def getKeys (cfg : Config) (key : String) : List String :=
  if key = "" then []
  else if isJsonArray key then (cfg.rawElements (Text.trimSpace key)).getD (keyLines key)
  else keyLines key

/-- The key list as `Update` parses it: an empty array falls back to the lines too. -/
def updatedKeys (cfg : Config) (key : String) : List String :=
  if key = "" then []
  else
    let keys := if isJsonArray key then (cfg.rawElements (Text.trimSpace key)).getD [] else []
    if keys = [] then keyLines key else keys

def hasEnabledMultiKey (keys : List String) (statusList : List (Nat × Int)) : Bool :=
  (List.range keys.length).any fun i =>
    match findKey i statusList with
    | none => true
    | some status => decide (status = channelStatusEnabled)

/-- `handlerMultiKeyUpdate`, without the texts and times of the reasons. -/
def handlerMultiKeyUpdate (cfg : Config) (c : Channel) (usingKey : String) (status : Int) :
    Channel :=
  let keys := getKeys cfg c.key
  if keys = [] then { c with status := status }
  else
    match keys.idxOf? usingKey with
    | none => if usingKey ≠ "" then c else { c with status := status }
    | some keyIndex =>
      let list := if status = channelStatusEnabled then eraseKey keyIndex c.channelInfo.multiKeyStatusList
        else setKey keyIndex status c.channelInfo.multiKeyStatusList
      let c := { c with channelInfo := { c.channelInfo with multiKeyStatusList := list } }
      if hasEnabledMultiKey keys list = false then { c with status := channelStatusAutoDisabled }
      else if status = channelStatusEnabled then { c with status := channelStatusEnabled }
      else c

/-! ## Operations -/

/-- What `UpdateChannelStatus` finds in the memory cache. -/
inductive CacheLookup where
  | disabled
  | absent
  | found (isMultiKey : Bool) (status : Int)
  deriving DecidableEq, Repr

/-- `UpdateChannelStatus` goes on to the database. -/
def CacheLookup.passes (status : Int) : CacheLookup → Bool
  | .disabled => true
  | .absent => false
  | .found isMultiKey cached => isMultiKey || decide (cached ≠ status)

namespace Db

/-- `Create` for one channel; the database gives ids from 1 on, so `d.id` is the id of the new
row. -/
def create (channels : ChannelTable) (d : ChannelData) : Option ChannelTable :=
  if d.id = 0 then none else channels.insert d.created

/-- `Create` for each channel of a batch, or an error. -/
def createAll (channels : ChannelTable) : List ChannelData → Option ChannelTable
  | [] => some channels
  | d :: ds =>
    match create channels d with
    | none => none
    | some channels => createAll channels ds

def insert (db : Db) (d : ChannelData) : Db :=
  match create db.channels d with
  | none => db
  | some channels => ⟨channels, addAbilities db.abilities d.created⟩

def batchInsertChannels (db : Db) (ds : List ChannelData) : Db :=
  match createAll db.channels ds with
  | none => db
  | some channels => ⟨channels, (ds.map ChannelData.created).foldl addAbilities db.abilities⟩

/-- The channel as `Update` completes it before writing: the key count, and no status beyond it. -/
def completed (cfg : Config) (db : Db) (d : ChannelData) : ChannelData :=
  if d.channelInfo.isMultiKey then
    let key := if d.key ≠ "" then d.key else ((db.channels.get d.id).map Channel.key).getD ""
    let size := (updatedKeys cfg key).length
    { d with channelInfo := { d.channelInfo with
        multiKeySize := size
        multiKeyStatusList := d.channelInfo.multiKeyStatusList.filter fun e => decide (e.1 < size) } }
  else d

/-- The statement of `Update` on `channels`. -/
def mergeStatement (d : ChannelData) : Table.Update Channel.id :=
  ⟨fun c => decide (c.id = d.id), d.mergeInto, fun _ _ => rfl⟩

/-- `Update`: write what is given, read the row back and rewrite its abilities. An error of reading
back is ignored, so for a missing row the request itself is taken for the channel. -/
def update (cfg : Config) (db : Db) (d : ChannelData) : Db :=
  if d.id = 0 then db
  else
    let d := completed cfg db d
    let channels := db.channels.exec (mergeStatement d)
    ⟨channels, updateAbilities db.abilities ((channels.get d.id).getD d.asRow)⟩

/-- The channel as `UpdateChannelStatus` changes it, and whether the abilities follow. -/
def withStatus (cfg : Config) (c : Channel) (usingKey : String) (status : Int) : Channel × Bool :=
  if c.channelInfo.isMultiKey then
    let c' := handlerMultiKeyUpdate cfg c usingKey status
    (c', decide (c.status ≠ c'.status))
  else ({ c with status := status }, true)

/-- `UpdateChannelStatus`. `SaveWithoutKey` refuses id 0; the deferred update of the abilities runs
all the same, with the status that was asked for. -/
def updateChannelStatus (cfg : Config) (db : Db) (cache : CacheLookup) (channelId : Int)
    (usingKey : String) (status : Int) : Db :=
  if cache.passes status then
    match db.channels.get channelId with
    | none => db
    | some c =>
      if c.status = status then db
      else
        let r := withStatus cfg c usingKey status
        ⟨if c.id = 0 then db.channels else db.channels.save r.1,
          if r.2 then updateAbilityStatus db.abilities channelId (decide (status = channelStatusEnabled))
          else db.abilities⟩
  else db

/-- `UPDATE channels SET status = ? WHERE tag = ?`. -/
def statusByTag (tag : String) (status : Int) : Table.Update Channel.id :=
  ⟨fun c => decide (c.tag = some tag), fun c => { c with status := status }, fun _ _ => rfl⟩

def enableChannelByTag (db : Db) (tag : String) : Db :=
  ⟨db.channels.exec (statusByTag tag channelStatusEnabled), updateAbilityStatusByTag db.abilities tag true⟩

def disableChannelByTag (db : Db) (tag : String) : Db :=
  ⟨db.channels.exec (statusByTag tag channelStatusManuallyDisabled), updateAbilityStatusByTag db.abilities tag false⟩

/-- The arguments of `EditChannelByTag` that concern abilities; none is a nil pointer. -/
structure TagEdit where
  newTag : Option String
  models : Option String
  group : Option String
  priority : Option Int
  weight : Option Nat
  deriving DecidableEq, Repr

namespace TagEdit

/-- A text that is given and not empty. -/
def given (text : Option String) : Bool := decide (text ≠ none ∧ text ≠ some "")

/-- Models or groups change, so the abilities are built anew. -/
def shouldReCreateAbilities (e : TagEdit) : Bool := given e.models || given e.group

/-- The tag that the channels have afterwards. -/
def updatedTag (e : TagEdit) (tag : String) : String := e.newTag.getD tag

/-- `Updates(updateData)` on one channel. -/
def applyTo (e : TagEdit) (tag : String) (c : Channel) : Channel :=
  { c with
    tag := if e.newTag ≠ none ∧ e.newTag ≠ some tag then e.newTag else c.tag
    models := if given e.models then e.models.getD "" else c.models
    group := if given e.group then e.group.getD "" else c.group
    priority := e.priority.getD c.priority
    weight := e.weight.getD c.weight }

def statement (e : TagEdit) (tag : String) : Table.Update Channel.id :=
  ⟨fun c => decide (c.tag = some tag), e.applyTo tag, fun _ _ => rfl⟩

end TagEdit

def editChannelByTag (db : Db) (tag : String) (e : TagEdit) : Db :=
  let channels := db.channels.exec (e.statement tag)
  if e.shouldReCreateAbilities then
    ⟨channels, (channels.rows.filter fun c => decide (c.tag = some (e.updatedTag tag))).foldl
      updateAbilities db.abilities⟩
  else ⟨channels, updateAbilityByTag db.abilities tag e.newTag e.priority e.weight⟩

/-- `UPDATE channels SET tag = ? WHERE id IN (?)`. -/
def tagByIds (ids : List Int) (tag : Option String) : Table.Update Channel.id :=
  ⟨fun c => decide (c.id ∈ ids), fun c => { c with tag := tag }, fun _ _ => rfl⟩

/-- `BatchSetChannelTag`. `GetChannelsByIds` reads outside the transaction, so it returns the rows
from before the tags were set. -/
def batchSetChannelTag (db : Db) (ids : List Int) (tag : Option String) : Db :=
  ⟨db.channels.exec (tagByIds ids tag),
    (db.channels.rows.filter fun c => decide (c.id ∈ ids)).foldl updateAbilities db.abilities⟩

/-- `Delete`; gorm refuses to delete without a condition, which is what id 0 would be. -/
def delete (db : Db) (id : Int) : Db :=
  if id = 0 then db
  else ⟨db.channels.delete fun c => decide (c.id = id), deleteAbilities db.abilities id⟩

def batchDeleteChannels (db : Db) (ids : List Int) : Db :=
  ⟨db.channels.delete fun c => decide (c.id ∈ ids), db.abilities.delete fun a => decide (a.channelId ∈ ids)⟩

def deleteChannelByStatus (db : Db) (status : Int) : Db :=
  { db with channels := db.channels.delete fun c => decide (c.status = status) }

def deleteDisabledChannel (db : Db) : Db :=
  { db with channels := db.channels.delete fun c =>
      decide (c.status = channelStatusAutoDisabled ∨ c.status = channelStatusManuallyDisabled) }

/-- `FixAbility`: the table is emptied and filled from all channels. -/
def fixAbility (db : Db) : Db :=
  { db with abilities := db.channels.rows.foldl addAbilities ⟨[], List.nodup_nil⟩ }

end Db

inductive Op where
  | insert (d : ChannelData)
  | batchInsertChannels (ds : List ChannelData)
  | update (d : ChannelData)
  | updateChannelStatus (cache : CacheLookup) (channelId : Int) (usingKey : String) (status : Int)
  | enableChannelByTag (tag : String)
  | disableChannelByTag (tag : String)
  | editChannelByTag (tag : String) (e : Db.TagEdit)
  | batchSetChannelTag (ids : List Int) (tag : Option String)
  | delete (id : Int)
  | batchDeleteChannels (ids : List Int)
  | deleteChannelByStatus (status : Int)
  | deleteDisabledChannel
  | fixAbility
  deriving DecidableEq, Repr

namespace Db

def step (cfg : Config) (db : Db) : Op → Db
  | .insert d => db.insert d
  | .batchInsertChannels ds => db.batchInsertChannels ds
  | .update d => db.update cfg d
  | .updateChannelStatus cache channelId usingKey status =>
    db.updateChannelStatus cfg cache channelId usingKey status
  | .enableChannelByTag tag => db.enableChannelByTag tag
  | .disableChannelByTag tag => db.disableChannelByTag tag
  | .editChannelByTag tag e => db.editChannelByTag tag e
  | .batchSetChannelTag ids tag => db.batchSetChannelTag ids tag
  | .delete id => db.delete id
  | .batchDeleteChannels ids => db.batchDeleteChannels ids
  | .deleteChannelByStatus status => db.deleteChannelByStatus status
  | .deleteDisabledChannel => db.deleteDisabledChannel
  | .fixAbility => db.fixAbility

def run (cfg : Config) (db : Db) (ops : List Op) : Db := ops.foldl (step cfg) db

end Db

end NewApi.Channels
