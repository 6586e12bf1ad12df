import NewApi.Lib.Lines
import NewApi.Lib.Text

/-!
# Keys of a multi-key channel (`model/channel.go`, `controller/channel.go`)

The keys of a channel are one text, a line each or a JSON array; status, time and reason of a key
are kept in maps by its position.

* `KeyRow`, `Entry`, `entries` — the columns of a channel row, and each key with what is recorded
  for it.
-/

namespace NewApi.MultiKey

open Lines List

/-! ## Reading keys -/

/-- `json.Unmarshal` into `[]json.RawMessage`: the raw texts of the elements. They stand in the text
between brackets and commas. -/
structure JsonArray where
  unmarshal : Str → Option (List Str)
  fits : ∀ (text : Str) (elements : List Str), unmarshal text = some elements →
    (elements.map List.length).sum + (elements.length - 1) + 2 ≤ text.length
  nonempty : ∀ (text : Str) (elements : List Str), unmarshal text = some elements → ∀ e ∈ elements, e ≠ []

/-- The elements of a text that starts as a JSON array and is one. -/
def JsonArray.keyArray (json : JsonArray) (text : Str) : Option (List Str) :=
  let trimmed := trimBoth Text.isSpace text
  if trimmed.head? = some '[' then json.unmarshal trimmed else none

/-- `GetKeys` of a row from the database, where `Keys` is not set. -/
def getKeys (json : JsonArray) (key : Str) : List Str :=
  if key = [] then []
  else
    match json.keyArray key with
    | some elements => elements
    | none => lines key

/-- The keys as `Update` counts them: an empty array is read as a line. -/
def updateKeys (json : JsonArray) (key : Str) : List Str :=
  if key = [] then []
  else
    match json.keyArray key with
    | some (e :: es) => e :: es
    | _ => lines key

/-! ## Rows -/

abbrev IndexMap (α : Type) := Nat → Option α

/-- The columns of a multi-key channel that the actions read and write. -/
structure KeyRow where
  key : Str
  multiKeySize : Int
  statusList : IndexMap Int
  disabledTime : IndexMap Int
  disabledReason : IndexMap String

/-- What is recorded for a key. -/
structure KeyData where
  status : Option Int
  time : Option Int
  reason : Option String
  deriving DecidableEq, Repr

/-- A key with its status, where none recorded means enabled, and what else is recorded. -/
structure Entry where
  key : Str
  status : Int
  time : Option Int
  reason : Option String
  deriving DecidableEq, Repr

def KeyRow.status (row : KeyRow) (i : Nat) : Int := (row.statusList i).getD 1

def KeyRow.entry (row : KeyRow) (key : Str) (i : Nat) : Entry :=
  ⟨key, row.status i, row.disabledTime i, row.disabledReason i⟩

def entries (json : JsonArray) (row : KeyRow) : List Entry :=
  (getKeys json row.key).zipIdx.map fun p => row.entry p.1 p.2

/-- `Updates` may fail, or `UpdateAbilities` after it. -/
inductive UpdateFault where
  | write (err : String)
  | abilities (err : String)
  deriving DecidableEq, Repr

/-- `Channel.Update` for the columns of a multi-key channel: an empty key is not written, and the
statuses beyond the last key are dropped. -/
def update (json : JsonArray) (stored channel : KeyRow) : KeyRow :=
  let keyStr := if channel.key ≠ [] then channel.key else stored.key
  let multiKeySize := (updateKeys json keyStr).length
  { key := keyStr
    multiKeySize := multiKeySize
    statusList := fun i => if multiKeySize ≤ i then none else channel.statusList i
    disabledTime := channel.disabledTime
    disabledReason := channel.disabledReason }

/-- A save with the message of its success. -/
def save (json : JsonArray) (stored channel : KeyRow) (fault : Option UpdateFault)
    (message : String) : KeyRow × Except String String :=
  match fault with
  | some (.write e) => (stored, .error e)
  | some (.abilities e) => (update json stored channel, .error e)
  | none => (update json stored channel, .ok message)

/-! ## Deletions -/

/-- `remainingKeys`, the new maps and `newIndex` of the loops. -/
structure Kept where
  keys : List Str
  statusList : IndexMap Int
  disabledTime : IndexMap Int
  disabledReason : IndexMap String
  newIndex : Nat

def Kept.empty : Kept := ⟨[], fun _ => none, fun _ => none, fun _ => none, 0⟩

/-- `m[i] = v` if there is a value. -/
def put {α : Type} (m : IndexMap α) (i : Nat) : Option α → IndexMap α
  | none => m
  | some v => Function.update m i (some v)

def Kept.push (kept : Kept) (key : Str) (data : KeyData) : Kept where
  keys := kept.keys ++ [key]
  statusList := put kept.statusList kept.newIndex data.status
  disabledTime := put kept.disabledTime kept.newIndex data.time
  disabledReason := put kept.disabledReason kept.newIndex data.reason
  newIndex := kept.newIndex + 1

/-- The loop over the keys: those to keep are appended with the data to keep. -/
def compact (keep : Nat → Bool) (data : Nat → KeyData) (keys : List Str) : Kept :=
  keys.zipIdx.foldl (fun kept p => if keep p.2 then kept.push p.1 (data p.2) else kept) Kept.empty

def Kept.channel (kept : Kept) : KeyRow where
  key := unlines kept.keys
  multiKeySize := kept.keys.length
  statusList := kept.statusList
  disabledTime := kept.disabledTime
  disabledReason := kept.disabledReason

/-- What `delete_key` keeps of the record of a key. -/
def KeyRow.recorded (row : KeyRow) (i : Nat) : KeyData :=
  ⟨(row.statusList i).filter (· ≠ 1), row.disabledTime i, row.disabledReason i⟩

def deleteKey (json : JsonArray) (row : KeyRow) (keyIndex : Option Int)
    (fault : Option UpdateFault) : KeyRow × Except String String :=
  match keyIndex with
  | none => (row, .error "未指定要删除的密钥索引")
  | some keyIndex =>
    if keyIndex < 0 ∨ row.multiKeySize ≤ keyIndex then (row, .error "密钥索引超出范围")
    else
      let kept := compact (fun i => decide ((i : Int) ≠ keyIndex)) row.recorded (getKeys json row.key)
      if kept.keys = [] then (row, .error "不能删除最后一个密钥")
      else save json row kept.channel fault "密钥已删除"

/-- What `delete_disabled_keys` keeps of the record of a key. -/
def KeyRow.recordedIfDisabled (row : KeyRow) (i : Nat) : KeyData :=
  if row.status i ≠ 1 then ⟨some (row.status i), row.disabledTime i, row.disabledReason i⟩ else ⟨none, none, none⟩

def deleteDisabledKeys (json : JsonArray) (row : KeyRow) (fault : Option UpdateFault) :
    KeyRow × Except String String :=
  let keys := getKeys json row.key
  let kept := compact (fun i => decide (row.status i ≠ 3)) row.recordedIfDisabled keys
  let deletedCount := (keys.zipIdx.filter fun p => decide (row.status p.2 = 3)).length
  if deletedCount = 0 then (row, .error "没有需要删除的自动禁用密钥")
  else save json row kept.channel fault ("已删除 " ++ toString deletedCount ++ " 个自动禁用的密钥")

/-! ## What the loop keeps -/

/-- The maps have nothing beyond the keys. -/
structure Kept.Ok (kept : Kept) : Prop where
  newIndex : kept.newIndex = kept.keys.length
  status : ∀ i, kept.keys.length ≤ i → kept.statusList i = none
  time : ∀ i, kept.keys.length ≤ i → kept.disabledTime i = none
  reason : ∀ i, kept.keys.length ≤ i → kept.disabledReason i = none

def Kept.data (kept : Kept) (i : Nat) : KeyData :=
  ⟨kept.statusList i, kept.disabledTime i, kept.disabledReason i⟩

def Kept.pairs (kept : Kept) : List (Str × KeyData) :=
  kept.keys.zipIdx.map fun p => (p.1, kept.data p.2)

theorem put_self {α : Type} {m : IndexMap α} {i : Nat} (h : m i = none) (v : Option α) :
    put m i v i = v := by
  cases v with
  | none => exact h
  | some v => exact Function.update_self i (some v) m

theorem put_of_ne {α : Type} (m : IndexMap α) {i j : Nat} (h : j ≠ i) (v : Option α) :
    put m i v j = m j := by
  cases v with
  | none => rfl
  | some v => exact Function.update_of_ne h (some v) m

variable {kept : Kept}

theorem Kept.Ok.push (h : kept.Ok) (key : Str) (data : KeyData) : (kept.push key data).Ok := by
  have hlength : (kept.push key data).keys.length = kept.keys.length + 1 := by simp [Kept.push]
  have hput : ∀ {α : Type} (m : IndexMap α) (v : Option α), (∀ i,
    kept.keys.length ≤ i → m i = none) →
      ∀ i, kept.keys.length + 1 ≤ i → put m kept.newIndex v i = none := by
    intro α m v hm i hi
    rw [put_of_ne m (by rw [h.newIndex]; omega)]
    exact hm i (by omega)
  constructor
  · show kept.newIndex + 1 = _
    rw [h.newIndex, hlength]
  · rw [hlength]
    exact hput _ _ h.status
  · rw [hlength]
    exact hput _ _ h.time
  · rw [hlength]
    exact hput _ _ h.reason

theorem Kept.Ok.pairs_push (h : kept.Ok) (key : Str) (data : KeyData) :
    (kept.push key data).pairs = kept.pairs ++ [(key, data)] := by
  have hold : ∀ p ∈ kept.keys.zipIdx, (p.1, (kept.push key data).data p.2) = (p.1,
    kept.data p.2) := by
    intro p hp
    have hlt : p.2 < kept.keys.length := by
      have := snd_lt_of_mem_zipIdx hp
      omega
    have hne : p.2 ≠ kept.newIndex := by
      rw [h.newIndex]
      omega
    simp only [Kept.data, Kept.push, put_of_ne _ hne]
  have hnew : (kept.push key data).data kept.keys.length = data := by
    have hindex := h.newIndex
    simp only [Kept.data, Kept.push]
    rw [← hindex, put_self (h.status _ hindex.ge), put_self (h.time _ hindex.ge),
      put_self (h.reason _ hindex.ge)]
  have hkeys : (kept.push key data).keys = kept.keys ++ [key] := rfl
  rw [Kept.pairs, Kept.pairs, hkeys, zipIdx_append, map_append]
  refine congrArg₂ (· ++ ·) (map_congr_left hold) ?_
  simpa using hnew

/-- **What the loop keeps**: the keys to keep in their order, each with its data. -/
theorem compact_pairs (keep : Nat → Bool) (data : Nat → KeyData) (keys : List Str) :
    (compact keep data keys).Ok ∧ (compact keep data keys).pairs =
      (keys.zipIdx.filter fun p => keep p.2).map fun p => (p.1, data p.2) := by
  have hloop : ∀ (ps : List (Str × Nat)) (kept : Kept), kept.Ok →
      (ps.foldl (fun kept p => if keep p.2 then kept.push p.1 (data p.2) else kept) kept).Ok ∧
      (ps.foldl (fun kept p => if keep p.2 then kept.push p.1 (data p.2) else kept) kept).pairs =
        kept.pairs ++ (ps.filter fun p => keep p.2).map fun p => (p.1, data p.2) := by
    intro ps
    induction ps with
    | nil =>
      intro kept hkept
      exact ⟨hkept, by simp⟩
    | cons p ps ih =>
      intro kept hkept
      rw [foldl_cons]
      by_cases hkeep : keep p.2 = true
      · obtain ⟨hok, hpairs⟩ := ih (kept.push p.1 (data p.2)) (hkept.push p.1 (data p.2))
        rw [if_pos hkeep, filter_cons_of_pos (p := fun q : Str × Nat => keep q.2) hkeep]
        refine ⟨hok, ?_⟩
        rw [hpairs, hkept.pairs_push, map_cons, append_assoc, singleton_append]
      · rw [if_neg hkeep, filter_cons_of_neg (p := fun q : Str × Nat => keep q.2) hkeep]
        exact ih kept hkept
  have hempty : Kept.empty.Ok := ⟨rfl, fun _ _ => rfl, fun _ _ => rfl, fun _ _ => rfl⟩
  exact hloop keys.zipIdx Kept.empty hempty

theorem keys_of_pairs (kept : Kept) : kept.pairs.map Prod.fst = kept.keys := by
  rw [Kept.pairs, map_map]
  exact zipIdx_map_fst 0 kept.keys

/-! ## What a save stores -/

def KeyData.entry (key : Str) (data : KeyData) : Entry :=
  ⟨key, data.status.getD 1, data.time, data.reason⟩

theorem keys_of_entries (json : JsonArray) (row : KeyRow) :
    (entries json row).map Entry.key = getKeys json row.key := by
  rw [entries, map_map]
  exact zipIdx_map_fst 0 _

theorem length_entries (json : JsonArray) (row : KeyRow) :
    (entries json row).length = (getKeys json row.key).length := by
  rw [entries, length_map, length_zipIdx]

variable {json : JsonArray}

theorem updateKeys_eq {key : Str} (h : getKeys json key ≠ []) :
    updateKeys json key = getKeys json key := by
  unfold updateKeys getKeys at *
  split
  · rfl
  rename_i hkey
  rw [if_neg hkey] at h
  rcases harray : json.keyArray key with _ | elements
  · rfl
  rw [harray] at h
  cases elements with
  | nil => exact absurd rfl h
  | cons e es => rfl

variable {row row' : KeyRow}

/-- **What is stored** if the joined text reads back: the kept keys with their data, and their
number. -/
theorem entries_update (hne : kept.keys ≠ [])
    (hkeys : getKeys json (update json row kept.channel).key = kept.keys) :
    entries json (update json row kept.channel) = kept.pairs.map (fun p => p.2.entry p.1) ∧
      (update json row kept.channel).multiKeySize = (entries json (update json row kept.channel)).length := by
  have hsize : (updateKeys json (update json row kept.channel).key).length = kept.keys.length := by
    rw [updateKeys_eq (by rw [hkeys]; exact hne), hkeys]
  constructor
  · rw [entries, hkeys, Kept.pairs, map_map]
    refine map_congr_left fun p hp => ?_
    have hlt : p.2 < kept.keys.length := by
      have := snd_lt_of_mem_zipIdx hp
      omega
    have hstatus : (update json row kept.channel).statusList p.2 = kept.statusList p.2 := by
      have hnot : ¬ (updateKeys json (update json row kept.channel).key).length ≤ p.2 := by omega
      exact if_neg hnot
    show Entry.mk _ _ _ _ = Entry.mk _ _ _ _
    rw [KeyRow.status, hstatus]
    rfl
  · rw [length_entries, hkeys, ← hsize]
    rfl

/-- Texts that are read back as keys after they were joined with line breaks. -/
def Rejoins (json : JsonArray) (texts : List Str) : Prop :=
  (∀ t ∈ texts, '\n' ∉ t) ∧ texts.head? ≠ some [] ∧ texts.getLast? ≠ some [] ∧ json.keyArray (unlines texts) = none

/-- The elements of an array are never the lines of its text: brackets have no place among them. -/
theorem keyArray_ne_lines {texts elements : List Str}
    (h : json.keyArray (unlines texts) = some elements) : elements ≠ texts := by
  rintro rfl
  simp only [JsonArray.keyArray] at h
  split at h
  · have hfits := json.fits _ _ h
    have hle := length_trimBoth_le Text.isSpace (unlines elements)
    rw [length_unlines] at hle
    omega
  · cases h

theorem getKeys_unlines_iff {texts : List Str} (hne : texts ≠ []) (hone : texts ≠ [[]]) :
    getKeys json (unlines texts) = texts ↔ Rejoins json texts := by
  have htext : unlines texts ≠ [] := fun h => hone ((unlines_eq_nil_iff hne).mp h)
  have hlines := lines_unlines_iff hne
  rw [getKeys, if_neg htext, Rejoins]
  cases harray : json.keyArray (unlines texts) with
  | none => tauto
  | some elements =>
    refine iff_of_false (keyArray_ne_lines harray) ?_
    rintro ⟨_, _, _, hnone⟩
    cases hnone

theorem ends_of_getKeys {key : Str} (h : getKeys json key ≠ [[]]) :
    (getKeys json key).head? ≠ some [] ∧ (getKeys json key).getLast? ≠ some [] := by
  unfold getKeys at *
  split at h
  · rename_i hkey
    rw [if_pos hkey]
    simp
  rename_i hkey
  rw [if_neg hkey]
  rcases harray : json.keyArray key with _ | elements
  · rw [harray] at h
    exact ends_of_lines h
  have hnonempty : ∀ e ∈ elements, e ≠ [] := by
    simp only [JsonArray.keyArray] at harray
    split at harray
    · exact json.nonempty _ _ harray
    · cases harray
  exact ⟨fun hhead => hnonempty [] (mem_of_mem_head? hhead) rfl,
    fun hlast => hnonempty [] (mem_of_getLast? hlast) rfl⟩

/-! ## The two actions -/

theorem zipIdx_filter_ne {α : Type} (l : List α) (n : Nat) :
    (l.zipIdx.filter fun p => decide (p.2 ≠ n)) = l.zipIdx.eraseIdx n := by
  have hgen : ∀ (l : List α) (k n : Nat),
      ((l.zipIdx k).filter fun p => decide (p.2 ≠ k + n)) = (l.zipIdx k).eraseIdx n := by
    intro l
    induction l with
    | nil =>
      intro k n
      simp
    | cons a l ih =>
      intro k n
      rw [zipIdx_cons]
      cases n with
      | zero =>
        rw [filter_cons_of_neg (by simp), eraseIdx_cons_zero, filter_eq_self]
        intro p hp
        have := le_snd_of_mem_zipIdx hp
        simp only [decide_eq_true_eq]
        omega
      | succ n =>
        rw [filter_cons_of_pos (by simp), eraseIdx_cons_succ, ← ih (k + 1) n]
        refine congrArg _ (filter_congr fun p _ => ?_)
        rw [show k + (n + 1) = k + 1 + n by omega]
  have h := hgen l 0 n
  rwa [Nat.zero_add] at h

theorem getKeys_update_iff (hne : kept.keys ≠ []) (hone : kept.keys ≠ [[]]) :
    getKeys json (update json row kept.channel).key = kept.keys ↔ Rejoins json kept.keys := by
  have htext : kept.channel.key ≠ [] := fun h => hone ((unlines_eq_nil_iff hne).mp h)
  have hkey : (update json row kept.channel).key = unlines kept.keys := if_pos htext
  rw [hkey]
  exact getKeys_unlines_iff hne hone

theorem key_update_of_empty (h : unlines kept.keys = []) :
    (update json row kept.channel).key = row.key := if_neg (not_not.mpr h)

theorem recorded_entry (row : KeyRow) (key : Str) (i : Nat) :
    (row.recorded i).entry key = row.entry key i := by
  have hstatus : ((row.statusList i).filter (· ≠ 1)).getD 1 = (row.statusList i).getD 1 := by
    rcases row.statusList i with _ | status
    · rfl
    by_cases h : status = 1
    · rw [h]
      rfl
    · rw [Option.filter_some_pos (by simpa using h)]
  simp only [KeyData.entry, KeyRow.recorded, KeyRow.entry, KeyRow.status, hstatus]

theorem recordedIfDisabled_entry_iff (row : KeyRow) (key : Str) (i : Nat) :
    (row.recordedIfDisabled i).entry key = row.entry key i ↔
      (row.status i = 1 → row.disabledTime i = none ∧ row.disabledReason i = none) := by
  unfold KeyRow.recordedIfDisabled
  by_cases h : row.status i = 1
  · rw [if_neg (not_not.mpr h)]
    simp only [KeyData.entry, KeyRow.entry, Option.getD_none, h, Entry.mk.injEq, true_and,
      forall_const]
    exact and_congr eq_comm eq_comm
  · rw [if_pos h]
    exact iff_of_true rfl fun h' => absurd h' h

/-- `delete_key` does what it says: the keys that are left rejoin, or there is nothing but one empty
key and nothing is deleted. -/
def DeletesKey (json : JsonArray) (row : KeyRow) (n : Nat) : Prop :=
  let left := (getKeys json row.key).eraseIdx n
  left = [[]] ∨ Rejoins json left

/-- The condition under which `delete_disabled_keys` does what it says. -/
def DeletesDisabled (json : JsonArray) (row : KeyRow) : Prop :=
  let left := ((entries json row).filter fun e => decide (e.status ≠ 3)).map Entry.key
  left ≠ [] ∧ left ≠ [[]] ∧ Rejoins json left ∧ ∀ e ∈ entries json row, e.status = 1 → e.time = none ∧ e.reason = none

/-- The stored row has the entries that are meant exactly if the joined keys read back and the data
kept are those that are meant. -/
theorem stored_iff {meant : List Entry} (hne : kept.keys ≠ [])
    (hkeys : meant.map Entry.key = kept.keys) :
    entries json (update json row kept.channel) = meant ∧
        (update json row kept.channel).multiKeySize = (entries json (update json row kept.channel)).length ↔
      getKeys json (update json row kept.channel).key = kept.keys ∧
      kept.pairs.map (fun p => p.2.entry p.1) = meant := by
  constructor
  · rintro ⟨hentries, _⟩
    have hread : getKeys json (update json row kept.channel).key = kept.keys := by
      rw [← keys_of_entries, hentries, hkeys]
    refine ⟨hread, ?_⟩
    rw [← (entries_update hne hread).1, hentries]
  · rintro ⟨hread, hpairs⟩
    obtain ⟨hentries, hsize⟩ := entries_update hne hread
    exact ⟨hentries.trans hpairs, hsize⟩

variable {fault : Option UpdateFault} {message : String}

theorem row_of_save {channel : KeyRow} {m : String}
    (h : save json row channel fault message = (row', .ok m)) : row' = update json row channel := by
  unfold save at h
  split at h
  · cases h
  · cases h
  · cases h
    rfl

theorem deleteKey_iff {keyIndex : Int}
    (h : deleteKey json row (some keyIndex) fault = (row', .ok message)) :
    entries json row' = (entries json row).eraseIdx keyIndex.toNat ∧
        row'.multiKeySize = (entries json row').length ↔ DeletesKey json row keyIndex.toNat := by
  simp only [deleteKey] at h
  split at h
  · cases h
  have hkeep : (fun i : Nat => decide ((i : Int) ≠ keyIndex)) = fun i => decide (i ≠ keyIndex.toNat) := by
    funext i
    rw [decide_eq_decide]
    omega
  rw [hkeep] at h
  split at h
  · cases h
  rename_i hne
  have hpairs := (compact_pairs (fun i => decide (i ≠ keyIndex.toNat)) row.recorded (getKeys json row.key)).2
  rw [zipIdx_filter_ne] at hpairs
  generalize compact (fun i => decide (i ≠ keyIndex.toNat)) row.recorded (getKeys json row.key) = kept at h hne hpairs
  rw [row_of_save h]
  have hkeys : kept.keys = (getKeys json row.key).eraseIdx keyIndex.toNat := by
    rw [← keys_of_pairs, hpairs, map_map, ← zipIdx_map_fst 0 (getKeys json row.key), eraseIdx_map,
      zipIdx_map_fst]
    rfl
  have hentry : kept.pairs.map (fun p => p.2.entry p.1) = (entries json row).eraseIdx keyIndex.toNat := by
    rw [hpairs, map_map, entries, eraseIdx_map]
    exact map_congr_left fun p _ => recorded_entry row p.1 p.2
  have hmeant : ((entries json row).eraseIdx keyIndex.toNat).map Entry.key = kept.keys := by
    rw [← eraseIdx_map, keys_of_entries, hkeys]
  rw [stored_iff hne hmeant, and_iff_left hentry, DeletesKey, ← hkeys]
  by_cases hone : kept.keys = [[]]
  · refine iff_of_true ?_ (.inl hone)
    -- one empty key can only be left if it was the only key
    have hempty : unlines kept.keys = [] := (unlines_eq_nil_iff hne).mpr hone
    rw [key_update_of_empty hempty, hone]
    by_contra hmore
    obtain ⟨hhead, hlast⟩ := ends_of_getKeys hmore
    rw [hkeys] at hone
    generalize getKeys json row.key = keys at hhead hlast hone hmore
    generalize keyIndex.toNat = n at hone
    match keys, n with
    | [], _ | [a], 0 | [a, b], n + 2 => simp at hone
    | [a], n + 1 => exact hmore (by simpa using hone)
    | [a, b], 0 => exact hlast (by simpa using hone)
    | [a, b], 1 => exact hhead (by simpa using hone)
    | a :: b :: c :: rest, n =>
      have hlength := congrArg length hone
      rw [length_eraseIdx] at hlength
      simp only [length_cons, length_nil] at hlength
      split at hlength <;> omega
  · rw [getKeys_update_iff hne hone, or_iff_right hone]

theorem deleteDisabledKeys_iff (h : deleteDisabledKeys json row fault = (row', .ok message)) :
    entries json row' = (entries json row).filter (fun e => decide (e.status ≠ 3)) ∧
        row'.multiKeySize = (entries json row').length ↔ DeletesDisabled json row := by
  simp only [deleteDisabledKeys] at h
  split at h
  · cases h
  have hpairs := (compact_pairs (fun i => decide (row.status i ≠ 3)) row.recordedIfDisabled (getKeys json row.key)).2
  generalize compact (fun i => decide (row.status i ≠ 3)) row.recordedIfDisabled (getKeys json row.key) = kept
    at h hpairs
  rw [row_of_save h]
  have hmeant : (entries json row).filter (fun e => decide (e.status ≠ 3)) =
      ((getKeys json row.key).zipIdx.filter fun p => decide (row.status p.2 ≠ 3)).map fun p => row.entry p.1 p.2 := by
    rw [entries, filter_map]
    rfl
  have hkeys : ((entries json row).filter (fun e => decide (e.status ≠ 3))).map Entry.key = kept.keys := by
    rw [hmeant, ← keys_of_pairs, hpairs, map_map, map_map]
    rfl
  have hfewer : kept.keys.length < (getKeys json row.key).length := by
    have hsplit := length_eq_length_filter_add (l := (getKeys json row.key).zipIdx) fun p =>
      decide (row.status p.2 ≠ 3)
    have hlength : kept.keys.length =
        ((getKeys json row.key).zipIdx.filter fun p => decide (row.status p.2 ≠ 3)).length := by
      rw [← keys_of_pairs, hpairs, length_map, length_map]
    have hnot : (fun p : Str × Nat => !decide (row.status p.2 ≠ 3)) = fun p => decide (row.status p.2 = 3) := by
      funext p
      simp
    rw [length_zipIdx, ← hlength, hnot] at hsplit
    omega
  have hdata : kept.pairs.map (fun p => p.2.entry p.1) = (entries json row).filter (fun e => decide (e.status ≠ 3)) ↔
      ∀ e ∈ entries json row, e.status = 1 → e.time = none ∧ e.reason = none := by
    rw [hmeant, hpairs, map_map, map_inj_left, entries, forall_mem_map]
    constructor
    · intro hall p hp hstatus
      have hne : row.status p.2 ≠ 3 := fun h3 => by
        have h1 : row.status p.2 = 1 := hstatus
        omega
      exact (recordedIfDisabled_entry_iff row p.1 p.2).mp
        (hall p (mem_filter.mpr ⟨hp, by simpa using hne⟩)) hstatus
    · intro hall p hp
      exact (recordedIfDisabled_entry_iff row p.1 p.2).mpr (hall p (mem_filter.mp hp).1)
  rw [DeletesDisabled, hkeys]
  by_cases hempty : unlines kept.keys = []
  · -- the stored key is not overwritten: the deleted keys come back
    refine iff_of_false ?_ ?_
    · rintro ⟨hentries, _⟩
      have hread := keys_of_entries json (update json row kept.channel)
      rw [hentries, hkeys, key_update_of_empty hempty] at hread
      rw [hread] at hfewer
      omega
    · rintro ⟨hne, hone, _⟩
      exact hone ((unlines_eq_nil_iff hne).mp hempty)
  · have hne : kept.keys ≠ [] := fun h => hempty (by rw [h]; rfl)
    have hone : kept.keys ≠ [[]] := fun h => hempty (by rw [h]; rfl)
    rw [stored_iff hne hkeys, getKeys_update_iff hne hone, hdata]
    tauto

/-- **The deletions of a multi-key channel** keep the other keys with their data: `delete_key`
exactly if the keys that are left rejoin, `delete_disabled_keys` exactly if besides some are left
and no enabled one has a time or reason.
-/
theorem multiKeyDeletes_iff (json : JsonArray) (row : KeyRow) (fault : Option UpdateFault) :
    (∀ keyIndex row' message, deleteKey json row (some keyIndex) fault = (row', .ok message) →
      (entries json row' = (entries json row).eraseIdx keyIndex.toNat ∧
        row'.multiKeySize = (entries json row').length ↔ DeletesKey json row keyIndex.toNat)) ∧
    ∀ row' message, deleteDisabledKeys json row fault = (row', .ok message) →
      (entries json row' = (entries json row).filter (fun e => decide (e.status ≠ 3)) ∧
        row'.multiKeySize = (entries json row').length ↔ DeletesDisabled json row) :=
  ⟨fun _ _ _ h => deleteKey_iff h, fun _ _ h => deleteDisabledKeys_iff h⟩

def noArrays : JsonArray := ⟨fun _ => none, fun _ _ h => (nomatch h), fun _ _ h => (nomatch h)⟩

def twoKeys : KeyRow :=
  ⟨"a\nb".toList, 2, fun i => if i = 1 then some 2 else none, fun i => if i = 1 then some 7 else none, fun _ => none⟩

theorem twoKeys_delete_first : (deleteKey noArrays twoKeys (some 0) none).2 = .ok "密钥已删除" ∧
      entries noArrays (deleteKey noArrays twoKeys (some 0) none).1 = [⟨"b".toList, 2, some 7, none⟩] := by
  have hok : (deleteKey noArrays twoKeys (some 0) none).2 = .ok "密钥已删除" := by decide +kernel
  refine ⟨hok, ?_⟩
  have hiff := (multiKeyDeletes_iff noArrays twoKeys none).1 0 (deleteKey noArrays twoKeys (some 0) none).1
    "密钥已删除" (Prod.ext rfl hok)
  refine (hiff.mpr ?_).1.trans (by decide +kernel)
  exact .inr ⟨by decide +kernel, by decide +kernel, by decide +kernel, rfl⟩

/-- Two keys that are both auto-disabled. -/
def deadKeys : KeyRow := ⟨"a\nb".toList, 2, fun i => if i < 2 then some 3 else none, fun _ => none, fun _ => none⟩

/-- Where all keys are auto-disabled, their deletion reports success, and both keys are back and
enabled. -/
theorem deleting_all_enables_all : (deleteDisabledKeys noArrays deadKeys none).2 = .ok "已删除 2 个自动禁用的密钥" ∧
      entries noArrays (deleteDisabledKeys noArrays deadKeys none).1 =
        [⟨"a".toList, 1, none, none⟩, ⟨"b".toList, 1, none, none⟩] := by
  decide +kernel

end NewApi.MultiKey
