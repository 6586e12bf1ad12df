import NewApi.Model.MultiKey

/-!
# Editing the keys of a multi-key channel (`controller/channel.go`, `UpdateChannel`)

An edit appends to the keys, replaces them or leaves them; the statuses stay at their positions.
-/

namespace NewApi.MultiKey

open Lines List

/-! ## The edit -/

/-- Decoding of a JSON array of Vertex keys: strings, and the compact encodings of the other
elements. -/
structure VertexJson extends JsonArray where
  decode : Str → Except String (List (Str ⊕ Str))

def getVertexArrayKeys (json : VertexJson) (keys : Str) : Except String (List Str) :=
  if keys = [] then .ok []
  else
    match json.decode keys with
    | .error e =>
      .error ("批量添加 Vertex AI 必须使用标准的JsonArray格式，例如[\x7bkey1\x7d, \x7bkey2\x7d...]，请检查输入: " ++ e)
    | .ok elements =>
      let texts := elements.map fun
        | .inl v => trimBoth Text.isSpace v
        | .inr encoded => encoded
      let cleanKeys := texts.filter fun t => decide (t ≠ [])
      if cleanKeys = [] then .error "批量添加 Vertex AI 的 keys 不能为空" else .ok cleanKeys

/-- The fields of a `PatchChannel` that decide on the keys. -/
structure Request where
  key : Str
  keyMode : Option String
  /-- A Vertex AI channel whose keys are not API keys. -/
  vertexJsonKeys : Bool
  deriving DecidableEq, Repr

/-- The existing keys as the append mode reads them: none of a text that starts as an array and is
not one. -/
def existingKeys (json : VertexJson) (key : Str) : List Str :=
  if (trimBoth Text.isSpace key).head? = some '[' then (json.unmarshal (trimBoth Text.isSpace key)).getD []
  else lines key

/-- The new keys of the append mode. -/
def suppliedKeys (json : VertexJson) (request : Request) : Except String (List Str) :=
  if request.vertexJsonKeys then
    if (trimBoth Text.isSpace request.key).head? = some '[' then
      match getVertexArrayKeys json request.key with
      | .error e => .error ("追加密钥解析失败: " ++ e)
      | .ok keys => .ok keys
    else .ok [request.key]
  else
    .ok (((request.key.splitOn '\n').map (trimBoth Text.isSpace)).filter fun t => decide (t ≠ []))

/-- The keys that are not empty and not seen before, without white space around them. -/
def dedupe (seen : List Str) : List Str → List Str
  | [] => []
  | key :: keys =>
    let normalized := trimBoth Text.isSpace key
    if normalized = [] ∨ normalized ∈ seen then dedupe seen keys
    else normalized :: dedupe (normalized :: seen) keys

/-- `allKeys` of the append mode. -/
def appendedKeys (json : VertexJson) (stored : Str) (newKeys : List Str) : List Str :=
  let existing := existingKeys json stored
  existing ++ dedupe (existing.map (trimBoth Text.isSpace)) newKeys

/-- `channel.Key` when it is saved. -/
def nextKeyText (json : VertexJson) (row : KeyRow) (request : Request) : Except String Str :=
  if request.keyMode = some "append" ∧ row.key ≠ [] then
    match suppliedKeys json request with
    | .error e => .error e
    | .ok newKeys => .ok (unlines (appendedKeys json row.key newKeys))
  else .ok request.key

/-- `UpdateChannel` of a multi-key channel; `refused` is an error of the checks before the keys are
looked at. -/
def updateChannel (json : VertexJson) (row : KeyRow) (request : Request) (refused : Option String)
    (fault : Option UpdateFault) : KeyRow × Except String String :=
  match refused with
  | some e => (row, .error e)
  | none =>
    match nextKeyText json row request with
    | .error e => (row, .error e)
    | .ok key => save json.toJsonArray row { row with key := key } fault ""

/-! ## Statuses and positions -/

/-- The key has this status, at one of its places. -/
def HasStatus (json : JsonArray) (row : KeyRow) (key : Str) (status : Int) : Prop :=
  ∃ i, (getKeys json row.key)[i]? = some key ∧ row.status i = status

/-- A key that was there before and still is has the status it had, and a new key is enabled. -/
def StatusesFollow (json : JsonArray) (row row' : KeyRow) : Prop :=
  (∀ key ∈ getKeys json row.key, key ∈ getKeys json row'.key → ∀ status,
    HasStatus json row' key status ↔ HasStatus json row key status) ∧
  ∀ key ∈ getKeys json row'.key, key ∉ getKeys json row.key → ∀ status, HasStatus json row' key status → status = 1

/-- Statuses by position, read for two lists of keys: a key in both has the same ones in both, and
the positions of a new key say that it is enabled. -/
def PositionsKeep (status : Nat → Int) (before after : List Str) : Prop :=
  (∀ key ∈ before, key ∈ after → ∀ s, (∃ j, after[j]? = some key ∧ status j = s) ↔
    ∃ i, before[i]? = some key ∧ status i = s) ∧
  ∀ j key, after[j]? = some key → key ∉ before → status j = 1

/-- When an append keeps the statuses. If the stored keys are read in full and the joined text is
read back, no disabled status may stand right behind the stored keys; otherwise the positions of the
text as it is read decide. -/
def AppendKeeps (json : VertexJson) (row : KeyRow) (newKeys : List Str) : Prop :=
  let old := getKeys json.toJsonArray row.key
  let all := appendedKeys json row.key newKeys
  (existingKeys json row.key = old ∧ Rejoins json.toJsonArray all →
    ∀ j, old.length ≤ j → j < all.length → row.status j = 1) ∧
  (¬ (existingKeys json row.key = old ∧ Rejoins json.toJsonArray all) → unlines all ≠ [] →
    PositionsKeep row.status old (getKeys json.toJsonArray (unlines all)))

/-- When an edit keeps the statuses: an append as above; a text that replaces the keys if each of
them stands where its status is; an empty text always. -/
def EditKeeps (json : VertexJson) (row : KeyRow) (request : Request) : Prop :=
  if request.keyMode = some "append" ∧ row.key ≠ [] then
    ∀ newKeys, suppliedKeys json request = .ok newKeys → AppendKeeps json row newKeys
  else request.key ≠ [] → PositionsKeep row.status (getKeys json.toJsonArray row.key)
    (getKeys json.toJsonArray request.key)

theorem status_update {json : JsonArray} {row channel : KeyRow} {i : Nat}
    (hi : i < (getKeys json (update json row channel).key).length) :
    (update json row channel).status i = channel.status i := by
  have hne : getKeys json (update json row channel).key ≠ [] := fun h => by
    rw [h] at hi
    exact absurd hi (Nat.not_lt_zero i)
  have hnot : ¬ (updateKeys json (update json row channel).key).length ≤ i := by
    rw [updateKeys_eq hne]
    omega
  have hlist : (update json row channel).statusList i = channel.statusList i := if_neg hnot
  rw [KeyRow.status, hlist]
  rfl

theorem row_of_updateChannel {json : VertexJson} {row row' : KeyRow} {request : Request}
    {refused : Option String} {fault : Option UpdateFault} {message : String}
    (h : updateChannel json row request refused fault = (row', .ok message)) :
    ∃ next, nextKeyText json row request = .ok next ∧
      row' = update json.toJsonArray row { row with key := next } := by
  unfold updateChannel at h
  split at h
  · cases h
  split at h
  · cases h
  · rename_i next hnext
    exact ⟨next, hnext, row_of_save h⟩

/-! ## Positions -/

theorem positionsKeep_append_iff (status : Nat → Int) {keys new : List Str}
    (hnew : ∀ key ∈ new, key ∉ keys) :
    PositionsKeep status keys (keys ++ new) ↔
      ∀ j, keys.length ≤ j → j < (keys ++ new).length → status j = 1 := by
  constructor
  · rintro ⟨_, hadded⟩ j hj hlt
    refine hadded j _ (getElem?_eq_getElem hlt) (hnew _ ?_)
    rw [getElem_append_right hj]
    exact getElem_mem _
  intro hstatus
  constructor
  · intro key hkey _ s
    constructor
    · rintro ⟨j, hj, hs⟩
      by_cases hlt : j < keys.length
      · rw [getElem?_append_left hlt] at hj
        exact ⟨j, hj, hs⟩
      · rw [getElem?_append_right (by omega)] at hj
        exact absurd hkey (hnew key (mem_of_getElem? hj))
    · rintro ⟨i, hi, hs⟩
      have hlt : i < keys.length := (List.getElem?_eq_some_iff.mp hi).1
      exact ⟨i, by rw [getElem?_append_left hlt]; exact hi, hs⟩
  · intro j key hj hnot
    by_cases hlt : j < keys.length
    · rw [getElem?_append_left hlt] at hj
      exact absurd (mem_of_getElem? hj) hnot
    exact hstatus j (by omega) (List.getElem?_eq_some_iff.mp hj).1

theorem positionsKeep_self (status : Nat → Int) (keys : List Str) :
    PositionsKeep status keys keys := by
  have h := (positionsKeep_append_iff status (show ∀ key ∈ [], key ∉ keys by simp)).mpr
  rw [append_nil] at h
  exact h fun j hle hlt => absurd hlt (by omega)

theorem not_mem_of_dedupe {old seen : List Str}
    (hseen : ∀ key ∈ old, trimBoth Text.isSpace key ∈ seen) (newKeys : List Str) :
    ∀ key ∈ dedupe seen newKeys, key ∉ old := by
  induction newKeys generalizing seen with
  | nil => simp [dedupe]
  | cons k ks ih =>
    simp only [dedupe]
    split
    · exact ih hseen
    rename_i hkept
    intro key hkey hold
    rcases mem_cons.mp hkey with rfl | hkey
    · have htrim := hseen _ hold
      rw [trimBoth_eq_self (head_trimBoth _ _) (last_trimBoth _ _)] at htrim
      exact hkept (.inr htrim)
    · exact ih (fun key hkey => mem_cons_of_mem _ (hseen key hkey)) key hkey hold

/-- The keys after an append, read from the joined text. -/
theorem positionsKeep_appended_iff (json : VertexJson) (row : KeyRow) (newKeys : List Str) :
    let next := unlines (appendedKeys json row.key newKeys)
    PositionsKeep row.status (getKeys json.toJsonArray row.key)
        (getKeys json.toJsonArray (if next ≠ [] then next else row.key)) ↔ AppendKeeps json row newKeys := by
  intro next
  by_cases hread : existingKeys json row.key = getKeys json.toJsonArray row.key ∧
      Rejoins json.toJsonArray (appendedKeys json row.key newKeys)
  · have hall : appendedKeys json row.key newKeys = getKeys json.toJsonArray row.key ++
        dedupe ((getKeys json.toJsonArray row.key).map (trimBoth Text.isSpace)) newKeys := by
      rw [appendedKeys, hread.1]
    have hkeys : getKeys json.toJsonArray (if next ≠ [] then next else row.key) =
        appendedKeys json row.key newKeys := by
      by_cases hnil : appendedKeys json row.key newKeys = []
      · have hold : getKeys json.toJsonArray row.key = [] :=
          (append_eq_nil_iff.mp (hall.symm.trans hnil)).1
        rw [if_neg (by simp [next, hnil, unlines]), hold, hnil]
      have hone : appendedKeys json row.key newKeys ≠ [[]] := fun h => hread.2.2.1 (by rw [h]; rfl)
      rw [if_pos (mt (unlines_eq_nil_iff hnil).mp hone)]
      exact (getKeys_unlines_iff hnil hone).mpr hread.2
    have hnew := not_mem_of_dedupe (fun key (hkey : key ∈ getKeys json.toJsonArray row.key) =>
      mem_map_of_mem hkey) newKeys
    have hiff := positionsKeep_append_iff row.status hnew
    rw [← hall] at hiff
    rw [hkeys, hiff, AppendKeeps]
    exact ⟨fun h => ⟨fun _ => h, fun hnot => absurd hread hnot⟩, fun h => h.1 hread⟩
  · have hiff : AppendKeeps json row newKeys ↔ (next ≠ [] →
        PositionsKeep row.status (getKeys json.toJsonArray row.key) (getKeys json.toJsonArray next)) :=
      ⟨fun h => h.2 hread, fun h => ⟨fun hgood => absurd hgood hread, fun _ => h⟩⟩
    rw [hiff]
    by_cases hnext : next = []
    · simpa [hnext] using positionsKeep_self _ _
    · simp [hnext]

/-- **Statuses after an edit of the keys.**  They follow the keys exactly if an append finds no
status behind the stored keys, and a replacement puts each key where its status is. -/
theorem keyEdit_statuses_iff (json : VertexJson) (row row' : KeyRow) (request : Request)
    (refused : Option String) (fault : Option UpdateFault) (message : String)
    (h : updateChannel json row request refused fault = (row', .ok message)) :
    StatusesFollow json.toJsonArray row row' ↔ EditKeeps json row request := by
  obtain ⟨next, hnext, rfl⟩ := row_of_updateChannel h
  let keys := getKeys json.toJsonArray (if next ≠ [] then next else row.key)
  -- statuses by position are the old ones wherever there is a key
  have hstatus : ∀ key s, HasStatus json.toJsonArray (update json.toJsonArray row { row with key := next }) key s ↔
      ∃ j, keys[j]? = some key ∧ row.status j = s := by
    intro key s
    refine exists_congr fun j => and_congr_right fun hj => ?_
    have hlt : j < keys.length := (List.getElem?_eq_some_iff.mp hj).1
    rw [status_update (by exact hlt)]
    rfl
  have hexact : StatusesFollow json.toJsonArray row (update json.toJsonArray row { row with key := next }) ↔
      PositionsKeep row.status (getKeys json.toJsonArray row.key) keys := by
    unfold StatusesFollow PositionsKeep
    simp only [hstatus]
    refine and_congr Iff.rfl ?_
    constructor
    · intro hnew j key hj hnot
      exact hnew key (mem_of_getElem? hj) hnot _ ⟨j, hj, rfl⟩
    · rintro hnew key _ hnot s ⟨j, hj, rfl⟩
      exact hnew j key hj hnot
  rw [hexact]
  simp only [nextKeyText] at hnext
  unfold EditKeeps
  split at hnext
  · rename_i happend
    rw [if_pos happend]
    split at hnext
    · cases hnext
    rename_i newKeys hsupplied
    cases hnext
    refine (positionsKeep_appended_iff json row newKeys).trans ?_
    rw [hsupplied]
    simp
  · rename_i hreplace
    rw [if_neg hreplace]
    cases hnext
    by_cases hempty : request.key = []
    · simpa [keys, hempty] using positionsKeep_self _ _
    · simp [keys, hempty]

def noVertex : VertexJson := ⟨noArrays, fun _ => .error ""⟩

theorem twoKeys_append : (updateChannel noVertex twoKeys ⟨"c".toList, some "append", false⟩ none none).2 = .ok "" ∧
      StatusesFollow noVertex.toJsonArray twoKeys
        (updateChannel noVertex twoKeys ⟨"c".toList, some "append", false⟩ none none).1 := by
  have hok : (updateChannel noVertex twoKeys ⟨"c".toList, some "append", false⟩ none none).2 = .ok "" := by decide +kernel
  refine ⟨hok, (keyEdit_statuses_iff noVertex twoKeys _ ⟨"c".toList, some "append", false⟩ none none ""
    (Prod.ext rfl hok)).mpr ?_⟩
  have hsupplied : suppliedKeys noVertex ⟨"c".toList, some "append", false⟩ = .ok ["c".toList] := by decide +kernel
  rw [EditKeeps, if_pos (by decide), hsupplied]
  rintro _ ⟨⟩
  refine ⟨fun _ j hj hlt => ?_,
    fun hnot => absurd ⟨by decide +kernel, by rw [Rejoins]; decide +kernel⟩ hnot⟩
  -- the only status is recorded at position 1
  have hold : (getKeys noVertex.toJsonArray twoKeys.key).length = 2 := by decide +kernel
  rw [hold] at hj
  show (twoKeys.statusList j).getD 1 = 1
  rw [show twoKeys.statusList j = none from if_neg (by omega)]
  rfl

/-- The keys in the other order: the disabled status stays at the position of the first one. -/
theorem reordering_moves_statuses :
    (updateChannel noVertex twoKeys ⟨"b\na".toList, some "replace", false⟩ none none).2 = .ok "" ∧
      ¬ StatusesFollow noVertex.toJsonArray twoKeys
        (updateChannel noVertex twoKeys ⟨"b\na".toList, some "replace", false⟩ none none).1 := by
  refine ⟨by decide +kernel, fun hfollow => ?_⟩
  obtain ⟨i, hi, hstatus⟩ := (hfollow.1 "b".toList (by decide +kernel) (by decide +kernel) 1).mp
    ⟨0, by decide +kernel, by decide +kernel⟩
  match i with
  | 0 | i + 2 => cases hi
  | 1 => cases hstatus

end NewApi.MultiKey
