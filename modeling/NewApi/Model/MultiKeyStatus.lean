import NewApi.Lib.Run
import NewApi.Model.MultiKey

/-!
# Status changes of a multi-key channel (`model/channel.go`, `UpdateChannelStatus`)

With the memory cache on, a status change is applied to the cached copy and then to a freshly read
row.

* `Chan`, `handlerMultiKeyUpdate` — one copy of the channel, and the change of one key in it.
* `Copies`, `updateChannelStatus` — both copies, with the early exits between them.
* `AfterCall` — what should hold after a call: the copies agree, a channel without enabled keys is
  not enabled, and enabling a key enables the channel.
-/

namespace NewApi.MultiKey

open Lines

/-! ## One copy -/

/-- A multi-key channel as its status changes see it; the keys are never written. -/
structure Chan where
  status : Int
  statusList : IndexMap Int
  disabledTime : IndexMap Int
  disabledReason : IndexMap String
  /-- `status_reason` and `status_time` of the other information. -/
  statusInfo : Option (String × Int)

namespace Chan

/-- The status of a key; none recorded means enabled. -/
def keyStatus (c : Chan) (i : Nat) : Int := (c.statusList i).getD 1

end Chan

def hasEnabledMultiKey (keys : List Str) (statusList : IndexMap Int) : Bool :=
  (List.range keys.length).any fun i => decide ((statusList i).getD 1 = 1)

/-- The change of one key: an enabled one loses its entry, another gets one with reason and time. -/
def setKeyStatus (c : Chan) (i : Nat) (status : Int) (reason : String) (now : Int) : Chan :=
  if status = 1 then { c with statusList := Function.update c.statusList i none }
  else
    { c with
      statusList := Function.update c.statusList i (some status)
      disabledReason := Function.update c.disabledReason i (some reason)
      disabledTime := Function.update c.disabledTime i (some now) }

def handlerMultiKeyUpdate (keys : List Str) (c : Chan) (usingKey : Str) (status : Int)
    (reason : String) (now : Int) : Chan :=
  if keys = [] then { c with status := status }
  else
    match keys.findIdx? (· = usingKey) with
    | none =>
      if usingKey ≠ [] then c else { c with status := status, statusInfo := some (reason, now) }
    | some i =>
      let c := setKeyStatus c i status reason now
      if !hasEnabledMultiKey keys c.statusList then
        { c with status := 3, statusInfo := some ("All keys are disabled", now) }
      else if status = 1 then { c with status := 1 }
      else c

/-! ## Both copies -/

structure Copies where
  cache : Chan
  row : Chan

/-- Reading the row may fail, or saving it. -/
inductive StatusFault where
  | read
  | save
  deriving DecidableEq, Repr

/-- A call of `UpdateChannelStatus`, with the clock at its two changes. -/
structure StatusCall where
  usingKey : Str
  status : Int
  reason : String
  cacheTime : Int
  rowTime : Int
  fault : Option StatusFault
  deriving DecidableEq, Repr

/-- `UpdateChannelStatus` of a multi-key channel that is in the cache. -/
def updateChannelStatus (keys : List Str) (s : Copies) (call : StatusCall) : Copies :=
  let s := { s with
    cache := handlerMultiKeyUpdate keys s.cache call.usingKey call.status call.reason call.cacheTime }
  if call.fault = some .read then s
  else if s.row.status = call.status then s
  else if call.fault = some .save then s
  else { s with row := handlerMultiKeyUpdate keys s.row call.usingKey call.status call.reason call.rowTime }

/-! ## What a call should leave behind -/

/-- Equal statuses of the keys and of the channel. -/
def Agree (keys : List Str) (c c' : Chan) : Prop :=
  (∀ i < keys.length, c.keyStatus i = c'.keyStatus i) ∧ c.status = c'.status

/-- A channel without enabled keys is not enabled. -/
def NotEnabledWithoutKeys (keys : List Str) (c : Chan) : Prop :=
  (∀ i < keys.length, c.keyStatus i ≠ 1) → c.status ≠ 1

structure AfterCall (keys : List Str) (call : StatusCall) (s : Copies) : Prop where
  agree : Agree keys s.cache s.row
  cache : NotEnabledWithoutKeys keys s.cache
  row : NotEnabledWithoutKeys keys s.row
  enabled : call.status = 1 → s.cache.status = 1 ∧ s.row.status = 1

/-- The key has the status already, and so has the channel what it would get. -/
def Unchanged (keys : List Str) (c : Chan) (usingKey : Str) (status : Int) : Prop :=
  (∀ i ∈ keys.findIdx? (· = usingKey), c.keyStatus i = status) ∧
    if hasEnabledMultiKey keys c.statusList then status = 1 → c.status = 1 else c.status = 3

/-- The call gets as far as saving the row, or changes nothing. -/
def Reaches (keys : List Str) (s : Copies) (call : StatusCall) : Prop :=
  call.fault = none ∧ s.row.status ≠ call.status ∨ Unchanged keys s.row call.usingKey call.status

theorem hasEnabledMultiKey_iff (keys : List Str) (m : IndexMap Int) :
    hasEnabledMultiKey keys m = true ↔ ∃ i < keys.length, (m i).getD 1 = 1 := by
  simp [hasEnabledMultiKey]

variable {keys : List Str}

theorem hasEnabledMultiKey_congr {m m' : IndexMap Int}
    (h : ∀ i < keys.length, (m i).getD 1 = (m' i).getD 1) :
    hasEnabledMultiKey keys m = hasEnabledMultiKey keys m' := by
  rw [Bool.eq_iff_iff, hasEnabledMultiKey_iff, hasEnabledMultiKey_iff]
  exact exists_congr fun i => and_congr_right fun hi => by rw [h i hi]

theorem keyStatus_setKeyStatus (c : Chan) (i : Nat) (status : Int) (reason : String) (now : Int)
    (j : Nat) :
    (setKeyStatus c i status reason now).keyStatus j = if j = i then status else c.keyStatus j := by
  unfold setKeyStatus Chan.keyStatus
  split
  · rename_i hstatus
    by_cases hj : j = i
    · rw [if_pos hj, hj, hstatus]
      simp
    · simp [hj]
  by_cases hj : j = i
  · rw [if_pos hj, hj]
    simp
  · simp [hj]

theorem setKeyStatus_status (c : Chan) (i : Nat) (status : Int) (reason : String) (now : Int) :
    (setKeyStatus c i status reason now).status = c.status := by
  unfold setKeyStatus
  split <;> rfl

/-- **One copy after the change of a key**: this key has the status, the others have theirs, and the
channel is auto-disabled without enabled keys, enabled by an enabled key, and otherwise as it
was. -/
theorem handlerMultiKeyUpdate_spec {usingKey : Str} (hkey : usingKey ∈ keys) :
    ∃ i < keys.length, keys.findIdx? (· = usingKey) = some i ∧
      ∀ (c : Chan) (status : Int) (reason : String) (now : Int),
        (∀ j, (handlerMultiKeyUpdate keys c usingKey status reason now).keyStatus j =
          if j = i then status else c.keyStatus j) ∧
        (handlerMultiKeyUpdate keys c usingKey status reason now).status =
          if hasEnabledMultiKey keys (handlerMultiKeyUpdate keys c usingKey status reason now).statusList then
            (if status = 1 then 1 else c.status)
          else 3 := by
  have hne : keys ≠ [] := List.ne_nil_of_mem hkey
  rcases hfind : keys.findIdx? (· = usingKey) with _ | i
  · rw [List.findIdx?_eq_none_iff] at hfind
    exact absurd (hfind usingKey hkey) (by simp)
  have hi : i < keys.length := by
    obtain ⟨hlt, _⟩ := List.findIdx?_eq_some_iff_getElem.mp hfind
    exact hlt
  refine ⟨i, hi, rfl, fun c status reason now => ?_⟩
  have hkeyStatus := keyStatus_setKeyStatus c i status reason now
  have hstatus := setKeyStatus_status c i status reason now
  rw [handlerMultiKeyUpdate, if_neg hne, hfind]
  by_cases henabled : hasEnabledMultiKey keys (setKeyStatus c i status reason now).statusList = true
  · by_cases hone : status = 1
    · simp only [henabled, Bool.not_true, Bool.false_eq_true, if_false, if_pos hone, if_true]
      exact ⟨hkeyStatus, trivial⟩
    · simp only [henabled, Bool.not_true, Bool.false_eq_true, if_false, if_neg hone, if_true]
      exact ⟨hkeyStatus, hstatus⟩
  · simp only [henabled, Bool.not_false, if_true, Bool.false_eq_true, if_false]
    exact ⟨hkeyStatus, trivial⟩

section

variable {keys : List Str} {usingKey : Str}

section

variable (hkey : usingKey ∈ keys)

include hkey

theorem Agree.handler {c c' : Chan} (h : Agree keys c c') (status : Int) (reason : String)
    (now now' : Int) : Agree keys (handlerMultiKeyUpdate keys c usingKey status reason now)
      (handlerMultiKeyUpdate keys c' usingKey status reason now') := by
  obtain ⟨i, _, _, hspec⟩ := handlerMultiKeyUpdate_spec hkey
  obtain ⟨hkeys, hstatus⟩ := hspec c status reason now
  obtain ⟨hkeys', hstatus'⟩ := hspec c' status reason now'
  have hagree : ∀ j < keys.length, (handlerMultiKeyUpdate keys c usingKey status reason now).keyStatus j =
      (handlerMultiKeyUpdate keys c' usingKey status reason now').keyStatus j := by
    intro j hj
    rw [hkeys, hkeys', h.1 j hj]
  refine ⟨hagree, ?_⟩
  rw [hstatus, hstatus', hasEnabledMultiKey_congr hagree, h.2]

theorem agree_handler_iff (c : Chan) (status : Int) (reason : String) (now : Int) :
    Agree keys (handlerMultiKeyUpdate keys c usingKey status reason now) c ↔
      Unchanged keys c usingKey status := by
  obtain ⟨i, hi, hfind, hspec⟩ := handlerMultiKeyUpdate_spec hkey
  obtain ⟨hkeys, hstatus⟩ := hspec c status reason now
  have hindex : (∀ j ∈ keys.findIdx? (· = usingKey),
    c.keyStatus j = status) ↔ c.keyStatus i = status := by
    rw [hfind]
    simp
  rw [Unchanged, hindex]
  constructor
  · rintro ⟨hagree, hchannel⟩
    have hi' := hagree i hi
    rw [hkeys, if_pos rfl] at hi'
    refine ⟨hi'.symm, ?_⟩
    rw [← hasEnabledMultiKey_congr hagree]
    rw [hchannel] at hstatus
    split
    · rename_i henabled
      rw [if_pos henabled] at hstatus
      intro hone
      rwa [if_pos hone] at hstatus
    · rename_i henabled
      rwa [if_neg henabled] at hstatus
  · rintro ⟨hsame, hchannel⟩
    have hagree : ∀ j < keys.length, (handlerMultiKeyUpdate keys c usingKey status reason now).keyStatus j =
        c.keyStatus j := by
      intro j _
      rw [hkeys]
      split
      · rename_i hj
        rw [hj, hsame]
      · rfl
    refine ⟨hagree, ?_⟩
    rw [hstatus, hasEnabledMultiKey_congr hagree]
    split
    · rename_i henabled
      rw [if_pos henabled] at hchannel
      split
      · rename_i hone
        exact (hchannel hone).symm
      · rfl
    · rename_i henabled
      rw [if_neg henabled] at hchannel
      exact hchannel.symm

theorem notEnabled_handler (c : Chan) (status : Int) (reason : String) (now : Int) :
    NotEnabledWithoutKeys keys (handlerMultiKeyUpdate keys c usingKey status reason now) := by
  obtain ⟨i, _, _, hspec⟩ := handlerMultiKeyUpdate_spec hkey
  intro hnone
  have hnot : ¬ hasEnabledMultiKey keys (handlerMultiKeyUpdate keys c usingKey status reason now).statusList = true := by
    rw [hasEnabledMultiKey_iff]
    rintro ⟨j, hj, hone⟩
    exact hnone j hj hone
  rw [(hspec c status reason now).2, if_neg hnot]
  decide

theorem enabled_handler (c : Chan) (reason : String) (now : Int) :
    (handlerMultiKeyUpdate keys c usingKey 1 reason now).status = 1 := by
  obtain ⟨i, hi, _, hspec⟩ := handlerMultiKeyUpdate_spec hkey
  obtain ⟨hkeys, hstatus⟩ := hspec c 1 reason now
  have henabled : hasEnabledMultiKey keys (handlerMultiKeyUpdate keys c usingKey 1 reason now).statusList = true := by
    rw [hasEnabledMultiKey_iff]
    exact ⟨i, hi, (hkeys i).trans (if_pos rfl)⟩
  rw [hstatus, if_pos henabled, if_pos rfl]

end

theorem Agree.notEnabled {c c' : Chan} (h : Agree keys c c') (hc : NotEnabledWithoutKeys keys c) :
    NotEnabledWithoutKeys keys c' := by
  intro hnone
  rw [← h.2]
  exact hc fun i hi => by rw [h.1 i hi]; exact hnone i hi

end

/-! ## Calls and runs -/

theorem cache_updateChannelStatus (keys : List Str) (s : Copies) (call : StatusCall) :
    (updateChannelStatus keys s call).cache =
      handlerMultiKeyUpdate keys s.cache call.usingKey call.status call.reason call.cacheTime := by
  unfold updateChannelStatus
  simp only
  split
  · rfl
  split
  · rfl
  split <;> rfl

theorem row_updateChannelStatus (keys : List Str) (s : Copies) (call : StatusCall) :
    (updateChannelStatus keys s call).row =
      if call.fault = none ∧ s.row.status ≠ call.status then
        handlerMultiKeyUpdate keys s.row call.usingKey call.status call.reason call.rowTime
      else s.row := by
  obtain ⟨usingKey, status, reason, cacheTime, rowTime, fault⟩ := call
  unfold updateChannelStatus
  by_cases hstatus : s.row.status = status
  · cases fault with
    | none => simp [hstatus]
    | some f => cases f <;> simp
  cases fault with
  | none => simp [hstatus]
  | some f => cases f <;> simp

/-- **One call** on copies that agree: they still do exactly if the call reaches the row. -/
theorem agree_updateChannelStatus_iff {s : Copies} {call : StatusCall} (hkey : call.usingKey ∈ keys)
    (h : Agree keys s.cache s.row) :
    Agree keys (updateChannelStatus keys s call).cache (updateChannelStatus keys s call).row ↔
      Reaches keys s call := by
  rw [cache_updateChannelStatus, row_updateChannelStatus, Reaches]
  split
  · rename_i hsaved
    exact iff_of_true (h.handler hkey call.status call.reason call.cacheTime call.rowTime) (.inl hsaved)
  rename_i hnot
  rw [or_iff_right hnot, ← agree_handler_iff hkey s.row call.status call.reason call.cacheTime]
  have hcopies := h.handler hkey call.status call.reason call.cacheTime call.cacheTime
  constructor
  · rintro ⟨hkeys, hstatus⟩
    exact ⟨fun i hi => (hcopies.1 i hi).symm.trans (hkeys i hi), hcopies.2.symm.trans hstatus⟩
  · rintro ⟨hkeys, hstatus⟩
    exact ⟨fun i hi => (hcopies.1 i hi).trans (hkeys i hi), hcopies.2.trans hstatus⟩

theorem afterCall_iff {s : Copies} {call : StatusCall} (hkey : call.usingKey ∈ keys) :
    AfterCall keys call (updateChannelStatus keys s call) ↔
      Agree keys (updateChannelStatus keys s call).cache (updateChannelStatus keys s call).row := by
  constructor
  · exact AfterCall.agree
  intro h
  have hcache : NotEnabledWithoutKeys keys (updateChannelStatus keys s call).cache := by
    rw [cache_updateChannelStatus]
    exact notEnabled_handler hkey s.cache call.status call.reason call.cacheTime
  refine ⟨h, hcache, h.notEnabled hcache, fun hone => ?_⟩
  have hstatus : (updateChannelStatus keys s call).cache.status = 1 := by
    rw [cache_updateChannelStatus, hone]
    exact enabled_handler hkey s.cache call.reason call.cacheTime
  exact ⟨hstatus, h.2.symm.trans hstatus⟩

/-- **Runs of status changes** on a channel that equals its row: the copies agree, and the channel
is enabled by an enabled key and never without one, exactly if every call reaches the row. -/
theorem multiKeyStatus_runs_iff (keys : List Str) (start : Chan) (calls : List StatusCall)
    (hkeys : ∀ call ∈ calls, call.usingKey ∈ keys) :
    (∀ before call after, calls = before ++ call :: after →
      AfterCall keys call ((before ++ [call]).foldl (updateChannelStatus keys) ⟨start, start⟩)) ↔
    Guarded (updateChannelStatus keys) (Reaches keys) ⟨start, start⟩ calls := by
  -- along the run from any state in which the copies agree
  have hrun : ∀ (calls : List StatusCall) (s : Copies), (∀ call ∈ calls, call.usingKey ∈ keys) →
      Agree keys s.cache s.row →
      ((∀ before call after, calls = before ++ call :: after →
        AfterCall keys call ((before ++ [call]).foldl (updateChannelStatus keys) s)) ↔
      Guarded (updateChannelStatus keys) (Reaches keys) s calls) := by
    intro calls
    induction calls with
    | nil =>
      intro s _ _
      refine iff_of_true (fun before call after h => ?_) trivial
      exact absurd h (by simp)
    | cons c cs ih =>
      intro s hkeys hagree
      have hc : c.usingKey ∈ keys := hkeys c List.mem_cons_self
      have hcs : ∀ call ∈ cs, call.usingKey ∈ keys :=
        fun call h => hkeys call (List.mem_cons_of_mem _ h)
      constructor
      · intro hall
        have hfirst : AfterCall keys c (updateChannelStatus keys s c) := hall [] c cs rfl
        refine ⟨(agree_updateChannelStatus_iff hc hagree).mp hfirst.agree,
          (ih _ hcs hfirst.agree).mp ?_⟩
        intro before call after h
        exact hall (c :: before) call after (by rw [h]; rfl)
      rintro ⟨hreach, hrest⟩ before call after h
      have hagree' := (agree_updateChannelStatus_iff hc hagree).mpr hreach
      cases before with
      | nil =>
        cases h
        exact (afterCall_iff hc).mpr hagree'
      | cons b before =>
        cases h
        exact (ih _ hcs hagree').mpr hrest before call after rfl
  exact hrun calls ⟨start, start⟩ hkeys ⟨fun _ _ => rfl, rfl⟩

/-- Both keys of a channel are enabled, and it is. -/
def freshChan : Chan := ⟨1, fun _ => none, fun _ => none, fun _ => none, none⟩

def disableCall (key : Str) : StatusCall := ⟨key, 3, "", 0, 0, none⟩

def enableCall (key : Str) : StatusCall := ⟨key, 1, "", 0, 0, none⟩

theorem disabling_both_agrees : AfterCall ["a".toList, "b".toList] (disableCall "b".toList)
      ([disableCall "a".toList, disableCall "b".toList].foldl (updateChannelStatus ["a".toList, "b".toList])
        ⟨freshChan, freshChan⟩) :=
  (multiKeyStatus_runs_iff ["a".toList, "b".toList] freshChan [disableCall "a".toList, disableCall "b".toList]
    (by decide)).mpr
    ⟨.inl (by decide +kernel), .inl (by decide +kernel), trivial⟩ [disableCall "a".toList] _ [] rfl

/-- One key is disabled and enabled again: the channel stays enabled, so the second call returns
before it gets to the row. -/
theorem enabling_stays_in_cache :
    let s := [disableCall "a".toList, enableCall "a".toList].foldl (updateChannelStatus ["a".toList, "b".toList])
      ⟨freshChan, freshChan⟩
    s.cache.keyStatus 0 = 1 ∧ s.row.keyStatus 0 = 3 := by
  decide +kernel

end NewApi.MultiKey
