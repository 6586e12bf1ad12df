import NewApi.Service.ClaudeStream

/-!
# Well-formed Claude streams

What a Claude stream must look like, as a monitor over its events, and when the converter's events
keep to it.
-/

namespace NewApi.ClaudeStream

open List

/-! ## The monitor -/

/-- What has been seen of a stream. -/
structure Stream where
  begun : Bool
  ended : Bool
  /-- The index that the next block must have. -/
  next : Int
  /-- The blocks that are started and not stopped. -/
  opened : List (Int × BlockType)
  deriving DecidableEq, Repr

namespace Stream

def initial : Stream := ⟨false, false, 0, []⟩

/-- The stream after the event; `none` when the event must not come here. -/
def accept (st : Stream) : Event → Option Stream
  | .messageStart .. => if st.begun then none else some { st with begun := true }
  | .contentBlockStart index block =>
    if st.begun ∧ ¬ st.ended ∧ index = st.next then
      some { st with next := st.next + 1, opened := (index, block.type) :: st.opened }
    else none
  | .contentBlockDelta index delta =>
    if st.begun ∧ ¬ st.ended ∧ (index, delta.type) ∈ st.opened then some st else none
  | .contentBlockStop index =>
    if st.begun ∧ ¬ st.ended ∧ index ∈ st.opened.map Prod.fst then
      some { st with opened := st.opened.filter fun b => decide (b.1 ≠ index) }
    else none
  | .messageDelta .. => if st.begun ∧ ¬ st.ended then some st else none
  | .messageStop => if st.begun ∧ ¬ st.ended ∧ st.opened = [] then some { st with ended := true } else none

/-- Between `message_start` and `message_stop`. -/
def Running (st : Stream) : Prop := st.begun = true ∧ st.ended = false

end Stream

/-- A complete stream: every event is accepted and the last one ends it. -/
def WellFormed (evs : List Event) : Prop :=
  ∃ st, acceptAll Stream.accept .initial evs = some st ∧ st.ended = true

instance (evs : List Event) : Decidable (WellFormed evs) :=
  match h : acceptAll Stream.accept .initial evs with
  | none => .isFalse fun ⟨_, hst, _⟩ => by rw [h] at hst; cases hst
  | some st =>
    if hended : st.ended = true then .isTrue ⟨st, h, hended⟩
    else .isFalse fun ⟨st', hst, he⟩ => by
      rw [h] at hst
      cases hst
      exact hended he

namespace Stream

theorem accept_messageStart {id model : String} {tokens : Int} :
    initial.accept (.messageStart id model tokens) = some ⟨true, false, 0, []⟩ := rfl

variable {st : Stream}

section

variable (h : st.Running)

include h

theorem accept_start (block : ContentBlock) : st.accept (.contentBlockStart st.next block) =
      some { st with next := st.next + 1, opened := (st.next, block.type) :: st.opened } := by
  simp only [accept]
  rw [if_pos ⟨h.1, by simp [h.2], trivial⟩]

theorem accept_delta {index : Int} {delta : BlockDelta} (hopen : (index, delta.type) ∈ st.opened) :
    st.accept (.contentBlockDelta index delta) = some st := by
  simp only [accept]
  rw [if_pos ⟨h.1, by simp [h.2], hopen⟩]

theorem accept_stop {index : Int} (hopen : index ∈ st.opened.map Prod.fst) :
    st.accept (.contentBlockStop index) =
      some { st with opened := st.opened.filter fun b => decide (b.1 ≠ index) } := by
  simp only [accept]
  rw [if_pos ⟨h.1, by simp [h.2], hopen⟩]

theorem accept_messageDelta (usage : ClaudeUsage) (reason : String) :
    st.accept (.messageDelta usage reason) = some st := by
  simp only [accept]
  rw [if_pos ⟨h.1, by simp [h.2]⟩]

theorem accept_messageStop (hopen : st.opened = []) :
    st.accept .messageStop = some { st with ended := true } := by
  simp only [accept]
  rw [if_pos ⟨h.1, by simp [h.2], hopen⟩]

theorem acceptAll_stops {indices : List Int} (hnodup : indices.Nodup)
    (hopen : ∀ index ∈ indices, index ∈ st.opened.map Prod.fst) :
    acceptAll accept st (indices.map generateStopBlock) =
      some { st with opened := st.opened.filter fun b => decide (b.1 ∉ indices) } := by
  induction indices generalizing st with
  | nil => simp [acceptAll]
  | cons index indices ih =>
    obtain ⟨hfresh, hnodup⟩ := nodup_cons.mp hnodup
    rw [map_cons, generateStopBlock, acceptAll_cons (accept_stop h (hopen index mem_cons_self)), ih]
    · simp only [filter_filter]
      congr 2
      refine filter_congr fun b _ => ?_
      simp [Bool.and_comm]
    · exact h
    · exact hnodup
    intro i hi
    obtain ⟨b, hb, rfl⟩ := mem_map.mp (hopen i (mem_cons_of_mem _ hi))
    refine mem_map_of_mem (mem_filter.mpr ⟨hb, ?_⟩)
    rw [decide_eq_true_eq]
    rintro rfl
    exact hfresh hi

end

theorem exists_complete (h : st.begun = true ∨ st = initial) :
    ∃ rest st', acceptAll accept st rest = some st' ∧ st'.ended = true := by
  rcases h with hbegun | rfl
  · by_cases hended : st.ended = true
    · exact ⟨[], st, rfl, hended⟩
    have hrunning : st.Running := ⟨hbegun, by simpa using hended⟩
    have hstops := acceptAll_stops hrunning (nodup_dedup (st.opened.map Prod.fst))
      fun index hindex => mem_dedup.mp hindex
    have hempty : (st.opened.filter fun b => decide (b.1 ∉ (st.opened.map Prod.fst).dedup)) = [] := by
      rw [filter_eq_nil_iff]
      intro b hb
      simpa using ⟨b.2, hb⟩
    rw [hempty] at hstops
    refine ⟨(st.opened.map Prod.fst).dedup.map generateStopBlock ++ [.messageStop],
      ⟨st.begun, true, st.next, []⟩, ?_, rfl⟩
    have hclosed : (⟨st.begun, st.ended, st.next, []⟩ : Stream).Running := hrunning
    rw [acceptAll_append hstops, acceptAll_cons (accept_messageStop hclosed rfl)]
    rfl
  · exact ⟨[.messageStart "" "" 0, .messageStop], ⟨true, true, 0, []⟩, rfl, rfl⟩

end Stream

/-! ## The delta protocol and the open run -/

/-- The tool calls of a chunk from position `i` on, after `seen` tool calls of the stream have been
named: a name comes with the next index, and without a name the index has been seen. The number seen
after them. -/
def seenAfter (seen : Nat) : Nat → List ToolCallResponse → Option Nat
  | _, [] => some seen
  | i, toolCall :: rest =>
    if toolCall.name ≠ "" then
      if toolCall.offset i = seen then seenAfter (seen + 1) (i + 1) rest else none
    else if 0 ≤ toolCall.offset i ∧ toolCall.offset i < seen then seenAfter seen (i + 1) rest else none

/-- **The delta protocol**: a tool index first appears with a name, indices count from 0, later
deltas for it carry no name. -/
def DeltaProtocol : Nat → List Call → Prop
  | _, [] => True
  | seen, call :: calls =>
    match seenAfter seen 0 call.chunk.toolCalls with
    | none => False
    | some seen' => DeltaProtocol seen' calls

instance DeltaProtocol.decidable :
    ∀ (seen : Nat) (calls : List Call), Decidable (DeltaProtocol seen calls)
  | _, [] => .isTrue trivial
  | seen, call :: calls =>
    match h : seenAfter seen 0 call.chunk.toolCalls with
    | none => .isFalse (by simp [DeltaProtocol, h])
    | some seen' =>
      have := DeltaProtocol.decidable seen' calls
      decidable_of_iff (DeltaProtocol seen' calls) (by simp [DeltaProtocol, h])

/-- How many tool blocks the open run has: none when the last block is another one. -/
def openTools (info : Info) : Nat :=
  if info.lastMessagesType = .tools then (info.toolCallMaxIndexOffset + 1).toNat else 0

/-- The tool calls of a chunk that is converted after the first one continue the open run: counted
from the blocks of the run, they obey the delta protocol. -/
def Keeps (info : Info) (call : Call) : Prop :=
  match call.chunk.choices with
  | [] => True
  | choice :: _ =>
    info.done = true ∨ info.sendResponseCount = 0 ∨ (choice.finish.isSome ∧ call.chunk.usage = none) ∨
      (seenAfter (openTools info) 0 choice.delta.toolCalls).isSome

instance (info : Info) (call : Call) : Decidable (Keeps info call) :=
  match h : call.chunk.choices with
  | [] => .isTrue (by simp [Keeps, h])
  | choice :: _ =>
    decidable_of_iff (info.done = true ∨ info.sendResponseCount = 0 ∨ (choice.finish.isSome ∧ call.chunk.usage = none) ∨
      (seenAfter (openTools info) 0 choice.delta.toolCalls).isSome) (by simp [Keeps, h])

/-! ## The converter and the monitor -/

/-- The open blocks are those that the converter believes to be open. -/
def Matches (info : Info) (st : Stream) : Prop :=
  match info.lastMessagesType with
  | .none => st.opened = [] ∧ st.next = info.index
  | .text => st.opened = [(info.index, .text)] ∧ st.next = info.index + 1
  | .thinking => st.opened = [(info.index, .thinking)] ∧ st.next = info.index + 1
  | .tools => 0 ≤ info.toolCallMaxIndexOffset ∧ st.next = info.toolCallBaseIndex + info.toolCallMaxIndexOffset + 1 ∧
    ∀ b, b ∈ st.opened ↔ info.toolCallBaseIndex ≤ b.1 ∧
      b.1 ≤ info.toolCallBaseIndex + info.toolCallMaxIndexOffset ∧ b.2 = .toolUse

/-- The monitor accepts the events, and afterwards `R` holds of converter and monitor. -/
abbrev Accepts (R : Info → Stream → Prop) (st : Stream) (x : Info × List Event) : Prop :=
  ∃ st', acceptAll Stream.accept st x.2 = some st' ∧ R x.1 st'

/-- The stream is running, and its open blocks are those of the converter. -/
abbrev Live (info : Info) (st : Stream) : Prop := st.Running ∧ Matches info st

variable {st : Stream} {info : Info}

section

variable (hrunning : st.Running)

include hrunning

theorem accept_stopOpenBlocks (h : Matches info st) :
    acceptAll Stream.accept st (stopOpenBlocks info) = some { st with opened := [] } := by
  unfold Matches at h
  unfold stopOpenBlocks
  cases hlast : info.lastMessagesType with
  | none =>
    rw [hlast] at h
    simp only [acceptAll, ← h.1]
  | text | thinking =>
    rw [hlast] at h
    have hstop := Stream.acceptAll_stops hrunning (nodup_singleton info.index) (by simp [h.1])
    simpa [h.1] using hstop
  | tools =>
    rw [hlast] at h
    obtain ⟨hpos, _, hopen⟩ := h
    let indices := (range (info.toolCallMaxIndexOffset + 1).toNat).map fun offset : Nat =>
      info.toolCallBaseIndex + (offset : Int)
    have hmem : ∀ index, index ∈ indices ↔ info.toolCallBaseIndex ≤ index ∧
        index ≤ info.toolCallBaseIndex + info.toolCallMaxIndexOffset := by
      intro index
      simp only [indices, mem_map, mem_range]
      constructor
      · rintro ⟨offset, hlt, rfl⟩
        omega
      · intro hindex
        exact ⟨(index - info.toolCallBaseIndex).toNat, by omega, by omega⟩
    have hnodup : indices.Nodup := nodup_range.map fun a b hab => by
      have : (a : Int) = b := by simpa using hab
      exact_mod_cast this
    have hstop := Stream.acceptAll_stops hrunning hnodup fun index hindex =>
      mem_map.mpr ⟨(index, .toolUse), (hopen _).mpr ⟨((hmem index).mp hindex).1, ((hmem index).mp hindex).2, rfl⟩,
        rfl⟩
    have hempty : (st.opened.filter fun b => decide (b.1 ∉ indices)) = [] := by
      rw [filter_eq_nil_iff]
      intro b hb
      obtain ⟨hlow, hhigh, _⟩ := (hopen b).mp hb
      simpa using (hmem b.1).mpr ⟨hlow, hhigh⟩
    rw [hempty, map_map] at hstop
    simpa only [Function.comp_def] using hstop

theorem accept_advance (h : Matches info st) :
    acceptAll Stream.accept st (stopOpenBlocksAndAdvance info).2 = some { st with opened := [] } ∧
      (stopOpenBlocksAndAdvance info).1.lastMessagesType = .none ∧
      st.next = (stopOpenBlocksAndAdvance info).1.index := by
  have hstop := accept_stopOpenBlocks hrunning h
  unfold Matches at h
  unfold stopOpenBlocksAndAdvance
  cases hlast : info.lastMessagesType with
  | none =>
    rw [hlast] at h
    exact ⟨by simp only [acceptAll, ← h.1], hlast, h.2⟩
  | text | thinking =>
    rw [hlast] at h
    exact ⟨hstop, rfl, h.2⟩
  | tools =>
    rw [hlast] at h
    exact ⟨hstop, rfl, h.2.1⟩

theorem accept_endMessage (hopen : st.opened = []) (usage : Option Usage) (reason : String) :
    acceptAll Stream.accept st (endMessage usage reason) = some { st with ended := true } := by
  have hstop : acceptAll Stream.accept st [.messageStop] = some { st with ended := true } := by
    rw [acceptAll_cons (Stream.accept_messageStop hrunning hopen)]
    rfl
  cases usage with
  | none => exact hstop
  | some u =>
    show acceptAll Stream.accept st (.messageDelta _ reason :: [.messageStop]) = _
    rw [acceptAll_cons (Stream.accept_messageDelta hrunning _ _), hstop]

theorem accept_finish (h : Matches info st) (usage : Option Usage) (reason : String) :
    acceptAll Stream.accept st (stopOpenBlocks info ++ endMessage usage reason) =
      some { st with opened := [], ended := true } := by
  rw [acceptAll_append (accept_stopOpenBlocks hrunning h)]
  have hclosed : ({ st with opened := [] } : Stream).Running := hrunning
  exact accept_endMessage hclosed rfl usage reason

end

/-! ## Text and thinking -/

theorem matches_prose {kind : Prose} (hlast : info.lastMessagesType = kind.messageType) :
    Matches info st ↔ st.opened = [(info.index, kind.block.type)] ∧ st.next = info.index + 1 := by
  unfold Matches
  rw [hlast]
  cases kind <;> rfl

theorem type_delta (kind : Prose) (s : String) : (kind.delta s).type = kind.block.type := by
  cases kind <;> rfl

theorem accept_startProse {advanced : Info × List Event} {st₁ : Stream}
    (hadvanced : acceptAll Stream.accept st advanced.2 = some st₁) (hrunning : st₁.Running)
    (hopen : st₁.opened = []) (hnext : st₁.next = advanced.1.index) (kind : Prose) (s : String) :
    Accepts Live st (startProse advanced kind s) := by
  let st' : Stream := { st₁ with next := st₁.next + 1, opened := (st₁.next, kind.block.type) :: st₁.opened }
  have hstart : st₁.accept (.contentBlockStart advanced.1.index kind.block) = some st' :=
    hnext ▸ Stream.accept_start hrunning kind.block
  have hdelta : st'.accept (.contentBlockDelta advanced.1.index (kind.delta s)) = some st' := by
    have hrunning' : st'.Running := hrunning
    refine Stream.accept_delta hrunning' ?_
    rw [type_delta, ← hnext]
    exact mem_cons_self
  refine ⟨st', ?_, hrunning, ?_⟩
  · simp only [startProse]
    rw [acceptAll_append hadvanced, acceptAll_cons hstart, acceptAll_cons hdelta]
    rfl
  rw [matches_prose (rfl : _ = kind.messageType)]
  show (st₁.next, kind.block.type) :: st₁.opened = _ ∧ st₁.next + 1 = advanced.1.index + 1
  rw [hopen, hnext]
  exact ⟨rfl, rfl⟩

theorem accept_continueProse (hrunning : st.Running) (h : Matches info st) (kind : Prose)
    (s : String) : Accepts Live st (continueProse info kind s) := by
  unfold continueProse
  by_cases hlast : info.lastMessagesType = kind.messageType
  · rw [if_neg (not_not.mpr hlast)]
    obtain ⟨hopen, _⟩ := (matches_prose hlast).mp h
    refine ⟨st, ?_, hrunning, h⟩
    rw [acceptAll_cons (Stream.accept_delta hrunning (by rw [type_delta, hopen]; exact mem_cons_self))]
    rfl
  · rw [if_pos hlast]
    obtain ⟨haccept, _, hnext⟩ := accept_advance hrunning h
    exact accept_startProse haccept hrunning rfl hnext kind s

/-! ## Tool calls -/

/-- The run has `n` blocks from `base` on, all open. -/
def RunOf (base : Int) (n : Nat) (st : Stream) : Prop :=
  st.Running ∧ st.next = base + n ∧ ∀ b, b ∈ st.opened ↔ base ≤ b.1 ∧ b.1 < base + n ∧ b.2 = .toolUse

variable {n : Nat} {base : Int}

theorem accept_inputJson (h : RunOf base n st) {offset : Int}
    (hlow : 0 ≤ offset) (hhigh : offset < n) (arguments : String) :
    acceptAll Stream.accept st (inputJson (base + offset) arguments) = some st := by
  unfold inputJson
  split
  · have hopen : (base + offset, (BlockDelta.inputJsonDelta arguments).type) ∈ st.opened :=
      (h.2.2 _).mpr ⟨by show base ≤ base + offset; omega, by show base + offset < base + n; omega, rfl⟩
    rw [acceptAll_cons (Stream.accept_delta h.1 hopen)]
    rfl
  · rfl

theorem runOf_start (h : RunOf base n st) (id name : String) :
    ∃ st', st.accept (.contentBlockStart (base + n) (.toolUse id name)) = some st' ∧
      RunOf base (n + 1) st' := by
  obtain ⟨hrunning, hnext, hopen⟩ := h
  have hstart := Stream.accept_start hrunning (.toolUse id name)
  rw [hnext] at hstart
  refine ⟨_, hstart, hrunning, ?_, ?_⟩
  · show base + n + 1 = base + (n + 1 : Nat)
    omega
  rintro ⟨index, type⟩
  rw [mem_cons, hopen, Prod.mk.injEq]
  show index = base + n ∧ type = .toolUse ∨ _ ↔ base ≤ index ∧ index < base + (n + 1 : Nat) ∧ type = .toolUse
  constructor
  · rintro (⟨hindex, htype⟩ | ⟨hlow, hhigh, htype⟩)
    · exact ⟨by omega, by omega, htype⟩
    · exact ⟨hlow, by omega, htype⟩
  rintro ⟨hlow, hhigh, htype⟩
  by_cases hindex : index = base + n
  · exact .inl ⟨hindex, htype⟩
  · exact .inr ⟨hlow, by omega, htype⟩

theorem accept_toolCallEvents {m : Nat} (h : RunOf base n st) {i : Nat}
    {toolCall : ToolCallResponse} {rest : List ToolCallResponse}
    (hseen : seenAfter n i (toolCall :: rest) = some m) :
    ∃ st' n', acceptAll Stream.accept st (toolCallEvents base i toolCall) = some st' ∧
      RunOf base n' st' ∧
      seenAfter n' (i + 1) rest = some m ∧ 0 ≤ toolCall.offset i ∧ toolCall.offset i < n' ∧
      (n' = n ∨ n' = n + 1 ∧ toolCall.offset i = n) := by
  simp only [seenAfter] at hseen
  simp only [toolCallEvents]
  split at hseen
  · rename_i hname
    by_cases hoffset : toolCall.offset i = n
    · rw [if_pos hoffset] at hseen
      obtain ⟨st', hstart, hrun⟩ := runOf_start h toolCall.id toolCall.name
      refine ⟨st', n + 1, ?_, hrun, hseen, by omega, by omega, .inr ⟨rfl, hoffset⟩⟩
      rw [if_pos hname, hoffset, singleton_append, acceptAll_cons hstart]
      exact accept_inputJson hrun (by omega) (by omega) _
    · rw [if_neg hoffset] at hseen
      cases hseen
  · rename_i hname
    by_cases hoffset : 0 ≤ toolCall.offset i ∧ toolCall.offset i < n
    · rw [if_pos hoffset] at hseen
      refine ⟨st, n, ?_, h, hseen, hoffset.1, hoffset.2, .inl rfl⟩
      rw [if_neg hname, nil_append]
      exact accept_inputJson h hoffset.1 hoffset.2 _
    · rw [if_neg hoffset] at hseen
      cases hseen

variable {toolCalls : List ToolCallResponse}

theorem accept_toolCallLoop :
    ∀ {n m i : Nat} {maxOffset : Int} {st : Stream}, RunOf base n st →
      seenAfter n i toolCalls = some m →
      0 ≤ maxOffset → (n = 0 ∧ maxOffset = 0 ∨ maxOffset + 1 = n) →
      ∃ st', acceptAll Stream.accept st (toolCallLoop base i maxOffset toolCalls).2 = some st' ∧
        RunOf base m st' ∧ 0 ≤ (toolCallLoop base i maxOffset toolCalls).1 ∧
        (m = 0 ∨ (toolCallLoop base i maxOffset toolCalls).1 + 1 = m) := by
  induction toolCalls with
  | nil =>
    intro n m i maxOffset st h hseen hpos hmax
    cases hseen
    refine ⟨st, rfl, h, hpos, ?_⟩
    rcases hmax with ⟨hn, _⟩ | hmax
    · exact .inl hn
    · exact .inr hmax
  | cons toolCall rest ih =>
    intro n m i maxOffset st h hseen hpos hmax
    obtain ⟨st₁, n', haccept, hrun, hrest, hlow, hlt, hgrow⟩ := accept_toolCallEvents h hseen
    -- the offset is the largest one exactly when the block is new
    have hmax' : (if toolCall.offset i > maxOffset then toolCall.offset i else maxOffset) + 1 = n' := by
      split <;> omega
    obtain ⟨st', hloop, hrun', hpos', hm⟩ := ih hrun hrest (by split <;> omega) (.inr hmax')
    refine ⟨st', ?_, hrun', hpos', hm⟩
    simp only [toolCallLoop]
    rw [acceptAll_append haccept, hloop]

theorem seenAfter_le : ∀ {n m i : Nat}, seenAfter n i toolCalls = some m → n ≤ m := by
  induction toolCalls with
  | nil =>
    intro n m i h
    cases h
    exact le_refl n
  | cons toolCall rest ih =>
    intro n m i h
    simp only [seenAfter] at h
    split at h
    · split at h
      · exact (Nat.le_succ n).trans (ih h)
      · cases h
    split at h
    · exact ih h
    · cases h

theorem seenAfter_zero_pos (hne : toolCalls ≠ []) {m i : Nat}
    (h : seenAfter 0 i toolCalls = some m) : 0 < m := by
  rcases toolCalls with _ | ⟨toolCall, rest⟩
  · exact absurd rfl hne
  simp only [seenAfter] at h
  split at h
  · split at h
    · exact seenAfter_le h
    · cases h
  split at h
  · omega
  · cases h

theorem matches_tools (hrunning : st.Running)
    (hlast : info.lastMessagesType = .tools) (hpos : 0 ≤ info.toolCallMaxIndexOffset) :
    Matches info st ↔ RunOf info.toolCallBaseIndex (info.toolCallMaxIndexOffset + 1).toNat st := by
  unfold Matches RunOf
  rw [hlast]
  have hcount : ((info.toolCallMaxIndexOffset + 1).toNat : Int) = info.toolCallMaxIndexOffset + 1 := by omega
  simp only [hcount, hpos, true_and, hrunning]
  refine and_congr (by constructor <;> intro h <;> omega) (forall_congr' fun b => ?_)
  have hhigh : b.1 ≤ info.toolCallBaseIndex + info.toolCallMaxIndexOffset ↔
      b.1 < info.toolCallBaseIndex + (info.toolCallMaxIndexOffset + 1) := by omega
  rw [hhigh]

theorem accept_convertToolCalls (hrunning : st.Running) (h : Matches info st) (hne : toolCalls ≠ [])
    (hkeeps : (seenAfter (openTools info) 0 toolCalls).isSome) :
    Accepts Live st (convertToolCalls info toolCalls) := by
  obtain ⟨m, hm⟩ := Option.isSome_iff_exists.mp hkeeps
  unfold openTools at hm
  -- what the loop returns is the new run
  have hdone : ∀ {info' : Info} {st' : Stream}, info'.lastMessagesType = .tools → 0 ≤ info'.toolCallMaxIndexOffset →
      info'.toolCallMaxIndexOffset + 1 = m → RunOf info'.toolCallBaseIndex m st' → Matches info' st' := by
    intro info' st' hlast hpos hmax hrun
    have hcount : (info'.toolCallMaxIndexOffset + 1).toNat = m := by omega
    exact (matches_tools hrun.1 hlast hpos).mpr (hcount ▸ hrun)
  unfold convertToolCalls
  split at hm
  · rename_i hlast
    simp only [hlast, ne_eq, not_true_eq_false, if_false, nil_append]
    have hpos : 0 ≤ info.toolCallMaxIndexOffset := by
      unfold Matches at h
      rw [hlast] at h
      exact h.1
    obtain ⟨st', hloop, hrun, hpos', hmax⟩ :=
      accept_toolCallLoop ((matches_tools hrunning hlast hpos).mp h) hm hpos
      (.inr (by omega))
    have hm' := seenAfter_le hm
    exact ⟨st', hloop, hrun.1, hdone rfl hpos' (hmax.resolve_left (by omega)) hrun⟩
  · rename_i hlast
    simp only [hlast, ne_eq, not_false_eq_true, if_true]
    obtain ⟨haccept, _, hnext⟩ := accept_advance hrunning h
    have hempty : RunOf (stopOpenBlocksAndAdvance info).1.index 0 { st with opened := [] } := by
      refine ⟨hrunning, by simpa using hnext, fun b => ?_⟩
      constructor
      · intro hb
        cases hb
      · intro hb
        omega
    obtain ⟨st', hloop, hrun, hpos', hmax⟩ :=
      accept_toolCallLoop hempty hm (le_refl 0) (.inl ⟨rfl, rfl⟩)
    have hm' := seenAfter_zero_pos hne hm
    refine ⟨st', ?_, hrun.1, hdone rfl hpos' (hmax.resolve_left (by omega)) hrun⟩
    rw [acceptAll_append haccept, hloop]

/-! ## Steps -/

/-- The states of converter and monitor after some calls: once the converter is done the stream has
ended. -/
def InStep (info : Info) (st : Stream) : Prop :=
  (info = Info.initial info.estimatePromptTokens ∧ st = .initial) ∨
    (0 < info.sendResponseCount ∧ st.begun = true ∧ st.ended = info.done ∧ (info.done = false → Matches info st))

theorem accept_convertDelta (hrunning : st.Running) (h : Matches info st)
    {d : ChoiceDelta} (hkeeps : (seenAfter (openTools info) 0 d.toolCalls).isSome) :
    Accepts Live st (convertDelta info d) := by
  unfold convertDelta
  split
  · rename_i hne
    exact accept_convertToolCalls hrunning h hne hkeeps
  cases proseOf d with
  | none => exact ⟨st, rfl, hrunning, h⟩
  | some p => exact accept_continueProse hrunning h p.1 p.2

/-! ## The first chunk -/

theorem accept_firstToolCall (hrunning : st.Running) (h : Matches info st)
    (hlast : info.lastMessagesType = .none) (hindex : info.index = 0)
    (toolCalls : List ToolCallResponse) :
    ∃ st', acceptAll Stream.accept st (firstToolCall info toolCalls).2 = some st' ∧ st'.Running ∧
      Matches (firstToolCall info toolCalls).1 st' ∧
      ∀ kind : Prose, (firstToolCall info toolCalls).1.lastMessagesType ≠ kind.messageType := by
  have hempty : RunOf 0 0 st := by
    unfold Matches at h
    rw [hlast, hindex] at h
    refine ⟨hrunning, by simpa using h.2, fun b => ?_⟩
    rw [h.1]
    constructor
    · intro hb
      cases hb
    · intro hb
      omega
  rcases toolCalls with _ | ⟨toolCall, rest⟩
  · exact ⟨st, rfl, hrunning, h, fun kind => by rw [firstToolCall, hlast]; cases kind <;> decide⟩
  obtain ⟨st', hstart, hrun⟩ := runOf_start hempty toolCall.id toolCall.name
  refine ⟨st', ?_, hrun.1, (matches_tools hrun.1 rfl (le_refl 0)).mpr hrun, fun kind => ?_⟩
  · simp only [firstToolCall]
    rw [acceptAll_cons (by simpa using hstart)]
    exact accept_inputJson hrun (le_refl (0 : Int)) (by decide) toolCall.arguments
  · show LastMessageType.tools ≠ _
    cases kind <;> decide

theorem accept_firstProse (hrunning : st.Running) (h : Matches info st)
    (hlast : ∀ kind : Prose, info.lastMessagesType ≠ kind.messageType) (d : ChoiceDelta) :
    Accepts Live st (firstProse info d) := by
  unfold firstProse
  rcases proseOf d with _ | p
  · exact ⟨st, rfl, hrunning, h⟩
  obtain ⟨haccept, _, hnext⟩ := accept_advance hrunning h
  have hrunning' : ({ st with opened := [] } : Stream).Running := hrunning
  simp only [if_pos (hlast p.1)]
  exact accept_startProse haccept hrunning' rfl hnext p.1 p.2

/-! ## One call -/

theorem accept_firstChunk (tokens : Int) (usage : Option Usage) (chunk : Chunk) :
    let info : Info := { Info.initial tokens with sendResponseCount := 1, usage := usage }
    Accepts InStep .initial (firstChunk info chunk) := by
  intro info
  let begun : Stream := ⟨true, false, 0, []⟩
  have hrunning : begun.Running := ⟨rfl, rfl⟩
  have hmatches : Matches info begun := ⟨rfl, rfl⟩
  unfold firstChunk
  cases chunk.choices with
  | nil => exact ⟨begun, rfl, .inr ⟨Nat.one_pos, rfl, rfl, fun _ => hmatches⟩⟩
  | cons choice _ =>
    obtain ⟨st₁, htools, hrunning₁, hmatches₁, hlast⟩ :=
      accept_firstToolCall hrunning hmatches rfl rfl choice.delta.toolCalls
    obtain ⟨st₂, hprose, hrunning₂, hmatches₂⟩ :=
      accept_firstProse hrunning₁ hmatches₁ hlast choice.delta
    obtain ⟨hcount₁, hdone₁⟩ := sameCall_firstToolCall info choice.delta.toolCalls
    obtain ⟨hcount₂, hdone₂⟩ :=
      sameCall_firstProse (firstToolCall info choice.delta.toolCalls).1 choice.delta
    have hcount : (firstProse (firstToolCall info choice.delta.toolCalls).1 choice.delta).1.sendResponseCount = 1 :=
      hcount₂.trans hcount₁
    have hdone : (firstProse (firstToolCall info choice.delta.toolCalls).1 choice.delta).1.done = false :=
      hdone₂.trans hdone₁
    have hbody : acceptAll Stream.accept .initial (.messageStart chunk.id chunk.model info.estimatePromptTokens ::
        ((firstToolCall info choice.delta.toolCalls).2 ++
          (firstProse (firstToolCall info choice.delta.toolCalls).1 choice.delta).2)) = some st₂ := by
      rw [acceptAll_cons Stream.accept_messageStart, acceptAll_append htools, hprose]
    simp only [firstFinish]
    cases choice.finish with
    | none =>
      rw [append_nil]
      refine ⟨st₂, hbody, .inr ⟨?_, hrunning₂.1, hrunning₂.2.trans hdone.symm, fun _ => hmatches₂⟩⟩
      show 0 < _
      rw [hcount]
      exact Nat.one_pos
    | some reason =>
      refine ⟨{ st₂ with opened := [], ended := true }, ?_,
        .inr ⟨?_, hrunning₂.1, rfl, fun hfalse => ?_⟩⟩
      · rw [← cons_append, acceptAll_append hbody]
        exact accept_finish hrunning₂ hmatches₂ _ _
      · show 0 < _
        rw [hcount]
        exact Nat.one_pos
      · cases hfalse

theorem accept_laterChunk (hcount : 0 < info.sendResponseCount)
    (hdone : info.done = false) (hrunning : st.Running) (h : Matches info st) {chunk : Chunk}
    {choice : Choice} (hkeeps : (choice.finish.isSome ∧ chunk.usage = none) ∨
      (seenAfter (openTools info) 0 choice.delta.toolCalls).isSome) :
    Accepts InStep st (laterChunk info chunk choice) := by
  unfold laterChunk
  cases hfinish : choice.finish with
  | none =>
    have hseen := hkeeps.resolve_left fun hleft => by simp [hfinish] at hleft
    obtain ⟨st', haccept, hrunning', hmatches⟩ := accept_convertDelta hrunning h hseen
    obtain ⟨hsame, hsameDone⟩ := sameCall_convertDelta info choice.delta
    refine ⟨st', haccept, .inr ⟨hsame ▸ hcount, hrunning'.1, ?_, fun _ => hmatches⟩⟩
    rw [hrunning'.2, hsameDone, hdone]
  | some reason =>
    rcases husage : chunk.usage with _ | usage
    · exact ⟨st, rfl, .inr ⟨hcount, hrunning.1, hrunning.2.trans hdone.symm, fun _ => h⟩⟩
    have hseen := hkeeps.resolve_left fun hleft => by simp [husage] at hleft
    let noted : Info := { info with finishReason := reason }
    have hnoted : Matches noted st := h
    obtain ⟨st', haccept, hrunning', hmatches⟩ := accept_convertDelta hrunning hnoted hseen
    obtain ⟨hsame, _⟩ := sameCall_convertDelta noted choice.delta
    refine ⟨{ st' with opened := [], ended := true }, ?_,
      .inr ⟨?_, hrunning'.1, rfl, fun hfalse => ?_⟩⟩
    · simp only [append_assoc]
      rw [acceptAll_append haccept]
      exact accept_finish hrunning' hmatches _ _
    · show 0 < (convertDelta noted choice.delta).1.sendResponseCount
      rw [hsame]
      exact hcount
    · cases hfalse

theorem accept_usageChunk (hcount : 0 < info.sendResponseCount)
    (hdone : info.done = false) (hrunning : st.Running) (h : Matches info st) (chunk : Chunk) :
    Accepts InStep st (usageChunk info chunk) := by
  unfold usageChunk
  cases chunk.usage.or info.usage with
  | none => exact ⟨st, rfl, .inr ⟨hcount, hrunning.1, hrunning.2.trans hdone.symm, fun _ => h⟩⟩
  | some usage =>
    refine ⟨{ st with opened := [], ended := true }, accept_finish hrunning h _ _,
      .inr ⟨hcount, hrunning.1, rfl, fun hfalse => ?_⟩⟩
    cases hfalse

theorem accept_step {call : Call} (hkeeps : Keeps info call) (h : InStep info st) :
    Accepts InStep st (step info call) := by
  rcases h with ⟨hinfo, rfl⟩ | ⟨hcount, hbegun, hended, hmatches⟩
  · rw [hinfo]
    exact accept_firstChunk info.estimatePromptTokens call.usage call.chunk
  let counted : Info := { info with sendResponseCount := info.sendResponseCount + 1, usage := call.usage }
  have hcounted : 0 < counted.sendResponseCount := Nat.succ_pos _
  simp only [step, streamResponseOpenAI2Claude]
  by_cases hdone : info.done = true
  · rw [if_pos hdone]
    refine ⟨st, rfl, .inr ⟨hcounted, hbegun, hended, fun hfalse => ?_⟩⟩
    rw [hdone] at hfalse
    cases hfalse
  have hfalse : info.done = false := by simpa using hdone
  have hrunning : st.Running := ⟨hbegun, hended.trans hfalse⟩
  have hmatches' : Matches counted st := hmatches hfalse
  rw [if_neg hdone, if_neg (by omega)]
  unfold Keeps at hkeeps
  rcases hchoices : call.chunk.choices with _ | ⟨choice, _⟩
  · exact accept_usageChunk hcounted hfalse hrunning hmatches' call.chunk
  rw [hchoices] at hkeeps
  rcases hkeeps with hdone' | hzero | hkeeps
  · exact absurd hdone' hdone
  · omega
  · exact accept_laterChunk hcounted hfalse hrunning hmatches' hkeeps

/-- **Well-formed events**: for every stream in which each chunk after the first keeps its tool
calls in the open run of tool blocks, the events are a prefix of a well-formed Claude stream. -/
theorem events_extend_to_wellFormed (tokens : Int) {calls : List Call}
    (hkeeps : Guarded (fun info call => (step info call).1) Keeps (.initial tokens) calls) :
    ∃ rest, WellFormed (events tokens calls ++ rest) := by
  obtain ⟨st, haccept, hinstep⟩ := Guarded.accepted (fun _ _ _ hok hR => accept_step hok hR) hkeeps
    (.inl ⟨rfl, rfl⟩ : InStep (.initial tokens) .initial)
  have hbegun : st.begun = true ∨ st = .initial := by
    rcases hinstep with ⟨_, hst⟩ | ⟨_, hst, _⟩
    · exact .inr hst
    · exact .inl hst
  obtain ⟨rest, st', hrest, hended⟩ := Stream.exists_complete hbegun
  exact ⟨rest, st', (acceptAll_append haccept).trans hrest, hended⟩

/-- Text, two parallel tool calls, and the end. -/
def sampleCalls : List Call :=
  [sampleCall "Hi" [] none none, sampleCall "" [⟨some 0, "a", "f", ""⟩] none none,
    sampleCall "" [⟨some 1, "b", "g", "1"⟩, ⟨some 0, "", "", "2"⟩] none none,
    sampleCall "" [] (some "tool_calls") none, ⟨⟨"id", "model", [], some ⟨1, 1, 0, 0, 0, 0⟩⟩, none⟩]

theorem sample_events_extend :
    DeltaProtocol 0 sampleCalls ∧
      Guarded (fun info call => (step info call).1) Keeps (.initial 7) sampleCalls ∧
      ∃ rest, WellFormed (events 7 sampleCalls ++ rest) := by
  have hkeeps : Guarded (fun info call => (step info call).1) Keeps (.initial 7) sampleCalls := by decide +kernel
  exact ⟨by decide +kernel, hkeeps, events_extend_to_wellFormed 7 hkeeps⟩

theorem not_wellFormed_of_rejected {evs : List Event}
    (h : acceptAll Stream.accept .initial evs = none) (rest : List Event) :
    ¬ WellFormed (evs ++ rest) := by
  have happend : ∀ {st : Stream} {es : List Event}, acceptAll Stream.accept st es = none →
      acceptAll Stream.accept st (es ++ rest) = none := by
    intro st es
    induction es generalizing st with
    | nil => intro hnone; cases hnone
    | cons e es ih =>
      intro hnone
      simp only [acceptAll, cons_append] at hnone ⊢
      cases hnext : st.accept e with
      | none => rfl
      | some st' =>
        rw [hnext] at hnone
        exact ih hnone
  rintro ⟨st, hst, _⟩
  rw [happend h] at hst
  cases hst

/-- Three streams that obey the delta protocol and become what no Claude stream starts with: a later
delta for the second tool call of the first chunk, tool deltas after text, and a named tool call
beside a finish reason without usage. -/
theorem tool_runs_break_the_stream :
    (DeltaProtocol 0 [sampleCall "" [⟨some 0, "a", "f", ""⟩, ⟨some 1, "b", "g", ""⟩] none none,
        sampleCall "" [⟨some 1, "", "", "1"⟩] none none] ∧
      ∀ rest, ¬ WellFormed (events 7 [sampleCall "" [⟨some 0, "a", "f", ""⟩, ⟨some 1, "b", "g", ""⟩] none none,
        sampleCall "" [⟨some 1, "", "", "1"⟩] none none] ++ rest)) ∧
    (DeltaProtocol 0 [sampleCall "" [⟨some 0, "a", "f", ""⟩] none none, sampleCall "Hi" [] none none,
        sampleCall "" [⟨some 0, "", "", "1"⟩] none none] ∧
      ∀ rest, ¬ WellFormed (events 7 [sampleCall "" [⟨some 0, "a", "f", ""⟩] none none, sampleCall "Hi" [] none none,
        sampleCall "" [⟨some 0, "", "", "1"⟩] none none] ++ rest)) ∧
    DeltaProtocol 0 [sampleCall "" [] none none, sampleCall "" [⟨some 0, "a", "f", ""⟩] (some "stop") none,
        sampleCall "" [⟨some 0, "", "", "1"⟩] none none] ∧
      ∀ rest, ¬ WellFormed (events 7 [sampleCall "" [] none none,
        sampleCall "" [⟨some 0, "a", "f", ""⟩] (some "stop") none, sampleCall "" [⟨some 0, "", "", "1"⟩] none none] ++
          rest) := by
  refine ⟨⟨by decide +kernel, ?_⟩, ⟨by decide +kernel, ?_⟩, by decide +kernel, ?_⟩
  · exact not_wellFormed_of_rejected (by decide +kernel)
  · exact not_wellFormed_of_rejected (by decide +kernel)
  · exact not_wellFormed_of_rejected (by decide +kernel)

end NewApi.ClaudeStream
