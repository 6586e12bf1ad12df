import NewApi.Service.ClaudeStream

/-!
# What the stream converter keeps

Each chunk may carry content, reasoning and fragments of tool call arguments; the converter picks
one of them by priority. Here its output is compared with all that came in.
-/

namespace NewApi.ClaudeStream

open List

/-! ## Deltas -/

def deltas (evs : List Event) : List (Int × BlockDelta) :=
  evs.filterMap fun
    | .contentBlockDelta index delta => some (index, delta)
    | _ => none

/-- The string of a delta of this kind. -/
def Prose.read : Prose → BlockDelta → Option String
  | .text, .textDelta s => some s
  | .thinking, .thinkingDelta s => some s
  | _, _ => none

def proseDeltas (kind : Prose) (evs : List Event) : List String :=
  (deltas evs).filterMap fun d => kind.read d.2

def inputJsonDeltas (block : Int) (evs : List Event) : List String :=
  (deltas evs).filterMap fun
    | (index, .inputJsonDelta s) => if index = block then some s else none
    | _ => none

@[simp] theorem deltas_nil : deltas [] = [] := rfl

@[simp] theorem deltas_append (evs evs' : List Event) :
    deltas (evs ++ evs') = deltas evs ++ deltas evs' :=
  filterMap_append

@[simp] theorem deltas_stopOpenBlocks (info : Info) : deltas (stopOpenBlocks info) = [] := by
  unfold stopOpenBlocks
  cases info.lastMessagesType with
  | none | text | thinking => rfl
  | tools =>
    rw [deltas, filterMap_map, filterMap_eq_nil_iff]
    intro offset _
    rfl

@[simp] theorem deltas_advance (info : Info) : deltas (stopOpenBlocksAndAdvance info).2 = [] := by
  unfold stopOpenBlocksAndAdvance
  cases info.lastMessagesType with
  | none => rfl
  | text | thinking | tools => exact deltas_stopOpenBlocks info

@[simp] theorem deltas_endMessage (usage : Option Usage) (reason : String) :
    deltas (endMessage usage reason) = [] := by
  cases usage <;> rfl

theorem deltas_startProse (advanced : Info × List Event) (kind : Prose) (s : String) :
    deltas (startProse advanced kind s).2 = deltas advanced.2 ++ [(advanced.1.index, kind.delta s)] := by
  simp only [startProse, deltas_append]
  rfl

theorem deltas_continueProse (info : Info) (kind : Prose) (s : String) :
    ∃ index, deltas (continueProse info kind s).2 = [(index, kind.delta s)] := by
  unfold continueProse
  split
  · exact ⟨_, by rw [deltas_startProse, deltas_advance, nil_append]⟩
  · exact ⟨info.index, rfl⟩

theorem deltas_inputJson (index : Int) (arguments : String) : deltas (inputJson index arguments) =
      if arguments ≠ "" then [(index, .inputJsonDelta arguments)] else [] := by
  unfold inputJson
  split <;> rfl

/-- Index and arguments of the tool calls of a chunk, from position `i` on. -/
def pieces : Nat → List ToolCallResponse → List (Int × String)
  | _, [] => []
  | i, toolCall :: rest => (toolCall.offset i, toolCall.arguments) :: pieces (i + 1) rest

theorem deltas_toolCallLoop (base : Int) (toolCalls : List ToolCallResponse) :
    ∀ (i : Nat) (maxOffset : Int), deltas (toolCallLoop base i maxOffset toolCalls).2 =
      (pieces i toolCalls).flatMap fun p => deltas (inputJson (base + p.1) p.2) := by
  induction toolCalls with
  | nil => intro i maxOffset; rfl
  | cons toolCall rest ih =>
    intro i maxOffset
    simp only [toolCallLoop, pieces, deltas_append, ih, flatMap_cons, toolCallEvents]
    congr 1
    split <;> rfl

/-- The first block of the run that tool calls are converted in. -/
def runBase (info : Info) : Int :=
  if info.lastMessagesType = .tools then info.toolCallBaseIndex else (stopOpenBlocksAndAdvance info).1.index

def nextIndex (info : Info) : Int := (stopOpenBlocksAndAdvance info).1.index

def SameBlocks (info info' : Info) : Prop :=
  info'.lastMessagesType = info.lastMessagesType ∧ info'.index = info.index ∧
    info'.toolCallBaseIndex = info.toolCallBaseIndex ∧ info'.toolCallMaxIndexOffset = info.toolCallMaxIndexOffset

variable {info info' : Info}

theorem nextIndex_congr (h : SameBlocks info info') : nextIndex info' = nextIndex info := by
  obtain ⟨hlast, hindex, hbase, hmax⟩ := h
  unfold nextIndex stopOpenBlocksAndAdvance
  rw [hlast, hindex, hbase, hmax]
  cases info.lastMessagesType with
  | none => exact hindex
  | text | thinking | tools => rfl

theorem runBase_congr (h : SameBlocks info info') : runBase info' = runBase info := by
  have hnext := nextIndex_congr h
  unfold nextIndex at hnext
  unfold runBase
  rw [h.1, h.2.2.1, hnext]

theorem deltas_convertToolCalls (info : Info) (toolCalls : List ToolCallResponse) :
    deltas (convertToolCalls info toolCalls).2 =
      (pieces 0 toolCalls).flatMap fun p => deltas (inputJson (runBase info + p.1) p.2) := by
  unfold convertToolCalls runBase
  by_cases hlast : info.lastMessagesType = .tools
  · simp [hlast, deltas_toolCallLoop]
  · simp [hlast, deltas_toolCallLoop]

/-! ## What came in -/

/-- The content or the reasoning of the first choice. -/
def Chunk.prose (chunk : Chunk) (kind : Prose) : String :=
  match chunk.choices with
  | [] => ""
  | choice :: _ =>
    match kind with
    | .text => choice.delta.getContentString
    | .thinking => choice.delta.getReasoningContent

/-- A finish reason without usage. -/
def Chunk.deferred (chunk : Chunk) : Bool :=
  match chunk.choices with
  | [] => false
  | choice :: _ => choice.finish.isSome && chunk.usage.isNone

/-- The converter looks at content and reasoning of the chunk: the message is not ended, and after
the first chunk there are no tool calls and no finish reason without usage. -/
def ReadsProse (info : Info) (chunk : Chunk) : Prop :=
  info.done = false ∧ (info.sendResponseCount = 0 ∨ chunk.deferred = false ∧ chunk.toolCalls = [])

instance (info : Info) (chunk : Chunk) : Decidable (ReadsProse info chunk) :=
  inferInstanceAs (Decidable (_ ∧ _))

/-- All content and reasoning of the chunk is converted. -/
def KeepsProse (info : Info) (call : Call) : Prop :=
  ∀ kind, ¬ (ReadsProse info call.chunk ∧ (kind = .text → call.chunk.prose .thinking = "")) → call.chunk.prose kind = ""

instance (info : Info) (call : Call) : Decidable (KeepsProse info call) :=
  let keeps : Prose → Prop := fun kind =>
    ¬ (ReadsProse info call.chunk ∧ (kind = .text → call.chunk.prose .thinking = "")) → call.chunk.prose kind = ""
  decidable_of_iff (keeps .text ∧ keeps .thinking)
    ⟨fun h kind => match kind with
      | .text => h.1
      | .thinking => h.2, fun h => ⟨h .text, h .thinking⟩⟩

/-- One argument fragment of a stream. -/
structure Fragment where
  index : Int
  arguments : String
  /-- The run of tool blocks it is converted in: how many times text or thinking was converted before it. -/
  run : Option Nat
  /-- The block it is converted in. -/
  block : Option Int
  deriving DecidableEq, Repr

def Fragment.lost (piece : Int × String) : Fragment := ⟨piece.1, piece.2, none, none⟩

/-- The fragments of a chunk after `runs` conversions of text or thinking. -/
def fragmentsOf (info : Info) (runs : Nat) (chunk : Chunk) : List Fragment :=
  if info.done ∨ (info.sendResponseCount ≠ 0 ∧ chunk.deferred) then (pieces 0 chunk.toolCalls).map Fragment.lost
  else if info.sendResponseCount = 0 then
    match chunk.toolCalls with
    | [] => []
    | toolCall :: rest =>
      ⟨toolCall.offset 0, toolCall.arguments, some runs, some 0⟩ :: (pieces 1 rest).map Fragment.lost
  else (pieces 0 chunk.toolCalls).map fun p => ⟨p.1, p.2, some runs, some (runBase info + p.1)⟩

/-- Whether the chunk's text or thinking is converted. -/
def proseCount (info : Info) (chunk : Chunk) : Nat :=
  if ReadsProse info chunk ∧ (chunk.prose .thinking ≠ "" ∨ chunk.prose .text ≠ "") then 1 else 0

def fragments : Info → Nat → List Call → List Fragment
  | _, _, [] => []
  | info, runs, call :: calls => fragmentsOf info runs call.chunk ++
    fragments (step info call).1 (runs + proseCount info call.chunk) calls

/-- The first converted fragment of a tool call. -/
def home (fs : List Fragment) (index : Int) : Option Fragment :=
  fs.find? fun f => decide (f.index = index) && f.block.isSome

/-- Every text and thinking string and every argument fragment is in the events; the block of a tool
call is the one of its first converted fragment. -/
structure Lossless (tokens : Int) (calls : List Call) : Prop where
  prose : ∀ kind, String.join (proseDeltas kind (events tokens calls)) =
    String.join (calls.map fun call => call.chunk.prose kind)
  tools : ∀ index, String.join (match (home (fragments (.initial tokens) 0 calls) index).bind Fragment.block with
      | none => []
      | some block => inputJsonDeltas block (events tokens calls)) =
    String.join (((calls.flatMap fun call => pieces 0 call.chunk.toolCalls).filter fun p =>
      decide (p.1 = index)).map Prod.snd)

/-- No non-empty fragment is left out, and all of a tool call are in the run of its first one. -/
def KeepsRuns (fs : List Fragment) : Prop :=
  ∀ f ∈ fs, f.arguments ≠ "" → f.run.isSome ∧ f.run = (home fs f.index).bind Fragment.run

instance (fs : List Fragment) : Decidable (KeepsRuns fs) :=
  inferInstanceAs (Decidable (∀ f ∈ fs, _))

/-- Tool call indices as in the delta protocol: none is negative, and the first chunk starts with
the first one if later ones have any. -/
def CountsFromZero (calls : List Call) : Prop :=
  (∀ call ∈ calls, ∀ p ∈ pieces 0 call.chunk.toolCalls, 0 ≤ p.1) ∧
    ((calls.tail.flatMap fun call => pieces 0 call.chunk.toolCalls) ≠ [] →
      ∀ call ∈ calls.head?, ∀ p ∈ (pieces 0 call.chunk.toolCalls).head?, p.1 = 0)

instance (calls : List Call) : Decidable (CountsFromZero calls) :=
  inferInstanceAs (Decidable (_ ∧ _))

/-! ## The deltas of one call -/

/-- The delta of text or thinking that is converted in the block `index`. -/
def said (index : Int) : Option (Prose × String) → List (Int × BlockDelta)
  | none => []
  | some (kind, s) => [(index, kind.delta s)]

/-- The deltas of the fragments that are converted. -/
def argued (fs : List Fragment) : List (Int × BlockDelta) :=
  fs.flatMap fun f => (f.block.map fun block => deltas (inputJson block f.arguments)).getD []

/-- The text or thinking of the first choice that goes before the other. -/
def Chunk.proseOf (chunk : Chunk) : Option (Prose × String) :=
  match chunk.choices with
  | [] => none
  | choice :: _ => ClaudeStream.proseOf choice.delta

variable {choice : Choice} {chunk : Chunk} {rest : List Choice}

theorem Chunk.reads (h : chunk.choices = choice :: rest) :
    chunk.toolCalls = choice.delta.toolCalls ∧ chunk.proseOf = ClaudeStream.proseOf choice.delta ∧
      chunk.prose .thinking = choice.delta.getReasoningContent ∧
      chunk.prose .text = choice.delta.getContentString ∧
      chunk.deferred = (choice.finish.isSome && chunk.usage.isNone) := by
  simp [toolCalls, proseOf, prose, deferred, h]

theorem proseCount_eq (info : Info) (h : chunk.choices = choice :: rest) :
    proseCount info chunk = if ReadsProse info chunk ∧
      (proseOf choice.delta).isSome then 1 else 0 := by
  obtain ⟨-, -, hthinking, htext, -⟩ := chunk.reads h
  have hsome : (proseOf choice.delta).isSome ↔ chunk.prose .thinking ≠ "" ∨ chunk.prose .text ≠ "" := by
    unfold proseOf
    split
    · simp [*]
    · split <;> simp [*]
  simp only [proseCount, hsome]

theorem argued_lost (ps : List (Int × String)) : argued (ps.map Fragment.lost) = [] := by
  rw [argued, flatMap_map, flatMap_eq_nil_iff]
  intro p _
  rfl

theorem deltas_firstProse (info : Info) (d : ChoiceDelta) :
    ∃ index, deltas (firstProse info d).2 = said index (proseOf d) := by
  unfold firstProse
  rcases proseOf d with _ | p
  · exact ⟨0, rfl⟩
  let advanced := if info.lastMessagesType ≠ p.1.messageType then stopOpenBlocksAndAdvance info else (info, [])
  have hsilent : deltas advanced.2 = [] := by
    simp only [advanced]
    split
    · exact deltas_advance info
    · rfl
  have hdeltas := deltas_startProse advanced p.1 p.2
  rw [hsilent, nil_append] at hdeltas
  exact ⟨advanced.1.index, hdeltas⟩

theorem deltas_convertDelta (hsame : SameBlocks info info') (runs : Nat) (d : ChoiceDelta) :
    ∃ index, deltas (convertDelta info' d).2 =
      argued ((pieces 0 d.toolCalls).map fun p => ⟨p.1, p.2, some runs, some (runBase info + p.1)⟩) ++
        said index (if d.toolCalls = [] then proseOf d else none) := by
  unfold convertDelta
  by_cases htools : d.toolCalls = []
  · rw [if_neg (not_not.mpr htools), if_pos htools, htools]
    cases proseOf d with
    | none => exact ⟨0, rfl⟩
    | some p => exact deltas_continueProse info' p.1 p.2
  · refine ⟨0, ?_⟩
    rw [if_pos htools, if_neg htools, deltas_convertToolCalls, runBase_congr hsame, argued,
      flatMap_map]
    exact (append_nil _).symm

theorem deltas_firstChunk (info : Info) (runs : Nat) (chunk : Chunk) :
    ∃ index, deltas (firstChunk info chunk).2 = argued (match chunk.toolCalls with
        | [] => []
        | toolCall :: rest =>
          ⟨toolCall.offset 0, toolCall.arguments, some runs, some 0⟩ :: (pieces 1 rest).map Fragment.lost) ++
      said index chunk.proseOf := by
  unfold firstChunk Chunk.toolCalls Chunk.proseOf
  rcases chunk.choices with _ | ⟨choice, rest⟩
  · exact ⟨0, rfl⟩
  obtain ⟨index, hprose⟩ :=
    deltas_firstProse (firstToolCall info choice.delta.toolCalls).1 choice.delta
  have hfinish : ∀ info' : Info, deltas (firstFinish info' chunk choice).2 = [] := by
    intro info'
    unfold firstFinish
    cases choice.finish with
    | none => rfl
    | some reason => simp
  have hstart : ∀ (id model : String) (tokens : Int) (evs : List Event),
      deltas (.messageStart id model tokens :: evs) = deltas evs := fun _ _ _ _ => rfl
  refine ⟨index, ?_⟩
  simp only [hstart, deltas_append, hprose, hfinish, append_nil]
  congr 1
  cases choice.delta.toolCalls with
  | nil => rfl
  | cons toolCall calls =>
    show deltas (inputJson 0 toolCall.arguments) = deltas (inputJson 0 toolCall.arguments) ++ argued _
    rw [argued_lost, append_nil]

/-- **One call**: its deltas are those of the fragments it converts, and of its text or thinking if
it looks at them. -/
theorem deltas_step (info : Info) (runs : Nat) (call : Call) :
    ∃ index, deltas (step info call).2 = argued (fragmentsOf info runs call.chunk) ++
      said index (if ReadsProse info call.chunk then call.chunk.proseOf else none) := by
  unfold step streamResponseOpenAI2Claude fragmentsOf
  by_cases hdone : info.done = true
  · refine ⟨0, ?_⟩
    rw [if_pos hdone, if_pos (.inl hdone), argued_lost,
      if_neg fun hreads => Bool.false_ne_true (hreads.1.symm.trans hdone)]
    rfl
  rw [if_neg hdone]
  have hfalse : info.done = false := by simpa using hdone
  by_cases hfirst : info.sendResponseCount = 0
  · rw [if_pos (by simp [hfirst]), if_neg (by simp [hdone, hfirst]), if_pos hfirst,
      if_pos ⟨hfalse, .inl hfirst⟩]
    exact deltas_firstChunk _ runs call.chunk
  rw [if_neg (by simpa using hfirst), if_neg hfirst]
  have hsame : ∀ reason, SameBlocks info { info with
    sendResponseCount := info.sendResponseCount + 1, usage := call.usage, finishReason := reason } :=
      fun _ => ⟨rfl, rfl, rfl, rfl⟩
  cases hchoices : call.chunk.choices with
  | nil =>
    have htools : call.chunk.toolCalls = [] := by rw [Chunk.toolCalls, hchoices]
    have hprose : call.chunk.proseOf = none := by rw [Chunk.proseOf, hchoices]
    have hsilent : ∀ info' : Info, deltas (usageChunk info' call.chunk).2 = [] := by
      intro info'
      unfold usageChunk
      cases call.chunk.usage.or info'.usage <;> simp
    refine ⟨0, ?_⟩
    simp [htools, hprose, hsilent, pieces, argued, said]
  | cons choice rest =>
    obtain ⟨htools, hprose, -, -, hdeferred⟩ := call.chunk.reads hchoices
    simp only [laterChunk, ReadsProse, hdeferred, htools, hprose, hfirst, hfalse, false_or, ne_eq,
      not_false_eq_true, true_and, Bool.false_eq_true]
    cases choice.finish with
    | none => simpa [hfalse] using deltas_convertDelta (hsame info.finishReason) runs choice.delta
    | some reason =>
      cases call.chunk.usage with
      | none => exact ⟨0, by simp [argued_lost, said]⟩
      | some usage => simpa [hfalse] using deltas_convertDelta (hsame reason) runs choice.delta

/-! ## Text and thinking -/

theorem proseDeltas_append (kind : Prose) (evs evs' : List Event) :
    proseDeltas kind (evs ++ evs') = proseDeltas kind evs ++ proseDeltas kind evs' := by
  rw [proseDeltas, deltas_append, filterMap_append]
  rfl

/-- The string that is converted, if it is of this kind. -/
def convertedAs (kind : Prose) : Option (Prose × String) → String
  | some (k, s) => if k = kind then s else ""
  | none => ""

attribute [local simp] convertedAs Info.initial pieces

theorem convertedAs_proseOf (chunk : Chunk) (kind : Prose) : convertedAs kind chunk.proseOf =
    if kind = .text → chunk.prose .thinking = "" then chunk.prose kind else "" := by
  rcases hchoices : chunk.choices with _ | ⟨choice, rest⟩
  · simp [Chunk.proseOf, Chunk.prose, hchoices]
  obtain ⟨-, hprose, hthinking, htext, -⟩ := chunk.reads hchoices
  rw [hprose, proseOf]
  by_cases hreasoning : choice.delta.getReasoningContent = ""
  · by_cases hcontent : choice.delta.getContentString = ""
    · cases kind <;> simp [hreasoning, hcontent, hthinking, htext]
    · cases kind <;> simp [hreasoning, hcontent, hthinking, htext]
  · cases kind <;> simp [hreasoning, hthinking]

theorem filterMap_read_argued (kind : Prose) (fs : List Fragment) :
    (argued fs).filterMap (fun d => kind.read d.2) = [] := by
  rw [argued, filterMap_flatMap, flatMap_eq_nil_iff]
  intro f _
  cases f.block with
  | none => rfl
  | some block =>
    rw [Option.map_some, Option.getD_some, deltas_inputJson]
    cases kind <;> split <;> rfl

open String

/-- **One call**: content and reasoning are converted whole or not at all. -/
theorem join_proseDeltas_step (kind : Prose) (info : Info) (call : Call) :
    String.join (proseDeltas kind (step info call).2) =
      if ReadsProse info call.chunk ∧ (kind = .text → call.chunk.prose .thinking = "") then
        call.chunk.prose kind else "" := by
  obtain ⟨index, hdeltas⟩ := deltas_step info 0 call
  have hsaid : ∀ p, join ((said index p).filterMap fun d => kind.read d.2) = convertedAs kind p := by
    intro p
    rcases p with _ | ⟨k, s⟩
    · rfl
    · cases kind <;> cases k <;> simp [said, Prose.read, Prose.delta]
  rw [proseDeltas, hdeltas, filterMap_append, filterMap_read_argued, nil_append, hsaid, ite_and,
    ← convertedAs_proseOf]
  split
  · rfl
  · rfl

theorem prose_lossless_iff (tokens : Int) (calls : List Call) :
    (∀ kind, String.join (proseDeltas kind (events tokens calls)) =
        String.join (calls.map fun call => call.chunk.prose kind)) ↔
      Guarded (fun info call => (step info call).1) KeepsProse (.initial tokens) calls := by
  have hevents : ∀ kind, join (proseDeltas kind (events tokens calls)) =
      join ((visits step (.initial tokens) calls).map fun v =>
        if ReadsProse v.1 v.2.chunk ∧ (kind = .text → v.2.chunk.prose .thinking = "") then v.2.chunk.prose kind
        else "") := by
    intro kind
    rw [events, transduce_snd]
    induction visits step (.initial tokens) calls with
    | nil => rfl
    | cons v vs ih =>
      rw [flatMap_cons, proseDeltas_append, join_append, ih, map_cons, join_cons,
        join_proseDeltas_step]
  have hcalls : ∀ kind, join (calls.map fun call => call.chunk.prose kind) =
      join ((visits step (.initial tokens) calls).map fun v => v.2.chunk.prose kind) := by
    intro kind
    conv_lhs => rw [← @map_snd_visits _ _ _ step calls (.initial tokens), List.map_map]
    rfl
  rw [guarded_iff_visits]
  constructor
  · intro h v hv kind hnot
    have hkind := h kind
    rw [hevents, hcalls] at hkind
    exact (Text.join_eq_iff_dropped_empty _ _ _).mp hkind v hv hnot
  · intro h kind
    rw [hevents, hcalls]
    exact (Text.join_eq_iff_dropped_empty _ _ _).mpr fun v hv hnot => h v hv kind hnot

/-! ## Argument fragments -/

theorem inputJsonDeltas_append (block : Int) (evs evs' : List Event) :
    inputJsonDeltas block (evs ++ evs') = inputJsonDeltas block evs ++ inputJsonDeltas block evs' := by
  rw [inputJsonDeltas, deltas_append, filterMap_append]
  rfl

theorem join_inputJsonDeltas_inputJson (block index : Int) (arguments : String) :
    String.join (inputJsonDeltas block (inputJson index arguments)) = if index = block then arguments else "" := by
  rw [inputJsonDeltas, deltas_inputJson]
  by_cases hempty : arguments = ""
  · simp [hempty]
  by_cases hindex : index = block
  · simp [hempty, hindex]
  · simp [hempty, hindex]

/-- The part of the fragments that is in the block. -/
def inBlock (block : Int) (fs : List Fragment) : String :=
  String.join (fs.map fun f => if f.block = some block then f.arguments else "")

theorem inBlock_append (block : Int) (fs fs' : List Fragment) :
    inBlock block (fs ++ fs') = inBlock block fs ++ inBlock block fs' := by
  rw [inBlock, map_append, join_append]
  rfl

/-- **One call**: the argument deltas of a block are the fragments converted in it. -/
theorem join_inputJsonDeltas_step (block : Int) (info : Info) (runs : Nat) (call : Call) :
    String.join (inputJsonDeltas block (step info call).2) = inBlock block (fragmentsOf info runs call.chunk) := by
  obtain ⟨index, hdeltas⟩ := deltas_step info runs call
  have hsaid : ∀ prose : Option (Prose × String), ((said index prose).filterMap fun d => match d with
      | (index, .inputJsonDelta s) => if index = block then some s else none
      | _ => none) = [] := by
    intro prose
    rcases prose with _ | ⟨k, s⟩
    · rfl
    · cases k <;> rfl
  rw [inputJsonDeltas, hdeltas, filterMap_append, hsaid, append_nil]
  induction fragmentsOf info runs call.chunk with
  | nil => rfl
  | cons f fs ih =>
    rw [argued, flatMap_cons, filterMap_append, join_append, ← argued, ih, inBlock, inBlock,
      map_cons, join_cons]
    congr 1
    rcases f.block with _ | b
    · rfl
    have hjson := join_inputJsonDeltas_inputJson block b f.arguments
    rw [inputJsonDeltas] at hjson
    rw [Option.map_some, Option.getD_some, hjson]
    simp

theorem join_inputJsonDeltas_run (block : Int) (calls : List Call) : ∀ (info : Info) (runs : Nat),
    String.join (inputJsonDeltas block (transduce step info calls).2) = inBlock block (fragments info runs calls) := by
  induction calls with
  | nil => intro info runs; rfl
  | cons call calls ih =>
    intro info runs
    rw [transduce, inputJsonDeltas_append, join_append, fragments, inBlock_append,
      join_inputJsonDeltas_step block info runs, ih]

open Fragment

theorem map_fragmentsOf (info : Info) (runs : Nat) (chunk : Chunk) :
    (fragmentsOf info runs chunk).map (fun f => (f.index, f.arguments)) = pieces 0 chunk.toolCalls := by
  have hlost : ∀ ps : List (Int × String), (ps.map lost).map (fun f => (f.index, f.arguments)) = ps := by
    intro ps
    rw [List.map_map]
    exact map_id ps
  unfold fragmentsOf
  split
  · exact hlost _
  split
  · cases chunk.toolCalls with
    | nil => rfl
    | cons toolCall rest => rw [map_cons, hlost]; rfl
  · rw [List.map_map]
    exact map_id _

theorem map_fragments (calls : List Call) : ∀ (info : Info) (runs : Nat),
    (fragments info runs calls).map (fun f => (f.index, f.arguments)) =
      calls.flatMap fun call => pieces 0 call.chunk.toolCalls := by
  induction calls with
  | nil => intro info runs; rfl
  | cons call calls ih =>
    intro info runs
    rw [fragments, map_append, map_fragmentsOf, ih, flatMap_cons]

/-! ## Runs of tool blocks -/

theorem le_toolCallLoop (base : Int) (toolCalls : List ToolCallResponse) :
    ∀ (i : Nat) (maxOffset : Int), maxOffset ≤ (toolCallLoop base i maxOffset toolCalls).1 ∧
      ∀ p ∈ pieces i toolCalls, p.1 ≤ (toolCallLoop base i maxOffset toolCalls).1 := by
  induction toolCalls with
  | nil =>
    intro i maxOffset
    exact ⟨le_refl _, fun p hp => by cases hp⟩
  | cons toolCall rest ih =>
    intro i maxOffset
    obtain ⟨hmax, hpieces⟩ :=
      ih (i + 1) (if toolCall.offset i > maxOffset then toolCall.offset i else maxOffset)
    have hgrow : maxOffset ≤ (if toolCall.offset i > maxOffset then toolCall.offset i else maxOffset) ∧
        toolCall.offset i ≤ (if toolCall.offset i > maxOffset then toolCall.offset i else maxOffset) := by
      split <;> omega
    refine ⟨hgrow.1.trans hmax, fun p hp => ?_⟩
    rcases mem_cons.mp hp with rfl | hp
    · exact hgrow.2.trans hmax
    · exact hpieces p hp

theorem nextIndex_tools (h : info.lastMessagesType = .tools) :
    nextIndex info = info.toolCallBaseIndex + info.toolCallMaxIndexOffset + 1 := by
  unfold nextIndex stopOpenBlocksAndAdvance
  rw [h]

theorem nextIndex_prose {kind : Prose} (h : info.lastMessagesType = kind.messageType) :
    nextIndex info = info.index + 1 := by
  unfold nextIndex stopOpenBlocksAndAdvance
  rw [h]
  cases kind <;> rfl

theorem messageType_ne_tools (kind : Prose) : kind.messageType ≠ .tools := by
  cases kind <;> decide

theorem convertToolCalls_run (info : Info) (toolCalls : List ToolCallResponse) :
    (convertToolCalls info toolCalls).1.lastMessagesType = .tools ∧
      (convertToolCalls info toolCalls).1.toolCallBaseIndex = runBase info ∧
      (info.lastMessagesType = .tools →
        info.toolCallMaxIndexOffset ≤ (convertToolCalls info toolCalls).1.toolCallMaxIndexOffset) ∧
      ∀ p ∈ pieces 0 toolCalls, p.1 ≤ (convertToolCalls info toolCalls).1.toolCallMaxIndexOffset := by
  unfold convertToolCalls runBase
  by_cases hlast : info.lastMessagesType = .tools
  · simp only [hlast, ne_eq, not_true_eq_false, if_false, if_true]
    have hloop := le_toolCallLoop info.toolCallBaseIndex toolCalls 0 info.toolCallMaxIndexOffset
    exact ⟨trivial, trivial, fun _ => hloop.1, hloop.2⟩
  simp only [hlast, ne_eq, not_false_eq_true, if_true, if_false]
  have hloop := le_toolCallLoop (stopOpenBlocksAndAdvance info).1.index toolCalls 0 0
  exact ⟨trivial, trivial, fun htools => htools.elim, hloop.2⟩

theorem continueProse_run (info : Info) (kind : Prose) (s : String) :
    (continueProse info kind s).1.lastMessagesType ≠ .tools ∧
      nextIndex info ≤ nextIndex (continueProse info kind s).1 := by
  unfold continueProse
  by_cases hlast : info.lastMessagesType = kind.messageType
  · rw [if_neg (not_not.mpr hlast)]
    exact ⟨fun htools => messageType_ne_tools kind (hlast.symm.trans htools), le_refl _⟩
  rw [if_pos hlast]
  refine ⟨messageType_ne_tools kind, ?_⟩
  have hnext : nextIndex (startProse (stopOpenBlocksAndAdvance info) kind s).1 = nextIndex info + 1 :=
    nextIndex_prose rfl
  omega

/-- What a call after the first does to runs and blocks: nothing is converted, tool calls are
converted in the open run or a new one, or text or thinking closes the run. -/
inductive RunStep (info info' : Info) (runs : Nat) (chunk : Chunk) : Prop
  | silent (hsame : SameBlocks info info') (hcount : proseCount info chunk = 0)
      (hlost : ∀ f ∈ fragmentsOf info runs chunk, f.run = none ∧ f.block = none)
  | tools (hlast : info'.lastMessagesType = .tools) (hbase : info'.toolCallBaseIndex = runBase info)
      (hgrow : info.lastMessagesType = .tools → info.toolCallMaxIndexOffset ≤ info'.toolCallMaxIndexOffset)
      (hcount : proseCount info chunk = 0) (hne : pieces 0 chunk.toolCalls ≠ [])
      (hpieces : ∀ p ∈ pieces 0 chunk.toolCalls, p.1 ≤ info'.toolCallMaxIndexOffset)
      (hfragments : fragmentsOf info runs chunk = (pieces 0 chunk.toolCalls).map fun p =>
        ⟨p.1, p.2, some runs, some (runBase info + p.1)⟩)
  | prose (hlast : info'.lastMessagesType ≠ .tools) (hnext : nextIndex info ≤ nextIndex info')
      (hcount : proseCount info chunk = 1) (hnone : fragmentsOf info runs chunk = [])

theorem lost_of_map {ps : List (Int × String)} :
    ∀ f ∈ ps.map Fragment.lost, f.run = none ∧ f.block = none := by
  intro f hf
  obtain ⟨p, _, rfl⟩ := mem_map.mp hf
  exact ⟨rfl, rfl⟩

theorem SameBlocks.trans {a b c : Info} (h : SameBlocks a b) (h' : SameBlocks b c) :
    SameBlocks a c :=
  ⟨h'.1.trans h.1, h'.2.1.trans h.2.1, h'.2.2.1.trans h.2.2.1, h'.2.2.2.trans h.2.2.2⟩

theorem runStep_convertDelta {info₀ : Info} (hsame : SameBlocks info info₀) (runs : Nat)
    (hchoices : chunk.choices = choice :: rest) (hdone : info.done = false)
    (hcount : info.sendResponseCount ≠ 0) (hdeferred : chunk.deferred = false)
    (hinfo' : SameBlocks (convertDelta info₀ choice.delta).1 info') :
    RunStep info info' runs chunk := by
  obtain ⟨htools, -⟩ := chunk.reads hchoices
  have hfragments : fragmentsOf info runs chunk = (pieces 0 chunk.toolCalls).map fun p =>
      ⟨p.1, p.2, some runs, some (runBase info + p.1)⟩ := by
    unfold fragmentsOf
    rw [if_neg (by simp [hdone, hdeferred]), if_neg hcount]
  have hprose := proseCount_eq info hchoices
  unfold convertDelta at hinfo'
  by_cases hne : choice.delta.toolCalls = []
  · rw [if_neg (not_not.mpr hne)] at hinfo'
    have hempty : fragmentsOf info runs chunk = [] := by rw [hfragments, htools, hne]; rfl
    have hreads : ReadsProse info chunk := ⟨hdone, .inr ⟨hdeferred, htools.trans hne⟩⟩
    rcases hp : proseOf choice.delta with _ | p
    · rw [hp] at hinfo' hprose
      exact .silent (hsame.trans hinfo') (by simpa using hprose) (by simp [hempty])
    rw [hp] at hinfo' hprose
    obtain ⟨hlast, hnext⟩ := continueProse_run info₀ p.1 p.2
    refine .prose (fun hbad => hlast (hinfo'.1.symm.trans hbad)) ?_ (by simpa [hreads] using hprose) hempty
    rw [nextIndex_congr hinfo', ← nextIndex_congr hsame]
    exact hnext
  · rw [if_pos hne] at hinfo'
    obtain ⟨hlast, hbase, hgrow, hpieces⟩ := convertToolCalls_run info₀ choice.delta.toolCalls
    refine .tools (hinfo'.1.trans hlast) ?_ ?_ ?_ ?_ ?_ hfragments
    · rw [hinfo'.2.2.1, hbase, runBase_congr hsame]
    · intro hopen
      rw [hinfo'.2.2.2, ← hsame.2.2.2]
      exact hgrow (hsame.1.trans hopen)
    · simpa [ReadsProse, hcount, htools, hne] using hprose
    · rw [htools]
      cases hcalls : choice.delta.toolCalls with
      | nil => exact absurd hcalls hne
      | cons toolCall calls => simp
    · rw [htools, hinfo'.2.2.2]
      exact hpieces

theorem runStep_step (hcount : info.sendResponseCount ≠ 0) (runs : Nat) (call : Call) :
    RunStep info (step info call).1 runs call.chunk := by
  let counted : Info := { info with sendResponseCount := info.sendResponseCount + 1, usage := call.usage }
  have hsame : SameBlocks info counted := ⟨rfl, rfl, rfl, rfl⟩
  unfold step streamResponseOpenAI2Claude
  by_cases hdone : info.done = true
  · rw [if_pos hdone]
    refine .silent hsame ?_ ?_
    · unfold proseCount ReadsProse
      rw [if_neg (by simp [hdone])]
    unfold fragmentsOf
    rw [if_pos (.inl hdone)]
    exact lost_of_map
  · have hfalse : info.done = false := by simpa using hdone
    rw [if_neg hdone, if_neg (by simpa using hcount)]
    cases hchoices : call.chunk.choices with
    | nil =>
      have htools : call.chunk.toolCalls = [] := by rw [Chunk.toolCalls, hchoices]
      refine .silent ?_ ?_ ?_
      · simp only [usageChunk]
        cases call.chunk.usage.or call.usage <;> exact hsame
      · unfold proseCount Chunk.prose
        rw [hchoices, if_neg (by simp)]
      unfold fragmentsOf
      rw [htools]
      intro f hf
      simp at hf
    | cons choice rest =>
      obtain ⟨-, -, -, -, hdeferred⟩ := call.chunk.reads hchoices
      simp only [laterChunk]
      rcases hfinish : choice.finish with _ | reason
      · exact runStep_convertDelta hsame runs hchoices hfalse hcount (by rw [hdeferred, hfinish]; rfl) ⟨rfl, rfl, rfl, rfl⟩
      cases husage : call.chunk.usage with
      | none =>
        have htrue : call.chunk.deferred = true := by rw [hdeferred, hfinish, husage]; rfl
        refine .silent ⟨rfl, rfl, rfl, rfl⟩ ?_ ?_
        · unfold proseCount ReadsProse
          rw [if_neg (by simp [hcount, htrue])]
        unfold fragmentsOf
        rw [if_pos (.inr ⟨hcount, htrue⟩)]
        exact lost_of_map
      | some usage =>
        have hnoted : SameBlocks info { counted with finishReason := reason } := ⟨rfl, rfl, rfl,
          rfl⟩
        exact runStep_convertDelta hnoted runs hchoices hfalse hcount (by rw [hdeferred, husage]; simp)
          ⟨rfl, rfl, rfl, rfl⟩

/-- Where the fragments after this state can be: in the open run, or in later runs and free
blocks. -/
def Spread (info : Info) (runs : Nat) (fs : List Fragment) : Prop :=
  ∀ f ∈ fs, ∀ run block, f.run = some run → f.block = some block → 0 ≤ f.index ∧ runs ≤ run ∧
    (info.lastMessagesType = .tools ∧ run = runs → block = info.toolCallBaseIndex + f.index) ∧
    (¬ (info.lastMessagesType = .tools ∧ run = runs) → nextIndex info ≤ block)

/-- Run and index tell the block and the other way round. -/
def Coherent (fs : List Fragment) : Prop :=
  ∀ f ∈ fs, ∀ g ∈ fs, ∀ run block run' block', f.run = some run → f.block = some block → g.run = some run' →
    g.block = some block' → (block = block' ↔ run = run' ∧ f.index = g.index)

theorem run_isSome_fragments (calls : List Call) :
    ∀ (info : Info) (runs : Nat), ∀ f ∈ fragments info runs calls,
    f.run.isSome = f.block.isSome := by
  have hof : ∀ (info : Info) (runs : Nat) (chunk : Chunk), ∀ f ∈ fragmentsOf info runs chunk,
      f.run.isSome = f.block.isSome := by
    intro info runs chunk f hf
    unfold fragmentsOf at hf
    split at hf
    · rw [(lost_of_map f hf).1, (lost_of_map f hf).2]
      rfl
    split at hf
    · rcases htools : chunk.toolCalls with _ | ⟨toolCall, rest⟩
      · rw [htools] at hf
        cases hf
      rw [htools] at hf
      rcases mem_cons.mp hf with rfl | hf
      · rfl
      · rw [(lost_of_map f hf).1, (lost_of_map f hf).2]
        rfl
    · obtain ⟨p, _, rfl⟩ := mem_map.mp hf
      rfl
  induction calls with
  | nil =>
    intro info runs f hf
    cases hf
  | cons call calls ih =>
    intro info runs f hf
    rcases mem_append.mp hf with hf | hf
    · exact hof info runs call.chunk f hf
    · exact ih _ _ f hf

variable {fs gs : List Fragment} {runs : Nat}

theorem spread_congr (h : SameBlocks info info') (hspread : Spread info' runs fs) :
    Spread info runs fs := by
  intro f hf run block hrun hblock
  have hall := hspread f hf run block hrun hblock
  rw [h.1, h.2.2.1, nextIndex_congr h] at hall
  exact hall

theorem Spread.append (hf : Spread info runs fs) (hg : Spread info runs gs) :
    Spread info runs (fs ++ gs) :=
  fun f h => (mem_append.mp h).elim (hf f) (hg f)

theorem Coherent.append (hf : Coherent fs) (hg : Coherent gs)
    (h : ∀ f ∈ fs, ∀ g ∈ gs, ∀ run block run' block', f.run = some run → f.block = some block → g.run = some run' →
      g.block = some block' →
      (block = block' ↔ run = run' ∧ f.index = g.index)) : Coherent (fs ++ gs) := by
  intro f hfmem g hgmem run block run' block' hrun hblock hrun' hblock'
  rcases mem_append.mp hfmem with hfs | hfs <;> rcases mem_append.mp hgmem with hgs | hgs
  · exact hf f hfs g hgs run block run' block' hrun hblock hrun' hblock'
  · exact h f hfs g hgs run block run' block' hrun hblock hrun' hblock'
  · have hback := h g hgs f hfs run' block' run block hrun' hblock' hrun hblock
    omega
  · exact hg f hfs g hgs run block run' block' hrun hblock hrun' hblock'

/-- One call after the first: what is converted by it and after it is where it can be, each run and
index in a block of its own. -/
theorem coherent_step (hstep : RunStep info info' runs chunk)
    (hnonneg : ∀ p ∈ pieces 0 chunk.toolCalls, 0 ≤ p.1)
    (hspread : Spread info' (runs + proseCount info chunk) fs) (hcoherent : Coherent fs) :
    Spread info runs (fragmentsOf info runs chunk ++ fs) ∧
      Coherent (fragmentsOf info runs chunk ++ fs) := by
  cases hstep with
  | silent hsame hcount hlost =>
    rw [hcount, Nat.add_zero] at hspread
    refine ⟨.append ?_ (spread_congr hsame hspread), .append ?_ hcoherent ?_⟩
    · intro f hf run block hrun
      simp [hlost f hf] at hrun
    · intro f hf g hg run block run' block' hrun
      simp [hlost f hf] at hrun
    · intro f hf g hg run block run' block' hrun
      simp [hlost f hf] at hrun
  | prose hlast hnext hcount hnone =>
    rw [hnone, nil_append]
    refine ⟨?_, hcoherent⟩
    intro f hf run block hrun hblock
    obtain ⟨hindex, hle, _, hfree⟩ := hspread f hf run block hrun hblock
    have hblock' := hfree fun hbad => hlast hbad.1
    exact ⟨hindex, by omega, fun hbad => by omega, fun _ => by omega⟩
  | tools hlast hbase hgrow hcount hne hpieces hfragments =>
    rw [hcount, Nat.add_zero] at hspread
    rw [hfragments]
    have hnext' := nextIndex_tools hlast
    rw [hbase] at hnext'
    have hpos : 0 ≤ info'.toolCallMaxIndexOffset := by
      obtain ⟨p, hp⟩ := exists_mem_of_ne_nil _ hne
      exact (hnonneg p hp).trans (hpieces p hp)
    -- the later fragments are in this run too, or behind it
    have hlater : ∀ f ∈ fs, ∀ run block, f.run = some run → f.block = some block → 0 ≤ f.index ∧ runs ≤ run ∧
        (run = runs → block = runBase info + f.index) ∧
        (run ≠ runs → runBase info + info'.toolCallMaxIndexOffset + 1 ≤ block) := by
      intro f hf run block hrun hblock
      obtain ⟨hindex, hle, hsame, hfree⟩ := hspread f hf run block hrun hblock
      rw [hbase] at hsame
      rw [hnext'] at hfree
      exact ⟨hindex, hle, fun heq => hsame ⟨hlast, heq⟩, fun hne => hfree fun hbad => hne hbad.2⟩
    have hopen : info.lastMessagesType = .tools → runBase info = info.toolCallBaseIndex ∧
        nextIndex info = info.toolCallBaseIndex + info.toolCallMaxIndexOffset + 1 := fun htools =>
      ⟨if_pos htools, nextIndex_tools htools⟩
    have hclosed : info.lastMessagesType ≠ .tools → runBase info = nextIndex info :=
      fun hnot => if_neg hnot
    refine ⟨.append ?_ ?_, .append ?_ hcoherent ?_⟩
    · rintro f hf run block hrun hblock
      obtain ⟨p, hp, rfl⟩ := mem_map.mp hf
      cases hrun
      cases hblock
      have hindex := hnonneg p hp
      refine ⟨hindex, le_refl _, fun hthis => by rw [(hopen hthis.1).1], fun hnot => ?_⟩
      rw [hclosed fun htools => hnot ⟨htools, rfl⟩]
      omega
    · intro f hf run block hrun hblock
      by_cases htools : info.lastMessagesType = .tools
      · grind
      · grind
    · intro f hf g hg run block run' block' hrun hblock hrun' hblock'
      obtain ⟨p, hp, rfl⟩ := mem_map.mp hf
      obtain ⟨q, hq, rfl⟩ := mem_map.mp hg
      cases hrun
      cases hblock
      cases hrun'
      cases hblock'
      simp
    · intro f hf g hg run block run' block' hrun hblock hrun' hblock'
      obtain ⟨p, hp, rfl⟩ := mem_map.mp hf
      cases hrun
      cases hblock
      grind

theorem coherent_fragments (calls : List Call) :
    ∀ {info : Info} (runs : Nat), info.sendResponseCount ≠ 0 →
    (∀ call ∈ calls, ∀ p ∈ pieces 0 call.chunk.toolCalls, 0 ≤ p.1) →
      Spread info runs (fragments info runs calls) ∧ Coherent (fragments info runs calls) := by
  induction calls with
  | nil =>
    intro info runs _ _
    constructor
    · intro f hf
      cases hf
    · intro f hf
      cases hf
  | cons call calls ih =>
    intro info runs hcount hnonneg
    have hcount' : (step info call).1.sendResponseCount ≠ 0 := by
      rw [sendResponseCount_step]
      exact Nat.succ_ne_zero _
    obtain ⟨hspread, hcoherent⟩ := ih (runs + proseCount info call.chunk) hcount' fun c hc =>
      hnonneg c (mem_cons_of_mem _ hc)
    exact coherent_step (runStep_step hcount runs call) (hnonneg call mem_cons_self) hspread hcoherent

/-- The first call on a chunk with tool calls: its run is open, or text or thinking has closed
it. -/
theorem first_run (tokens : Int) (call : Call) (hne : call.chunk.toolCalls ≠ []) :
    let info' := (step (.initial tokens) call).1
    (info'.lastMessagesType = .tools ∧ info'.toolCallBaseIndex = 0 ∧ nextIndex info' = 1 ∧
        proseCount (.initial tokens) call.chunk = 0) ∨
      (info'.lastMessagesType ≠ .tools ∧ 1 ≤ nextIndex info' ∧ proseCount (.initial tokens) call.chunk = 1) := by
  intro info'
  cases hchoices : call.chunk.choices with
  | nil =>
    rw [Chunk.toolCalls, hchoices] at hne
    exact absurd rfl hne
  | cons choice rest =>
    obtain ⟨htools, -⟩ := call.chunk.reads hchoices
    let counted : Info := { Info.initial tokens with sendResponseCount := 1, usage := call.usage }
    let opened := (firstToolCall counted choice.delta.toolCalls).1
    have hopened : opened.lastMessagesType = .tools ∧ opened.toolCallBaseIndex = 0 ∧ opened.toolCallMaxIndexOffset = 0 := by
      simp only [opened]
      rw [htools] at hne
      cases hcalls : choice.delta.toolCalls with
      | nil => exact absurd hcalls hne
      | cons toolCall _ => exact ⟨rfl, rfl, rfl⟩
    have hnext : nextIndex opened = 1 := by
      rw [nextIndex_tools hopened.1, hopened.2.1, hopened.2.2]
      rfl
    -- ending the message leaves the block fields alone
    have hinfo : SameBlocks (firstProse opened choice.delta).1 info' := by
      have hstep : info' = (firstFinish (firstProse opened choice.delta).1 call.chunk choice).1 := by
        show (step (.initial tokens) call).1 = _
        simp only [step, streamResponseOpenAI2Claude, Info.initial, firstChunk, hchoices]
        rfl
      rw [hstep]
      unfold firstFinish
      cases choice.finish <;> exact ⟨rfl, rfl, rfl, rfl⟩
    have hcount : proseCount (.initial tokens) call.chunk = if (proseOf choice.delta).isSome then 1 else 0 := by
      simp [proseCount_eq _ hchoices, ReadsProse]
    rw [hcount, hinfo.1, hinfo.2.2.1, nextIndex_congr hinfo]
    unfold firstProse
    cases proseOf choice.delta with
    | none => exact .inl ⟨hopened.1, hopened.2.1, hnext, rfl⟩
    | some p =>
      right
      have hnot : opened.lastMessagesType ≠ p.1.messageType := fun heq =>
        messageType_ne_tools p.1 (heq.symm.trans hopened.1)
      simp only [if_pos hnot]
      have hafter : nextIndex (startProse (stopOpenBlocksAndAdvance opened) p.1 p.2).1 = nextIndex opened + 1 :=
        nextIndex_prose rfl
      exact ⟨messageType_ne_tools p.1, by omega, rfl⟩

/-- Over a whole stream, run and index tell the block and the other way round. -/
theorem coherent_of_countsFromZero (tokens : Int) {calls : List Call} (h : CountsFromZero calls) :
    Coherent (fragments (.initial tokens) 0 calls) := by
  rcases calls with _ | ⟨call, calls⟩
  · intro f hf
    cases hf
  have hcount : (step (.initial tokens) call).1.sendResponseCount ≠ 0 := by
    rw [sendResponseCount_step]
    exact Nat.succ_ne_zero _
  obtain ⟨hspread, hcoherent⟩ :=
    coherent_fragments calls (0 + proseCount (.initial tokens) call.chunk) hcount
    fun c hc => h.1 c (mem_cons_of_mem _ hc)
  rw [fragments]
  rcases htools : call.chunk.toolCalls with _ | ⟨toolCall, rest⟩
  · have hnone : fragmentsOf (.initial tokens) 0 call.chunk = [] := by simp [fragmentsOf, htools]
    rw [hnone, nil_append]
    exact hcoherent
  have hfragments : fragmentsOf (.initial tokens) 0 call.chunk =
      ⟨toolCall.offset 0, toolCall.arguments, some 0, some 0⟩ :: (pieces 1 rest).map lost := by
    simp [fragmentsOf, htools]
  have hhead : ∀ f ∈ fragmentsOf (.initial tokens) 0 call.chunk, ∀ run block, f.run = some run →
      f.block = some block → run = 0 ∧ block = 0 ∧ f.index = toolCall.offset 0 := by
    intro f hf run block hrun hblock
    rw [hfragments] at hf
    rcases mem_cons.mp hf with rfl | hf
    · cases hrun
      cases hblock
      exact ⟨rfl, rfl, rfl⟩
    · rw [(lost_of_map f hf).1] at hrun
      cases hrun
  refine Coherent.append ?_ hcoherent ?_
  · intro f hf g hg run block run' block' hrun hblock hrun' hblock'
    have hplace := hhead f hf run block hrun hblock
    have hplace' := hhead g hg run' block' hrun' hblock'
    omega
  intro f hf g hg run block run' block' hrun hblock hrun' hblock'
  have hlater := ne_nil_of_mem (mem_map_of_mem (f := fun f => (f.index, f.arguments)) hg)
  rw [map_fragments] at hlater
  have hoffset : toolCall.offset 0 = 0 :=
    h.2 hlater call (by simp) (toolCall.offset 0, toolCall.arguments) (by simp [htools])
  have hplace' := hspread g hg run' block' hrun' hblock'
  rcases first_run tokens call (by simp [htools]) with ⟨hlast, hbase, hnext, hzero⟩ | ⟨hlast, hnext,
    hone⟩
  · grind
  · grind

/-! ## Losslessness -/

def ofIndex (index : Int) (fs : List Fragment) : String :=
  String.join (fs.map fun f => if f.index = index then f.arguments else "")

theorem ofIndex_fragments (tokens index : Int) (calls : List Call) :
    ofIndex index (fragments (.initial tokens) 0 calls) =
      String.join (((calls.flatMap fun call => pieces 0 call.chunk.toolCalls).filter fun p =>
        decide (p.1 = index)).map Prod.snd) := by
  rw [← map_fragments calls (.initial tokens) 0, filter_map, List.map_map]
  exact (Text.join_filter_map (fun f : Fragment => f.index = index) arguments _).symm

/-- The block of a tool call has all its fragments exactly when those that are not empty are
converted in its run. -/
theorem inBlock_home_iff (hcoherent : Coherent fs)
    (hsome : ∀ f ∈ fs, f.run.isSome = f.block.isSome) (index : Int) :
    (((home fs index).bind Fragment.block).elim "" fun block => inBlock block fs) = ofIndex index fs ↔
      ∀ f ∈ fs, f.index = index → f.arguments ≠ "" →
        f.run.isSome ∧ f.run = (home fs index).bind Fragment.run := by
  -- what is in the block are the fragments of its run and index
  have hinBlock : (((home fs index).bind block).elim "" fun block => inBlock block fs) =
      join (fs.map fun f => if f.run.isSome ∧ f.run = (home fs index).bind run then
        (if f.index = index then f.arguments else "") else "") := by
    cases hhome : home fs index with
    | none =>
      have hkept : ∀ f : Fragment, ¬ (f.run.isSome ∧ f.run = none) := by
        rintro f ⟨hsome, hnone⟩
        rw [hnone] at hsome
        cases hsome
      simp only [Option.bind_none, if_neg (hkept _), Option.elim_none]
      clear hhome hsome hcoherent
      induction fs with
      | nil => rfl
      | cons f fs ih => rw [map_cons, join_cons, ← ih]; rfl
    | some f₀ =>
      have hf₀ : f₀ ∈ fs := mem_of_find?_eq_some hhome
      have hfound := find?_some hhome
      rw [Bool.and_eq_true, decide_eq_true_eq] at hfound
      obtain ⟨block₀, hblock₀⟩ := Option.isSome_iff_exists.mp hfound.2
      obtain ⟨run₀, hrun₀⟩ := Option.isSome_iff_exists.mp ((hsome f₀ hf₀).trans hfound.2)
      simp only [Option.bind_some, hblock₀, hrun₀, Option.elim_some, inBlock]
      congr 1
      refine map_congr_left fun f hf => ?_
      have hiff : f.block = some block₀ ↔ f.run = some run₀ ∧ f.index = index := by
        cases hblock : f.block with
        | none =>
          have hnone := hsome f hf
          rw [hblock] at hnone
          simp only [Option.isSome_none, Option.isSome_eq_false_iff,
            Option.isNone_iff_eq_none] at hnone
          simp [hnone]
        | some block =>
          have hrun := hsome f hf
          rw [hblock] at hrun
          obtain ⟨run, hrun⟩ := Option.isSome_iff_exists.mp hrun
          rw [hrun, Option.some.injEq, Option.some.injEq, ← hfound.1]
          exact hcoherent f hf f₀ hf₀ run block run₀ block₀ hrun hblock hrun₀ hblock₀
      by_cases hrun : f.run = some run₀
      · by_cases hindex : f.index = index
        · simp [hiff, hrun]
        · simp [hiff, hindex]
      · simp [hiff, hrun]
  rw [hinBlock, ofIndex, Text.join_eq_iff_dropped_empty]
  refine forall₂_congr fun f _ => ?_
  rw [← not_imp_not, not_not, ite_eq_right_iff, Classical.not_imp, and_imp]

/-- **What is kept**: all text, thinking and arguments are in the events exactly when * in each
chunk with reasoning or content the converter looks at it (the message is not ended and, after the
first chunk, there are no tool calls and no finish reason without usage), and there is not both; *
no non-empty argument fragment is left out or comes after the run of tool blocks of its tool
call. -/
theorem lossless_iff (tokens : Int) {calls : List Call} (h : CountsFromZero calls) :
    Lossless tokens calls ↔
      Guarded (fun info call => (step info call).1) KeepsProse (.initial tokens) calls ∧
        KeepsRuns (fragments (.initial tokens) 0 calls) := by
  have hcoherent := coherent_of_countsFromZero tokens h
  have hsome := run_isSome_fragments calls (.initial tokens) 0
  have htools : (∀ index,
    join (match (home (fragments (.initial tokens) 0 calls) index).bind block with
        | none => []
        | some block => inputJsonDeltas block (events tokens calls)) =
      join (((calls.flatMap fun call => pieces 0 call.chunk.toolCalls).filter fun p =>
        decide (p.1 = index)).map Prod.snd)) ↔ KeepsRuns (fragments (.initial tokens) 0 calls) := by
    have hindex : ∀ index, join (match (home (fragments (.initial tokens) 0 calls) index).bind block with
          | none => []
          | some block => inputJsonDeltas block (events tokens calls)) =
        ((home (fragments (.initial tokens) 0 calls) index).bind block).elim ""
          fun block => inBlock block (fragments (.initial tokens) 0 calls) := by
      intro index
      cases (home (fragments (.initial tokens) 0 calls) index).bind block with
      | none => rfl
      | some block => exact join_inputJsonDeltas_run block calls (.initial tokens) 0
    simp only [hindex, ← ofIndex_fragments tokens, inBlock_home_iff hcoherent hsome]
    constructor
    · intro hall f hf hne
      exact hall f.index f hf rfl hne
    · rintro hall _ f hf rfl hne
      exact hall f hf hne
  constructor
  · intro hlossless
    exact ⟨(prose_lossless_iff tokens calls).mp hlossless.prose, htools.mp hlossless.tools⟩
  · rintro ⟨hprose, hruns⟩
    exact ⟨(prose_lossless_iff tokens calls).mpr hprose, htools.mpr hruns⟩

def pieceByPiece : List Call :=
  [sampleCall "" [] none none, sampleCall "He" [] none none, sampleCall "llo" [] none none,
    sampleCall "" [⟨some 0, "a", "f", ""⟩] none none, sampleCall "" [⟨some 0, "", "", "1"⟩] none none,
    sampleCall "" [] (some "tool_calls") none, ⟨⟨"id", "model", [], some ⟨1, 1, 0, 0, 0, 0⟩⟩, none⟩]

theorem piece_by_piece_lossless : CountsFromZero pieceByPiece ∧ Lossless 7 pieceByPiece := by
  have hcounts : CountsFromZero pieceByPiece := by decide +kernel
  exact ⟨hcounts, (lossless_iff 7 hcounts).mpr ⟨by decide +kernel, by decide +kernel⟩⟩

/-- What is lost: content of a chunk with a finish reason and no usage, beside reasoning or beside
tool calls, a second tool call in the first chunk, and arguments that come after text. -/
theorem converter_loses : ¬ Lossless 7 [sampleCall "" [] none none, sampleCall "Hi" [] (some "stop") none] ∧
      ¬ Lossless 7 [⟨⟨"id", "model", [⟨⟨some "Hi", some "Hm", none, []⟩, some "stop"⟩], none⟩, none⟩] ∧
      ¬ Lossless 7 [sampleCall "" [] none none, sampleCall "Hi" [⟨some 0, "a", "f", "1"⟩] none none,
        sampleCall "" [] (some "stop") none] ∧
      ¬ Lossless 7 [sampleCall "" [⟨some 0, "a", "f", "1"⟩, ⟨some 1, "b", "g", "2"⟩] none none,
        sampleCall "" [] (some "stop") none] ∧
      ¬ Lossless 7 [sampleCall "" [⟨some 0, "a", "f", "1"⟩] none none, sampleCall "Hi" [] none none,
        sampleCall "" [⟨some 0, "", "", "2"⟩] none none, sampleCall "" [] (some "stop") none] := by
  refine ⟨fun h => ?_, fun h => ?_, fun h => ?_, fun h => ?_, fun h => ?_⟩
  · exact absurd (h.prose .text) (by decide +kernel)
  · exact absurd (h.prose .text) (by decide +kernel)
  · exact absurd (h.prose .text) (by decide +kernel)
  · exact absurd (h.tools 1) (by decide +kernel)
  · exact absurd (h.tools 0) (by decide +kernel)

end NewApi.ClaudeStream
