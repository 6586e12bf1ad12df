import NewApi.Lib.Text
import NewApi.Lib.Transducer

/-!
# The OpenAI to Claude stream converter (`service/convert.go`)

`StreamResponseOpenAI2Claude` is called on each chunk of an OpenAI stream in turn and returns the
Claude events for it. Between the calls it keeps, in `RelayInfo` and `ClaudeConvertInfo`, which
block is open and under which index.

* `stopOpenBlocks`, `stopOpenBlocksAndAdvance` — closing what is open, and going on to the next free
  index.
* `firstChunk`, `usageChunk`, `laterChunk` — the paths of the converter: the first call, a chunk
  without choices, and every other chunk.
-/

namespace NewApi.ClaudeStream

/-! ## Usage -/

structure Usage where
  promptTokens : Int
  completionTokens : Int
  cachedCreationTokens : Int
  cachedTokens : Int
  claudeCacheCreation5mTokens : Int
  claudeCacheCreation1hTokens : Int
  deriving DecidableEq, Repr

structure ClaudeUsage where
  inputTokens : Int
  outputTokens : Int
  cacheCreationInputTokens : Int
  cacheReadInputTokens : Int
  /-- The five minute and one hour parts, when there are any. -/
  cacheCreation : Option (Int × Int)
  deriving DecidableEq, Repr

def normalizeCacheCreationSplit (totalTokens tokens5m tokens1h : Int) : Int × Int :=
  (tokens5m + max (totalTokens - tokens5m - tokens1h) 0, tokens1h)

def buildClaudeUsageFromOpenAIUsage (usage : Usage) : ClaudeUsage :=
  let creation := normalizeCacheCreationSplit usage.cachedCreationTokens usage.claudeCacheCreation5mTokens
    usage.claudeCacheCreation1hTokens
  ⟨usage.promptTokens, usage.completionTokens, usage.cachedCreationTokens, usage.cachedTokens,
    if creation.1 > 0 ∨ creation.2 > 0 then some creation else none⟩

/-! ## Chunks -/

structure ToolCallResponse where
  index : Option Int
  id : String
  name : String
  arguments : String
  deriving DecidableEq, Repr

/-- `ChatCompletionsStreamResponseChoiceDelta`. -/
structure ChoiceDelta where
  content : Option String
  reasoningContent : Option String
  reasoning : Option String
  toolCalls : List ToolCallResponse
  deriving DecidableEq, Repr

def ChoiceDelta.getContentString (d : ChoiceDelta) : String := d.content.getD ""

def ChoiceDelta.getReasoningContent (d : ChoiceDelta) : String :=
  match d.reasoningContent with
  | some s => s
  | none => d.reasoning.getD ""

structure Choice where
  delta : ChoiceDelta
  finishReason : Option String
  deriving DecidableEq, Repr

/-- The finish reason, unless it is absent or empty. -/
def Choice.finish (c : Choice) : Option String := c.finishReason.filter fun reason => decide (reason ≠ "")

/-- `ChatCompletionsStreamResponse`. -/
structure Chunk where
  id : String
  model : String
  choices : List Choice
  usage : Option Usage
  deriving DecidableEq, Repr

def Chunk.toolCalls (chunk : Chunk) : List ToolCallResponse :=
  match chunk.choices with
  | [] => []
  | choice :: _ => choice.delta.toolCalls

/-! ## Events -/

inductive BlockType where
  | text | thinking | toolUse
  deriving DecidableEq, Repr

inductive ContentBlock where
  | text
  | thinking
  | toolUse (id name : String)
  deriving DecidableEq, Repr

def ContentBlock.type : ContentBlock → BlockType
  | .text => .text
  | .thinking => .thinking
  | .toolUse .. => .toolUse

inductive BlockDelta where
  | textDelta (text : String)
  | thinkingDelta (thinking : String)
  | inputJsonDelta (partialJson : String)
  deriving DecidableEq, Repr

def BlockDelta.type : BlockDelta → BlockType
  | .textDelta _ => .text
  | .thinkingDelta _ => .thinking
  | .inputJsonDelta _ => .toolUse

/-- `ClaudeResponse`, one constructor for each of its types. -/
inductive Event where
  | messageStart (id model : String) (inputTokens : Int)
  | contentBlockStart (index : Int) (block : ContentBlock)
  | contentBlockDelta (index : Int) (delta : BlockDelta)
  | contentBlockStop (index : Int)
  | messageDelta (usage : ClaudeUsage) (stopReason : String)
  | messageStop
  deriving DecidableEq, Repr

/-- `strings.ToLower`, as far as the comparison with an ASCII text sees it: the two letters outside
ASCII whose lower case is in it are mapped too. -/
def toLower (s : String) : List Char := s.toList.map fun c =>
  if c = '\u212a' then 'k' else if c = '\u0130' then 'i' else c.toLower

/-- `OpenAIFinishReasonToClaudeStopReason`. -/
def stopReasonOpenAI2Claude (reason : String) : String :=
  let lower := toLower reason
  if lower = "stop".toList then "end_turn"
  else if lower = "stop_sequence".toList then "stop_sequence"
  else if lower = "length".toList ∨ lower = "max_tokens".toList then "max_tokens"
  else if lower = "content_filter".toList then "refusal"
  else if lower = "tool_calls".toList then "tool_use"
  else reason

/-! ## State -/

inductive LastMessageType where
  | none | text | tools | thinking
  deriving DecidableEq, Repr

/-- The fields of `RelayInfo` and its `ClaudeConvertInfo` that the converter uses. -/
structure Info where
  sendResponseCount : Nat
  estimatePromptTokens : Int
  lastMessagesType : LastMessageType
  index : Int
  usage : Option Usage
  finishReason : String
  done : Bool
  toolCallBaseIndex : Int
  toolCallMaxIndexOffset : Int
  deriving DecidableEq, Repr

/-- As `GenRelayInfoClaude` makes it. -/
def Info.initial (estimatePromptTokens : Int) : Info :=
  ⟨0, estimatePromptTokens, .none, 0, none, "", false, 0, 0⟩

def generateStopBlock (index : Int) : Event := .contentBlockStop index

def stopOpenBlocks (info : Info) : List Event :=
  match info.lastMessagesType with
  | .none => []
  | .text | .thinking => [generateStopBlock info.index]
  | .tools => (List.range (info.toolCallMaxIndexOffset + 1).toNat).map fun offset : Nat =>
      generateStopBlock (info.toolCallBaseIndex + offset)

def stopOpenBlocksAndAdvance (info : Info) : Info × List Event :=
  match info.lastMessagesType with
  | .none => (info, [])
  | .tools =>
    ({ info with
        index := info.toolCallBaseIndex + info.toolCallMaxIndexOffset + 1
        toolCallBaseIndex := 0
        toolCallMaxIndexOffset := 0
        lastMessagesType := .none }, stopOpenBlocks info)
  | .text | .thinking =>
    ({ info with index := info.index + 1, lastMessagesType := .none }, stopOpenBlocks info)

/-- The events that end the message: `message_delta` when there is a usage, then `message_stop`. -/
def endMessage (usage : Option Usage) (stopReason : String) : List Event :=
  (usage.toList.map fun u => .messageDelta (buildClaudeUsageFromOpenAIUsage u) stopReason) ++ [.messageStop]

/-! ## Text and thinking -/

/-- The two kinds of content that come as plain strings. -/
inductive Prose where
  | text | thinking
  deriving DecidableEq, Repr

namespace Prose

def messageType : Prose → LastMessageType
  | text => .text
  | thinking => .thinking

def block : Prose → ContentBlock
  | text => .text
  | thinking => .thinking

def delta : Prose → String → BlockDelta
  | text, s => .textDelta s
  | thinking, s => .thinkingDelta s

end Prose

/-- A new block for the content, with its first delta, after the events that closed the last one. -/
def startProse (advanced : Info × List Event) (kind : Prose) (s : String) : Info × List Event :=
  let index := advanced.1.index
  ({ advanced.1 with lastMessagesType := kind.messageType },
    advanced.2 ++ [.contentBlockStart index kind.block, .contentBlockDelta index (kind.delta s)])

/-- A later chunk goes on with the open block when it has the type of the content. -/
def continueProse (info : Info) (kind : Prose) (s : String) : Info × List Event :=
  if info.lastMessagesType ≠ kind.messageType then startProse (stopOpenBlocksAndAdvance info) kind s
  else (info, [.contentBlockDelta info.index (kind.delta s)])

/-- Reasoning comes before content: a chunk with both gives a thinking delta only. -/
def proseOf (d : ChoiceDelta) : Option (Prose × String) :=
  if d.getReasoningContent ≠ "" then some (.thinking, d.getReasoningContent)
  else if d.getContentString ≠ "" then some (.text, d.getContentString)
  else none

/-! ## Tool calls -/

/-- The index of the tool call at position `i` of its chunk. -/
def ToolCallResponse.offset (toolCall : ToolCallResponse) (i : Nat) : Int := toolCall.index.getD i

def inputJson (index : Int) (arguments : String) : List Event :=
  if arguments ≠ "" then [.contentBlockDelta index (.inputJsonDelta arguments)] else []

def toolCallEvents (base : Int) (i : Nat) (toolCall : ToolCallResponse) : List Event :=
  let blockIndex := base + toolCall.offset i
  (if toolCall.name ≠ "" then [.contentBlockStart blockIndex (.toolUse toolCall.id toolCall.name)] else []) ++
    inputJson blockIndex toolCall.arguments

/-- The loop over the tool calls of a chunk, from position `i`; it returns the new largest
offset. -/
def toolCallLoop (base : Int) : Nat → Int → List ToolCallResponse → Int × List Event
  | _, maxOffset, [] => (maxOffset, [])
  | i, maxOffset, toolCall :: rest =>
    let offset := toolCall.offset i
    let tail := toolCallLoop base (i + 1) (if offset > maxOffset then offset else maxOffset) rest
    (tail.1, toolCallEvents base i toolCall ++ tail.2)

def convertToolCalls (info : Info) (toolCalls : List ToolCallResponse) : Info × List Event :=
  let opened : Info × List Event :=
    if info.lastMessagesType ≠ .tools then
      let advanced := stopOpenBlocksAndAdvance info
      ({ advanced.1 with toolCallBaseIndex := advanced.1.index, toolCallMaxIndexOffset := 0 }, advanced.2)
    else (info, [])
  let base := opened.1.toolCallBaseIndex
  let loop := toolCallLoop base 0 opened.1.toolCallMaxIndexOffset toolCalls
  ({ opened.1 with
      lastMessagesType := .tools
      toolCallMaxIndexOffset := loop.1
      index := base + loop.1 }, opened.2 ++ loop.2)

/-! ## The first chunk -/

/-- Only the first tool call of the first chunk is looked at, whatever its index. -/
def firstToolCall (info : Info) (toolCalls : List ToolCallResponse) : Info × List Event :=
  match toolCalls with
  | [] => (info, [])
  | toolCall :: _ =>
    ({ info with lastMessagesType := .tools, toolCallBaseIndex := 0, toolCallMaxIndexOffset := 0 },
      .contentBlockStart 0 (.toolUse toolCall.id toolCall.name) :: inputJson 0 toolCall.arguments)

def firstProse (info : Info) (d : ChoiceDelta) : Info × List Event :=
  match proseOf d with
  | some (kind, s) =>
    let advanced := if info.lastMessagesType ≠ kind.messageType then stopOpenBlocksAndAdvance info else (info, [])
    startProse advanced kind s
  | none => (info, [])

def firstFinish (info : Info) (chunk : Chunk) (choice : Choice) : Info × List Event :=
  match choice.finish with
  | none => (info, [])
  | some reason =>
    ({ info with finishReason := reason, done := true },
      stopOpenBlocks info ++ endMessage (chunk.usage.or info.usage) (stopReasonOpenAI2Claude reason))

def firstChunk (info : Info) (chunk : Chunk) : Info × List Event :=
  let start := Event.messageStart chunk.id chunk.model info.estimatePromptTokens
  match chunk.choices with
  | [] => (info, [start])
  | choice :: _ =>
    let tools := firstToolCall info choice.delta.toolCalls
    let prose := firstProse tools.1 choice.delta
    let finish := firstFinish prose.1 chunk choice
    (finish.1, start :: (tools.2 ++ prose.2 ++ finish.2))

/-! ## Later chunks -/

/-- A chunk without choices ends the message once a usage is known. -/
def usageChunk (info : Info) (chunk : Chunk) : Info × List Event :=
  match chunk.usage.or info.usage with
  | none => (info, [])
  | some usage =>
    let stopReason := stopReasonOpenAI2Claude info.finishReason
    ({ info with done := true },
      stopOpenBlocks info ++ endMessage (some usage) (if stopReason = "" then "end_turn" else stopReason))

def convertDelta (info : Info) (d : ChoiceDelta) : Info × List Event :=
  if d.toolCalls ≠ [] then convertToolCalls info d.toolCalls
  else
    match proseOf d with
    | some (kind, s) => continueProse info kind s
    | none => (info, [])

/-- A finish reason without usage is kept and the rest of its chunk is not looked at. -/
def laterChunk (info : Info) (chunk : Chunk) (choice : Choice) : Info × List Event :=
  match choice.finish with
  | none => convertDelta info choice.delta
  | some reason =>
    match chunk.usage with
    | none => ({ info with finishReason := reason }, [])
    | some usage =>
      let body := convertDelta { info with finishReason := reason } choice.delta
      ({ body.1 with done := true },
        body.2 ++ stopOpenBlocks body.1 ++ endMessage (some usage) (stopReasonOpenAI2Claude reason))

def streamResponseOpenAI2Claude (info : Info) (chunk : Chunk) : Info × List Event :=
  if info.done then (info, [])
  else if info.sendResponseCount = 1 then firstChunk info chunk
  else
    match chunk.choices with
    | [] => usageChunk info chunk
    | choice :: _ => laterChunk info chunk choice

/-! ## Runs -/

/-- One call: the chunk, and the usage that the caller has set by then. -/
structure Call where
  chunk : Chunk
  usage : Option Usage
  deriving DecidableEq, Repr

/-- The caller counts the call and sets the usage. -/
def step (info : Info) (call : Call) : Info × List Event :=
  streamResponseOpenAI2Claude
    { info with sendResponseCount := info.sendResponseCount + 1, usage := call.usage } call.chunk

def events (estimatePromptTokens : Int) (calls : List Call) : List Event :=
  (transduce step (.initial estimatePromptTokens) calls).2

def sampleCall (content : String) (toolCalls : List ToolCallResponse) (finishReason : Option String)
    (usage : Option Usage) : Call :=
  ⟨⟨"id", "model", [⟨⟨some content, none, none, toolCalls⟩, finishReason⟩], usage⟩, usage⟩

/-! ## Frames -/

/-- The fields that converting a delta leaves alone. -/
def SameCall (info info' : Info) : Prop :=
  info'.sendResponseCount = info.sendResponseCount ∧ info'.done = info.done

theorem sameCall_advance (info : Info) : SameCall info (stopOpenBlocksAndAdvance info).1 := by
  unfold stopOpenBlocksAndAdvance
  cases info.lastMessagesType <;> exact ⟨rfl, rfl⟩

theorem sameCall_firstToolCall (info : Info) (toolCalls : List ToolCallResponse) :
    SameCall info (firstToolCall info toolCalls).1 := by
  cases toolCalls <;> exact ⟨rfl, rfl⟩

theorem sameCall_firstProse (info : Info) (d : ChoiceDelta) :
    SameCall info (firstProse info d).1 := by
  unfold firstProse
  rcases proseOf d with _ | p
  · exact ⟨rfl, rfl⟩
  simp only [startProse]
  split
  · exact sameCall_advance info
  · exact ⟨rfl, rfl⟩

theorem sameCall_convertDelta (info : Info) (d : ChoiceDelta) :
    SameCall info (convertDelta info d).1 := by
  unfold convertDelta
  split
  · unfold convertToolCalls
    by_cases hlast : info.lastMessagesType = .tools
    · simp only [hlast, ne_eq, not_true_eq_false, if_false]
      exact ⟨rfl, rfl⟩
    · simp only [hlast, ne_eq, not_false_eq_true, if_true]
      exact sameCall_advance info
  · rcases proseOf d with _ | p
    · exact ⟨rfl, rfl⟩
    simp only [continueProse]
    split
    · exact sameCall_advance info
    · exact ⟨rfl, rfl⟩

theorem sendResponseCount_step (info : Info) (call : Call) :
    (step info call).1.sendResponseCount = info.sendResponseCount + 1 := by
  unfold step streamResponseOpenAI2Claude
  split
  · rfl
  split
  · unfold firstChunk
    rcases call.chunk.choices with _ | ⟨choice, rest⟩
    · rfl
    have hfinish : ∀ info' : Info, (firstFinish info' call.chunk choice).1.sendResponseCount =
        info'.sendResponseCount := by
      intro info'
      unfold firstFinish
      cases choice.finish <;> rfl
    rw [hfinish, (sameCall_firstProse _ _).1, (sameCall_firstToolCall _ _).1]
  · rcases call.chunk.choices with _ | ⟨choice, rest⟩
    · simp only [usageChunk]
      cases call.chunk.usage.or call.usage <;> rfl
    simp only [laterChunk]
    cases choice.finish with
    | none => exact (sameCall_convertDelta _ _).1
    | some reason =>
      cases call.chunk.usage with
      | none => rfl
      | some usage => exact (sameCall_convertDelta _ _).1

end NewApi.ClaudeStream
