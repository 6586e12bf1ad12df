import NewApi.Service.ClaudeStream

/-!
# Chat streams to an OpenAI-format client (`relay/channel/openai/relay_openai.go`, `helper.go`)

* `oaiStreamHandler` — each chunk is held back until the next one has come; the last one takes a
  path of its own, and a chunk with the usage may follow.
-/

namespace NewApi.OpenaiStream

open ClaudeStream List

/-! ## Forwarding -/

/-- What `OaiStreamHandler` is called with, for a client of the OpenAI format without forced format
and thinking conversion. -/
structure Setting where
  isAudioModel : Bool
  shouldIncludeUsage : Bool
  upstreamModelName : String
  /-- `ResponseText2Usage`. -/
  responseText2Usage : String → Usage
  /-- `applyUsagePostProcessing`, which may look at the last chunk. -/
  applyUsagePostProcessing : Usage → Option Chunk → Usage

def validUsage : Option Usage → Bool
  | none => false
  | some usage => decide (usage.promptTokens ≠ 0 ∨ usage.completionTokens ≠ 0)

/-- The part of a tool call that tokens are counted on. -/
def written (toolCall : ToolCallResponse) : String := toolCall.name ++ toolCall.arguments

/-- The text that tokens are counted on, and the largest number of tool calls in a delta. -/
def processStreamResponse (seen : String × Nat) (chunk : Chunk) : String × Nat :=
  chunk.choices.foldl (fun seen choice =>
    (seen.1 ++ choice.delta.getContentString ++ choice.delta.getReasoningContent ++
        String.join (choice.delta.toolCalls.map written),
      max seen.2 choice.delta.toolCalls.length)) seen

/-- The variables of the handler, and the chunks it has sent. -/
structure Progress where
  lastStreamData : Option Chunk := none
  secondLastStreamData : Option Chunk := none
  seen : String × Nat := ("", 0)
  sent : List Chunk := []

/-- The callback of the scanner: the chunk held back is sent, the new one is held back. -/
def onData (x : Setting) (p : Progress) (data : Chunk) : Progress where
  sent := p.sent ++ p.lastStreamData.toList
  secondLastStreamData := if x.isAudioModel then p.lastStreamData.or p.secondLastStreamData else p.secondLastStreamData
  lastStreamData := some data
  seen := processStreamResponse p.seen data

def speaks (choice : Choice) : Bool :=
  decide (choice.delta.getContentString ≠ "" ∨ choice.delta.getReasoningContent ≠ "")

def shouldSendLastResp (x : Setting) (last : Chunk) : Bool :=
  if validUsage last.usage && !x.shouldIncludeUsage then last.choices.any speaks else true

/-- The usage that the last chunk reports, or for an audio model the one before it. -/
def streamUsage (x : Setting) (p : Progress) : Option Usage :=
  let reported (data : Option Chunk) := (data.bind Chunk.usage).filter fun usage => validUsage (some usage)
  (reported p.lastStreamData).or (if x.isAudioModel then reported p.secondLastStreamData else none)

/-- The chunks sent before `[DONE]`, and the usage returned. -/
def oaiStreamHandler (x : Setting) (stream : List Chunk) : List Chunk × Usage :=
  let p := stream.foldl (onData x) {}
  let counted := x.responseText2Usage p.seen.1
  let usage := x.applyUsagePostProcessing ((streamUsage x p).getD
    { counted with completionTokens := counted.completionTokens + p.seen.2 * 7 }) p.lastStreamData
  (p.sent ++ p.lastStreamData.toList.filter (shouldSendLastResp x) ++
      -- `HandleFinalResponse`: a chunk without choices
      (if x.shouldIncludeUsage && (streamUsage x p).isNone then
        [⟨(p.lastStreamData.map Chunk.id).getD "", (p.lastStreamData.map Chunk.model).getD x.upstreamModelName, [],
          some usage⟩] else []),
    usage)

/-- Text, reasoning, a tool-call delta or a finish reason. -/
def Carries (chunk : Chunk) : Bool :=
  chunk.choices.any fun choice =>
    speaks choice || decide (choice.delta.toolCalls ≠ []) || choice.finish.isSome

theorem shouldSendLastResp_iff (x : Setting) (last : Chunk) : shouldSendLastResp x last = true ↔
    (validUsage last.usage = true → x.shouldIncludeUsage = false → last.choices.any speaks = true) := by
  unfold shouldSendLastResp
  cases validUsage last.usage <;> cases x.shouldIncludeUsage <;> simp

theorem foldl_onData (x : Setting) (stream : List Chunk) : ∀ p : Progress,
    (stream.foldl (onData x) p).sent ++ (stream.foldl (onData x) p).lastStreamData.toList =
        p.sent ++ p.lastStreamData.toList ++ stream ∧
      (stream.foldl (onData x) p).lastStreamData = stream.getLast?.or p.lastStreamData := by
  induction stream with
  | nil => simp
  | cons data stream ih =>
    intro p
    obtain ⟨hsent, hlast⟩ := ih (onData x p data)
    refine ⟨?_, ?_⟩
    · rw [foldl_cons, hsent]
      simp [onData]
    · rw [foldl_cons, hlast, getLast?_cons]
      cases stream.getLast? <;> rfl

/-- **Every chunk that carries something is sent exactly once, in order**, if and only if the last
one is not dropped for its usage. -/
theorem forwards_all_iff (x : Setting) (stream : List Chunk) :
    (oaiStreamHandler x stream).1.filter Carries = stream.filter Carries ↔
      ∀ last ∈ stream.getLast?, validUsage last.usage = true → x.shouldIncludeUsage = false →
      Carries last = true →
        last.choices.any speaks = true := by
  obtain ⟨hsent, hlast⟩ := foldl_onData x stream {}
  simp only [Option.toList_none, append_nil, nil_append, Option.or_none] at hsent hlast
  have hfinal : ∀ (b : Bool) (chunk : Chunk), chunk.choices = [] → (if b then [chunk] else []).filter Carries = [] := by
    intro b chunk hnone
    cases b <;> simp [Carries, hnone]
  have hstream := congrArg (filter Carries) hsent
  simp only [oaiStreamHandler, filter_append, hfinal, append_nil] at hstream ⊢
  rw [← hstream, append_cancel_left_eq, hlast]
  rcases stream.getLast? with _ | last
  · simp
  have hkept := shouldSendLastResp_iff x last
  cases hc : Carries last with
  | false => cases hs : shouldSendLastResp x last <;> simp [hc, hs]
  | true => cases hs : shouldSendLastResp x last <;> simpa [hc, hs] using hkept

def toolCallChunk : Chunk :=
  ⟨"id", "model", [⟨⟨none, none, none, [⟨some 0, "call", "f", "{}"⟩]⟩, some "tool_calls"⟩], some ⟨1, 1, 0, 0, 0, 0⟩⟩

/-- A last chunk that has a usage, a tool call and a finish reason is dropped when the client did
not ask for the usage. -/
theorem last_tool_call_dropped : ¬ (oaiStreamHandler ⟨false, false, "model", fun _ => ⟨0, 0, 0, 0, 0, 0⟩, fun u _ => u⟩
    [toolCallChunk]).1.filter Carries = [toolCallChunk].filter Carries := by
  decide +kernel

/-! ## Thinking to content -/

/-- `ThinkingContentInfo`, as `Adaptor.Init` makes it. -/
structure ThinkingContentInfo where
  isFirstThinkingContent : Bool := true
  sendLastThinkingContent : Bool := false
  hasSentThinkingContent : Bool := false

def setContent (s : String) (choice : Choice) : Choice :=
  { choice with delta := { choice.delta with content := some s, reasoningContent := none, reasoning := none } }

/-- `Copy`, with the content of every choice replaced. -/
def copyWith (s : String) (chunk : Chunk) : Chunk :=
  { chunk with choices := chunk.choices.map (setContent s) }

def reasoningOf (chunk : Chunk) : String :=
  String.join (chunk.choices.map fun c => c.delta.getReasoningContent)

def contentOf (chunk : Chunk) : String :=
  String.join (chunk.choices.map fun c => c.delta.getContentString)

/-- The loop body of the last part of `sendStreamData`. -/
def convertChoice (hasThinkingContent hasContent : Bool) (choice : Choice) : Choice :=
  if choice.delta.getReasoningContent ≠ "" then setContent choice.delta.getReasoningContent choice
  else if !hasThinkingContent && !hasContent then
    { choice with delta := { choice.delta with reasoningContent := none, reasoning := none } }
  else choice

/-- `sendStreamData` with thinking-to-content: the state after it, and the chunks sent. -/
def sendThinking (info : ThinkingContentInfo) (chunk : Chunk) : ThinkingContentInfo × List Chunk :=
  let hasThinkingContent := chunk.choices.any fun c => decide (c.delta.getReasoningContent ≠ "")
  let hasContent := chunk.choices.any fun c => decide (c.delta.getContentString ≠ "")
  let converted := { chunk with choices := chunk.choices.map (convertChoice hasThinkingContent hasContent) }
  if info.isFirstThinkingContent && hasThinkingContent then
    ({ info with isFirstThinkingContent := false, hasSentThinkingContent := true },
      [copyWith ("<think>\n" ++ reasoningOf chunk) chunk])
  -- the closing tag goes out before the first choice is converted, if there is one
  else if hasContent && !info.sendLastThinkingContent && info.hasSentThinkingContent then
    ({ info with sendLastThinkingContent := true }, [copyWith "\n</think>\n" chunk, converted])
  else (info, [converted])

def reasoning (stream : List Chunk) : String := String.join (stream.map reasoningOf)

def content (stream : List Chunk) : String := String.join (stream.map contentOf)

/-- The contents sent from a state on, one after another. -/
def sentFrom (info : ThinkingContentInfo) (stream : List Chunk) : String :=
  content (transduce sendThinking info stream).2

/-- The state once the opening tag is sent, and once the closing one is. -/
def opened : ThinkingContentInfo := ⟨false, false, true⟩

def closed : ThinkingContentInfo := ⟨false, true, true⟩

/-- Single-choice chunks in which no reasoning comes after content. -/
structure Orderly (stream : List Chunk) : Prop where
  single : ∀ chunk ∈ stream, ∃ choice, chunk.choices = [choice]
  ordered : stream.Pairwise fun a b => contentOf a ≠ "" → reasoningOf b = ""

def Mixed (chunk : Chunk) : Prop := reasoningOf chunk ≠ "" ∧ contentOf chunk ≠ ""

section Thinking

variable {chunk : Chunk} {stream : List Chunk}

@[simp] theorem content_cons : content (chunk :: stream) = contentOf chunk ++ content stream := by
  simp [content]

@[simp] theorem reasoning_cons :
    reasoning (chunk :: stream) = reasoningOf chunk ++ reasoning stream := by
  simp [reasoning]

theorem sentFrom_cons (info : ThinkingContentInfo) : sentFrom info (chunk :: stream) =
    content (sendThinking info chunk).2 ++ sentFrom (sendThinking info chunk).1 stream := by
  simp [sentFrom, transduce, content]

@[simp] theorem getContentString_setContent (s : String) (choice : Choice) :
    (setContent s choice).delta.getContentString = s := rfl

@[simp] theorem getContentString_convertChoice (b b' : Bool) (choice : Choice) :
    (convertChoice b b' choice).delta.getContentString =
      if choice.delta.getReasoningContent = "" then choice.delta.getContentString
      else choice.delta.getReasoningContent := by
  by_cases hr : choice.delta.getReasoningContent = ""
  · rw [convertChoice, if_neg (not_not.mpr hr), if_pos hr]
    split <;> rfl
  · rw [convertChoice, if_pos hr, if_neg hr, getContentString_setContent]

section

variable (h : ∃ choice, chunk.choices = [choice])

include h

theorem sent_initial : sentFrom {} (chunk :: stream) =
    if reasoningOf chunk = "" then contentOf chunk ++ sentFrom {} stream
    else "<think>\n" ++ reasoningOf chunk ++ sentFrom opened stream := by
  obtain ⟨choice, hc⟩ := h
  rw [sentFrom_cons]
  by_cases hr : choice.delta.getReasoningContent = "" <;>
    simp [sendThinking, reasoningOf, contentOf, content, copyWith, hc, hr, opened]

theorem sent_opened : sentFrom opened (chunk :: stream) =
    if contentOf chunk = "" then reasoningOf chunk ++ sentFrom opened stream
    else "\n</think>\n" ++ (if reasoningOf chunk = "" then contentOf chunk else reasoningOf chunk) ++
      sentFrom closed stream := by
  obtain ⟨choice, hc⟩ := h
  rw [sentFrom_cons]
  by_cases hr : choice.delta.getReasoningContent = "" <;> by_cases ht : choice.delta.getContentString = "" <;>
    simp [sendThinking, reasoningOf, contentOf, content, copyWith, hc, hr, ht, opened, closed]

theorem sent_closed (hr : reasoningOf chunk = "") :
    sentFrom closed (chunk :: stream) = contentOf chunk ++ sentFrom closed stream := by
  obtain ⟨choice, hc⟩ := h
  have hr' : choice.delta.getReasoningContent = "" := by simpa [reasoningOf, hc] using hr
  rw [sentFrom_cons]
  simp [sendThinking, contentOf, content, hc, hr', closed]

end

theorem Orderly.of_cons (h : Orderly (chunk :: stream)) :
    (∃ choice, chunk.choices = [choice]) ∧ (contentOf chunk ≠ "" → reasoning stream = "") ∧ Orderly stream := by
  obtain ⟨hhead, htail⟩ := pairwise_cons.mp h.ordered
  refine ⟨h.single chunk mem_cons_self, fun hc => ?_, fun c hc => h.single c (mem_cons_of_mem _ hc),
    htail⟩
  exact (Text.join_eq_empty_iff _ _).mpr fun c hmem => hhead c hmem hc

theorem sent_of_no_reasoning (h : Orderly stream) (hr : reasoning stream = "") :
    sentFrom {} stream = content stream ∧ sentFrom closed stream = content stream ∧
      sentFrom opened stream = if content stream = "" then "" else "\n</think>\n" ++ content stream := by
  induction stream with
  | nil => exact ⟨rfl, rfl, rfl⟩
  | cons chunk stream ih =>
    obtain ⟨hs, -, htail⟩ := h.of_cons
    simp only [reasoning_cons, String.append_eq_empty_iff] at hr
    obtain ⟨hinitial, hclosed, hopened⟩ := ih htail hr.2
    rw [sent_initial hs, sent_closed hs hr.1, sent_opened hs, hinitial, hclosed, hopened]
    by_cases hc : contentOf chunk = "" <;> simp [hr.1, hc, String.append_assoc]

theorem opened_iff (h : Orderly stream) (hcontent : content stream ≠ "") :
    sentFrom opened stream = reasoning stream ++ "\n</think>\n" ++ content stream ↔ ∀ c ∈ stream, ¬ Mixed c := by
  induction stream with
  | nil => exact absurd rfl hcontent
  | cons chunk stream ih =>
    obtain ⟨hs, hlater, htail⟩ := h.of_cons
    rw [sent_opened hs, forall_mem_cons]
    by_cases hc : contentOf chunk = ""
    · simp only [content_cons, hc, String.empty_append] at hcontent
      rw [and_iff_right fun hmixed : Mixed chunk => hmixed.2 hc, ← ih htail hcontent]
      simp [hc, String.append_assoc]
    -- the first chunk with content: what follows has no reasoning
    have hrest := hlater hc
    rw [if_neg hc, (sent_of_no_reasoning htail hrest).2.1, reasoning_cons, content_cons, hrest,
      String.append_empty,
      and_iff_left fun c hmem hmixed => hmixed.1 ((Text.join_eq_empty_iff _ _).mp hrest c hmem)]
    by_cases hr : reasoningOf chunk = ""
    · simp [hr, Mixed, String.append_assoc]
    refine iff_of_false (fun heq => ?_) (not_not.mpr ⟨hr, hc⟩)
    have hlength := congrArg String.length heq
    have hpos := Nat.pos_of_ne_zero (mt String.length_eq_zero_iff.mp hc)
    simp [hr] at hlength
    omega

/-- **The contents sent** are the reasoning between the tags, if there is any, and then the content,
if and only if no chunk carries both kinds. -/
theorem thinking_to_content_iff (h : Orderly stream) : ((reasoning stream ≠ "" → content stream ≠ "" →
        sentFrom {} stream = "<think>\n" ++ reasoning stream ++ "\n</think>\n" ++ content stream) ∧
      (reasoning stream = "" → sentFrom {} stream = content stream)) ↔ ∀ chunk ∈ stream, ¬ Mixed chunk := by
  rw [and_iff_left fun hr => (sent_of_no_reasoning h hr).1]
  induction stream with
  | nil => simp [reasoning]
  | cons chunk stream ih =>
    obtain ⟨hs, hlater, htail⟩ := h.of_cons
    rw [sent_initial hs, forall_mem_cons]
    split
    · rename_i hr
      rw [and_iff_right fun hmixed : Mixed chunk => hmixed.1 hr, ← ih htail]
      by_cases hc : contentOf chunk = ""
      · simp [hr, hc]
      · simp [hr, hlater hc]
    rename_i hr
    by_cases hc : contentOf chunk = ""
    · rw [and_iff_right fun hmixed : Mixed chunk => hmixed.2 hc]
      by_cases hcontent : content stream = ""
      · have hnone := (Text.join_eq_empty_iff contentOf _).mp hcontent
        exact iff_of_true (fun _ hne => absurd (by simp [hc, hcontent]) hne) fun c hmem hmixed => hmixed.2 (hnone c hmem)
      · rw [← opened_iff htail hcontent]
        simp [hr, hc, hcontent, String.append_assoc]
    · refine iff_of_false (fun heq => ?_) (fun hpure => hpure.1 ⟨hr, hc⟩)
      have hlength := congrArg String.length (heq (by simp [hr]) (by simp [hc]))
      have hpos := Nat.pos_of_ne_zero (mt String.length_eq_zero_iff.mp hc)
      rw [(sent_of_no_reasoning htail (hlater hc)).2.2] at hlength
      split at hlength <;> simp [*] at hlength <;> omega

end Thinking

def chunkWith (reasoning content : String) : Chunk :=
  ⟨"id", "model", [⟨⟨some content, some reasoning, none, []⟩, none⟩], none⟩

theorem separate_chunks_converted : sentFrom {} [chunkWith "a" "", chunkWith "" "b"] =
    "<think>\n" ++ reasoning [chunkWith "a" "", chunkWith "" "b"] ++ "\n</think>\n" ++
      content [chunkWith "a" "", chunkWith "" "b"] := by
  have h : Orderly [chunkWith "a" "", chunkWith "" "b"] := ⟨by simp [chunkWith], by decide +kernel⟩
  refine ((thinking_to_content_iff h).mpr ?_).1 (by decide +kernel) (by decide +kernel)
  unfold Mixed
  decide +kernel

/-- One chunk with both: its content is overwritten by the reasoning, and the closing tag never
comes. -/
theorem mixed_chunk_loses_content : Orderly [chunkWith "a" "b"] ∧ sentFrom {} [chunkWith "a" "b"] = "<think>\na" :=
  ⟨⟨by simp [chunkWith], by decide +kernel⟩, by decide +kernel⟩

end NewApi.OpenaiStream
