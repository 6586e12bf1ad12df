import Mathlib

/-!
# Claude answers, whole and streamed (`relay/channel/claude/relay-claude.go`)

* `Event`, `Counts` — the events of an upstream stream and the counts of a usage.
* `claudeStreamHandler`, `claudeHandler` — the usage and the number of web searches that are billed,
  for an answer that is streamed and for one that comes as one body.
-/

namespace NewApi.ClaudeRelay

open List

/-! ## Events -/

/-- The counts of a `ClaudeUsage`, an absent one as 0. -/
structure Counts where
  inputTokens : Nat
  outputTokens : Nat
  cacheReadInputTokens : Nat
  cacheCreationInputTokens : Nat
  cacheCreation5mTokens : Nat
  cacheCreation1hTokens : Nat
  webSearchRequests : Nat

inductive Block where
  | text (text : String)
  | thinking
  | toolUse (id name : String)

inductive Delta where
  | text (text : String)
  | thinking (thinking : String)
  | signature
  | inputJson (partialJson : String)

inductive Event where
  | messageStart (usage : Option Counts)
  | contentBlockStart (index : Nat) (block : Block)
  | contentBlockDelta (index : Nat) (delta : Delta)
  | contentBlockStop (index : Nat)
  | ping
  | messageDelta (stopReason : Option String) (usage : Option Counts)
  | messageStop

def Event.isContent : Event → Bool
  | .contentBlockStart .. | .contentBlockDelta .. | .contentBlockStop _ | .ping => true
  | _ => false

/-! ## Usage -/

structure Usage where
  promptTokens : Nat := 0
  completionTokens : Nat := 0
  totalTokens : Nat := 0
  cachedTokens : Nat := 0
  cachedCreationTokens : Nat := 0
  claudeCacheCreation5mTokens : Nat := 0
  claudeCacheCreation1hTokens : Nat := 0
  usageSemantic : String := ""
  deriving DecidableEq

structure ClaudeResponseInfo where
  responseText : String := ""
  usage : Usage := {}
  done : Bool := false

def Delta.spoken : Delta → String
  | .text s | .thinking s => s
  | _ => ""

/-- The newest count, unless it is 0. -/
def newest (count kept : Nat) : Nat := if 0 < count then count else kept

def formatClaudeResponseInfo (info : ClaudeResponseInfo) : Event → ClaudeResponseInfo
  | .messageStart (some u) =>
    { info with
      usage := { info.usage with
        promptTokens := u.inputTokens
        completionTokens := u.outputTokens
        cachedTokens := u.cacheReadInputTokens
        cachedCreationTokens := u.cacheCreationInputTokens
        claudeCacheCreation5mTokens := u.cacheCreation5mTokens
        claudeCacheCreation1hTokens := u.cacheCreation1hTokens
        usageSemantic := "anthropic" } }
  | .contentBlockDelta _ delta => { info with responseText := info.responseText ++ delta.spoken }
  | .messageDelta _ (some u) =>
    let kept := info.usage
    let prompt := newest u.inputTokens kept.promptTokens
    let completion := newest u.outputTokens kept.completionTokens
    { info with
      done := true
      usage := ⟨prompt, completion, prompt + completion, newest u.cacheReadInputTokens kept.cachedTokens,
        newest u.cacheCreationInputTokens kept.cachedCreationTokens,
        newest u.cacheCreation5mTokens kept.claudeCacheCreation5mTokens,
        newest u.cacheCreation1hTokens kept.claudeCacheCreation1hTokens, "anthropic"⟩ }
  | .messageDelta _ none => { info with done := true }
  | _ => info

/-- What is missing is counted from the text; `responseText2Usage` gives the prompt and completion
tokens. -/
def handleStreamFinalResponse (responseText2Usage : String → Nat × Nat) (info : ClaudeResponseInfo) : Usage :=
  let usage := info.usage
  let repaired :=
    if usage.completionTokens = 0 ∨ info.done = false then
      let fallback := responseText2Usage info.responseText
      let completion := if usage.completionTokens = 0 ∨ info.done = false ∧ fallback.2 > usage.completionTokens
        then fallback.2 else usage.completionTokens
      let prompt := if usage.promptTokens = 0 then fallback.1 else usage.promptTokens
      { usage with promptTokens := prompt, completionTokens := completion, totalTokens := prompt + completion }
    else usage
  { repaired with usageSemantic := "anthropic" }

/-- The usage, and the web searches on the context: no event sets them. -/
def claudeStreamHandler (responseText2Usage : String → Nat × Nat) (events : List Event) :
    Usage × Nat :=
  (handleStreamFinalResponse responseText2Usage (events.foldl formatClaudeResponseInfo {}), 0)

def claudeHandler : Option Counts → Usage × Nat
  | none => ({}, 0)
  | some u => (⟨u.inputTokens, u.outputTokens, u.inputTokens + u.outputTokens, u.cacheReadInputTokens,
      u.cacheCreationInputTokens, u.cacheCreation5mTokens, u.cacheCreation1hTokens, "anthropic"⟩, u.webSearchRequests)

/-- The final counts of a stream: one that is 0 or absent in `message_delta` has its value of
`message_start`. -/
def Counts.final (start delta : Counts) : Counts where
  inputTokens := newest delta.inputTokens start.inputTokens
  outputTokens := newest delta.outputTokens start.outputTokens
  cacheReadInputTokens := newest delta.cacheReadInputTokens start.cacheReadInputTokens
  cacheCreationInputTokens := newest delta.cacheCreationInputTokens start.cacheCreationInputTokens
  cacheCreation5mTokens := newest delta.cacheCreation5mTokens start.cacheCreation5mTokens
  cacheCreation1hTokens := newest delta.cacheCreation1hTokens start.cacheCreation1hTokens
  webSearchRequests := newest delta.webSearchRequests start.webSearchRequests

theorem foldl_content {content : List Event} (h : ∀ e ∈ content, e.isContent = true) : ∀ info,
    (content.foldl formatClaudeResponseInfo info).usage = info.usage := by
  induction content with
  | nil => exact fun _ => rfl
  | cons e content ih =>
    intro info
    obtain ⟨he, hrest⟩ := forall_mem_cons.mp h
    rw [foldl_cons, ih hrest]
    cases e <;> first | rfl | cases he

/-- **A streamed answer is billed as the whole one** if and only if it made no web search. -/
theorem billed_same_iff (responseText2Usage : String → Nat × Nat) {start delta : Counts} {content : List Event}
    (stopReason : Option String) (hcontent : ∀ e ∈ content, e.isContent = true)
    (houtput : 0 < (start.final delta).outputTokens) :
    claudeStreamHandler responseText2Usage
        (.messageStart (some start) :: content ++ [.messageDelta stopReason (some delta), .messageStop]) =
      claudeHandler (some (start.final delta)) ↔ (start.final delta).webSearchRequests = 0 := by
  have husage := foldl_content hcontent (formatClaudeResponseInfo {} (.messageStart (some start)))
  have hne : ¬ newest delta.outputTokens start.outputTokens = 0 := Nat.ne_of_gt houtput
  rw [claudeStreamHandler, claudeHandler, cons_append, foldl_cons, foldl_append]
  generalize content.foldl formatClaudeResponseInfo _ = info at husage
  simp only [foldl_cons, foldl_nil, formatClaudeResponseInfo, handleStreamFinalResponse, husage,
    hne, Bool.true_eq_false, or_self, if_false, Counts.final, Prod.mk.injEq, true_and]
  exact eq_comm

def searchedCounts : Counts := ⟨10, 5, 0, 0, 0, 0, 2⟩

theorem plain_answer_billed_same : claudeStreamHandler (fun _ => (0, 0))
    [.messageStart (some ⟨10, 1, 0, 0, 0, 0, 0⟩), .ping, .messageDelta none (some ⟨0, 5, 0, 0, 0, 0, 0⟩), .messageStop] =
      claudeHandler (some ⟨10, 5, 0, 0, 0, 0, 0⟩) :=
  (@billed_same_iff (fun _ => (0, 0)) _ _ [.ping] none (by decide) (by decide)).mpr rfl

/-- Two web searches, billed for the whole answer only. -/
theorem streamed_searches_not_billed : claudeStreamHandler (fun _ => (0, 0))
    [.messageStart (some ⟨10, 1, 0, 0, 0, 0, 0⟩), .messageDelta none (some searchedCounts), .messageStop] ≠
      claudeHandler (some searchedCounts) := by
  decide +kernel

end NewApi.ClaudeRelay
