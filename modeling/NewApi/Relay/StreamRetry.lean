import NewApi.Lib.Text

/-!
# Retries of streamed answers (`controller/relay.go`, `relay/channel/claude`,
`relay/channel/openai`)

A stream handler reports an error in the middle of a stream as it reports one before any output: as
an error with status 500. `shouldRetry` decides by that error and the settings alone, so that the
next attempt may start although the client has a part of an answer.

* `claudeStreamHandler`, `oaiResponsesToChatStreamHandler` — what a stream writes to the client, and
  its error.
* `relay` — the attempts of a request that are started.
* `lateFault` — the fault of a stream that comes after something was written.
-/

namespace NewApi.StreamRetry

open List Text

/-! ## The decision -/

/-- `NewAPIError`, with the text of the error it wraps. -/
structure NewAPIError where
  message : String
  errorCode : String
  statusCode : Int
  skipRetry : Bool
deriving DecidableEq

structure Setting where
  retryTimes : Int
  /-- `AutomaticRetryStatusCodeRanges`. -/
  retryStatusCodeRanges : List (Int × Int)
  /-- `ShouldSkipRetryAfterChannelAffinityFailure` for the request. -/
  skipRetryAfterAffinityFailure : Bool
  specificChannel : Bool

def isChannelError (err : NewAPIError) : Bool := hasPrefix err.errorCode "channel:"

def isViolationFeeCode (errorCode : String) : Bool := hasPrefix errorCode "violation_fee."

def hasCSAMViolationMarker (err : NewAPIError) : Bool :=
  contains err.message "Failed check: SAFETY_CHECK_TYPE" || contains err.message "Content violates usage guidelines"

def normalizeViolationFeeError (err : NewAPIError) : NewAPIError :=
  if hasCSAMViolationMarker err then { err with errorCode := "violation_fee.grok.csam", skipRetry := true }
  else if isViolationFeeCode err.errorCode then { err with skipRetry := true }
  else err

def isAlwaysSkipRetryCode (errorCode : String) : Bool := errorCode == "bad_response_body"

def shouldRetryByStatusCode (s : Setting) (code : Int) : Bool :=
  if code = 504 ∨ code = 524 then false
  else s.retryStatusCodeRanges.any fun range => decide (range.1 ≤ code ∧ code ≤ range.2)

def shouldRetry (s : Setting) (err : NewAPIError) (retryTimes : Int) : Bool :=
  if s.skipRetryAfterAffinityFailure then false
  else if isChannelError err then true
  else if err.skipRetry then false
  else if retryTimes ≤ 0 then false
  else if s.specificChannel then false
  else if 200 ≤ err.statusCode ∧ err.statusCode < 300 then false
  else if err.statusCode < 100 ∨ 599 < err.statusCode then true
  else if isAlwaysSkipRetryCode err.errorCode then false
  else shouldRetryByStatusCode s err.statusCode

/-! ## The handlers -/

section Scan

variable {σ ι : Type}

/-- `StreamScannerHandler`: the handler is called for one item after the other, until it stops the
stream. -/
def scan (handler : σ → ι → σ × List String × Option NewAPIError) : σ → List ι →
      σ × List String × Option NewAPIError
  | st, [] => (st, [], none)
  | st, item :: rest =>
    match handler st item with
    | (st, written, some err) => (st, written, some err)
    | (st, written, none) =>
      let (st, later, err) := scan handler st rest
      (st, written ++ later, err)

/-- A stream handler: a fault ends the stream as it is, otherwise `final` is written. -/
def runStream (handler : σ → ι → σ × List String × Option NewAPIError) (final : σ → List String) (st : σ)
    (items : List ι) : List String × Option NewAPIError :=
  match scan handler st items with
  | (_, written, some err) => (written, some err)
  | (st, written, none) => (written ++ final st, none)

end Scan

/-- The error code and the text a stream ends with. -/
structure Fault where
  code : String
  message : String

/-- Both handlers give a fault the status 500. -/
def Fault.error (fault : Fault) : NewAPIError := ⟨fault.message, fault.code, 500, false⟩

/-- What a Claude channel sends. -/
inductive ClaudeItem where
  | event (type data : String)
  /-- Data that is not JSON, with the decoder's complaint. -/
  | malformed (message : String)
  /-- An error of a type that is not empty. -/
  | error (type message : String)

/-- The format of the client. -/
inductive RelayFormat where
  | claude
  | openAI
deriving DecidableEq

def ClaudeItem.fault : ClaudeItem → Option Fault
  | .event .. => none
  | .malformed message => some ⟨"bad_response_body", message⟩
  | .error type message => some ⟨type, message⟩

/-- A client of the OpenAI format gets a chunk for these events only. -/
def ClaudeItem.shown (format : RelayFormat) : ClaudeItem → Bool
  | .event type _ => decide (format = .claude ∨
      type ∈ ["message_start", "content_block_start", "content_block_delta", "message_delta"])
  | _ => false

def handleStreamResponseData (format : RelayFormat) (item : ClaudeItem) :
    List String × Option NewAPIError :=
  match item.fault, item with
  | some fault, _ => ([], some fault.error)
  | none, .event _ data => (if item.shown format then [data] else [], none)
  | none, _ => ([], none)

/-- The end of a stream without a fault; `usage` is the usage chunk, if the client has asked for
one. -/
def handleStreamFinalResponse (usage : Option String) : RelayFormat → List String
  | .claude => []
  | .openAI => usage.toList ++ ["[DONE]"]

def claudeStreamHandler (format : RelayFormat) (usage : Option String) (items : List ClaudeItem) :
    List String × Option NewAPIError :=
  runStream (fun st item => (st, handleStreamResponseData format item))
    (fun _ => handleStreamFinalResponse usage format) () items

/-- The events of a Responses stream that the handler looks at. -/
inductive ResponsesEvent where
  | reasoningSummaryDelta (delta : String)
  | outputTextDelta (delta : String)
  /-- An item or an argument event of a function call, with the id of the call. -/
  | toolCallDelta (callID argsDelta : String)
  | completed
  /-- `response.error` or `response.failed`, with the code and the text of an error of a type that is not empty. -/
  | failed (type : String) (error : Option Fault)
  /-- Events without effect on the client, and data that is not JSON, which is only logged. -/
  | other

def ResponsesEvent.fault : ResponsesEvent → Option Fault
  | .failed type none => some ⟨"bad_response", "responses stream error: " ++ type⟩
  | .failed _ (some fault) => some fault
  | _ => none

def ResponsesEvent.shown : ResponsesEvent → Bool
  | .reasoningSummaryDelta delta => decide (delta ≠ "")
  | .toolCallDelta callID _ => decide (callID ≠ "")
  | .outputTextDelta _ | .completed => true
  | .failed .. | .other => false

/-- The flags of the handler; `text` is whether `outputText` has anything. -/
structure ChatFlags where
  sentStart : Bool
  sentStop : Bool
  text : Bool

/-- The chunk that opens the answer, unless it was sent. -/
def ChatFlags.start (flags : ChatFlags) : List String := if flags.sentStart then [] else ["start"]

def ChatFlags.stop (flags : ChatFlags) : List String := if flags.sentStop then [] else ["stop"]

/-- The chunks of one event; the blank lines between two summaries are left out. -/
def handleResponsesEvent (flags : ChatFlags) (event : ResponsesEvent) :
    ChatFlags × List String × Option NewAPIError :=
  match event with
  | .reasoningSummaryDelta delta =>
    if delta = "" then (flags, [], none)
    else ({ flags with sentStart := true }, flags.start ++ [delta], none)
  | .outputTextDelta delta =>
    if delta = "" then ({ flags with sentStart := true }, flags.start, none)
    else ({ flags with sentStart := true, text := true }, flags.start ++ [delta], none)
  | .toolCallDelta callID argsDelta =>
    -- once there is text, tool calls are kept back
    if callID = "" ∨ flags.text = true then (flags, [], none)
    else ({ flags with sentStart := true }, flags.start ++ [argsDelta], none)
  | .completed => ({ flags with sentStart := true, sentStop := true }, flags.start ++ flags.stop, none)
  | .failed .. => (flags, [], event.fault.map Fault.error)
  | .other => (flags, [], none)

def oaiResponsesToChatStreamHandler (usage : Option String) (events : List ResponsesEvent) :
    List String × Option NewAPIError :=
  runStream handleResponsesEvent (fun flags => flags.start ++ flags.stop ++ usage.toList ++ ["[DONE]"])
    ⟨false, false, false⟩ events

/-! ## The attempts -/

/-- How a channel answers. -/
inductive Answer where
  /-- With an error, before there is a stream. -/
  | refused (err : NewAPIError)
  | claude (format : RelayFormat) (usage : Option String) (items : List ClaudeItem)
  | responses (usage : Option String) (events : List ResponsesEvent)

/-- What the client gets of the answer, and the error the attempt ends with. -/
def Answer.handle : Answer → List String × Option NewAPIError
  | .refused err => ([], some err)
  | .claude format usage items => claudeStreamHandler format usage items
  | .responses usage events => oaiResponsesToChatStreamHandler usage events

/-- One turn of the loop: the retry counter, which a change of group sets back, whether there is a
channel and the body can be read, and the answer. -/
structure Attempt where
  retry : Int
  prepared : Bool
  answer : Answer

def Attempt.written (attempt : Attempt) : List String := attempt.answer.handle.1

/-- The attempts of a request that are started. -/
def relay (s : Setting) : List Attempt → List Attempt
  | [] => []
  | attempt :: rest =>
    if attempt.retry ≤ s.retryTimes ∧ attempt.prepared = true then
      attempt :: match attempt.answer.handle.2.map normalizeViolationFeeError with
        | none => []
        | some err => if shouldRetry s err (s.retryTimes - attempt.retry) then relay s rest else []
    else []

/-! ## Faults -/

section Late

variable {σ ι : Type} (shown : ι → Bool) (fault : ι → Option Fault)

/-- The fault that ends a stream after one of its items was shown to the client. -/
def lateFault : List ι → Option Fault
  | [] => none
  | item :: rest =>
    match fault item with
    | some _ => none
    | none => if shown item then rest.findSome? fault else lateFault rest

variable {shown fault} {handler : σ → ι → σ × List String × Option NewAPIError}
  (hfault : ∀ st item, (handler st item).2.2 = (fault item).map Fault.error)

include hfault

variable (hshown : ∀ st item, (handler st item).2.1 ≠ [] → shown item = true ∧ fault item = none)

include hshown

end Late

def Answer.lateFault : Answer → Option Fault
  | .refused _ => none
  | .claude format _ items => StreamRetry.lateFault (ClaudeItem.shown format) ClaudeItem.fault items
  | .responses _ events => StreamRetry.lateFault ResponsesEvent.shown ResponsesEvent.fault events

end NewApi.StreamRetry
