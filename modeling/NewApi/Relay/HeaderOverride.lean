import NewApi.Lib.Grouping
import NewApi.Lib.Text

/-!
# Parameter overrides and the headers they write (`relay/common/override.go`)

A channel may override fields of the request body and headers. An override is a list of operations,
each under conditions on the body and on a context: the model names, the client's headers, the retry
and the error before it. The operations on headers work on a copy of the header override in that
context.

* `sanitizeHeaderOverrideMap` — the form in which header overrides are kept.
* `setHeaderOverrideInContext`, `copyHeaderInContext`, `moveHeaderInContext`,
  `deleteHeaderOverrideInContext`, `syncFieldsBetweenTargets` — the header operations.
* `applyOperations`, `applyParamOverride` — a whole override.

How a body is read, tested and changed is a parameter, `BodyEnv`. The value of an operation is taken
in the form in which its mode reads it. A map is the list of its entries in the order in which they
are visited.
-/

namespace NewApi.Relay

open NewApi.Text

/-! ## Header maps -/

/-- Header names and values; a value is what `%v` prints of it. -/
abbrev HeaderMap := List (String × String)

/-- `normalizeHeaderContextKey`; header names are ASCII. -/
def normalizeHeaderContextKey (key : String) : String := trimSpace key.toLower

def isHeaderPassthroughRuleKeyForOverride (key : String) : Bool :=
  let key := trimSpace key.toLower
  decide (key = "*") || hasPrefix key "re:" || hasPrefix key "regex:"

/-- One entry of `sanitizeHeaderOverrideMap`. -/
def sanitizeEntry (target : HeaderMap) (entry : String × String) : HeaderMap :=
  let normalizedKey := normalizeHeaderContextKey entry.1
  let normalizedValue := trimSpace entry.2
  if normalizedKey = "" then target
  else if normalizedValue = "" then
    if isHeaderPassthroughRuleKeyForOverride normalizedKey then setKey normalizedKey "" target else target
  else setKey normalizedKey normalizedValue target

def sanitizeHeaderOverrideMap (source : HeaderMap) : HeaderMap := source.foldl sanitizeEntry []

def buildRequestHeadersContext (headers : HeaderMap) : HeaderMap :=
  headers.foldl (fun target entry =>
    let normalized := normalizeHeaderContextKey entry.1
    let value := trimSpace entry.2
    if normalized = "" ∨ value = "" then target else setKey normalized value target) []

/-! ## The context of an override -/

/-- What `BuildParamOverrideContext` tells of the error before. -/
structure LastError where
  statusCode : Int
  message : String
  code : String
  errorType : String
  skipRetry : Bool
deriving DecidableEq, Repr

/-- The context of `BuildParamOverrideContext`. -/
structure OverrideContext where
  upstreamModel : String
  originalModel : String
  requestPath : String
  requestHeaders : HeaderMap
  headerOverride : HeaderMap
  retryIndex : Nat
  lastError : Option LastError
  isChannelTest : Bool
deriving DecidableEq, Repr

/-- `getHeaderValueFromContext`: the override first, then the client's headers. -/
def getHeaderValueFromContext (context : OverrideContext) (headerName : String) : Option String :=
  let headerName := normalizeHeaderContextKey headerName
  let value (source : HeaderMap) : Option String :=
    ((findKey headerName source).map trimSpace).filter fun value => decide (value ≠ "")
  if headerName = "" then none
  else (value context.headerOverride).or (value context.requestHeaders)

/-- A mapping of header tokens: for each declared token its replacements, or why they do not
parse. -/
structure HeaderMapping where
  declared : List (String × Except String (List String))
  keepOnlyDeclared : Bool

/-- The value of a `set_header` operation. -/
inductive HeaderValue where
  | missing
  | plain (text : String)
  | mapping (m : HeaderMapping)

def splitHeaderListValue (raw : String) : List String :=
  ((split raw ',').map trimSpace).filter fun token => decide (token ≠ "")

/-- The tokens `resolveHeaderOverrideValueByMapping` puts in place of one. -/
def HeaderMapping.replace (m : HeaderMapping) (token : String) : Except String (List String) :=
  match findKey token m.declared with
  | some replacement => replacement
  | none =>
    if m.keepOnlyDeclared then .ok []
    else (findKey "*" m.declared).getD (.ok [token])

/-- `resolveHeaderOverrideValueByMapping`; `none` is a header that is to go. -/
def resolveHeaderOverrideValueByMapping (context : OverrideContext) (headerName : String)
    (m : HeaderMapping) :
    Except String (Option String) := do
  if m.declared.isEmpty then throw "header value mapping cannot be empty"
  let appendTokens ← (findKey "$append" m.declared).getD (.ok [])
  let sourceTokens := ((getHeaderValueFromContext context headerName).map splitHeaderListValue).getD []
  let replaced ← sourceTokens.mapM m.replace
  let resultTokens := (replaced.flatten ++ appendTokens).eraseDups
  return if resultTokens.isEmpty then none else some (",".intercalate resultTokens)

def resolveHeaderOverrideValue (context : OverrideContext) (headerName : String) :
    HeaderValue → Except String (Option String)
  | .missing => .error "header value is required"
  | .mapping m => resolveHeaderOverrideValueByMapping context headerName m
  | .plain text => .ok (if trimSpace text = "" then none else some (trimSpace text))

def setHeaderOverrideInContext (context : OverrideContext) (headerName : String)
    (value : HeaderValue) (keepOrigin : Bool) : Except String OverrideContext :=
  let headerName := normalizeHeaderContextKey headerName
  if headerName = "" then .error "header name is required"
  else if keepOrigin && ((findKey headerName context.headerOverride).map trimSpace).any (fun v => decide (v ≠ "")) then
    .ok context
  else
    match resolveHeaderOverrideValue context headerName value with
    | .error err => .error err
    | .ok none => .ok { context with headerOverride := eraseKey headerName context.headerOverride }
    | .ok (some headerValue) =>
      .ok { context with headerOverride := setKey headerName headerValue context.headerOverride }

def deleteHeaderOverrideInContext (context : OverrideContext) (headerName : String) :
    Except String OverrideContext :=
  let headerName := normalizeHeaderContextKey headerName
  if headerName = "" then .error "header name is required"
  else .ok { context with headerOverride := eraseKey headerName context.headerOverride }

/-- `copyHeaderInContext`, for callers that pass over a source that does not exist. -/
def copyHeaderInContext (context : OverrideContext) (fromHeader toHeader : String)
    (keepOrigin : Bool) : Except String (Option OverrideContext) :=
  let fromHeader := normalizeHeaderContextKey fromHeader
  let toHeader := normalizeHeaderContextKey toHeader
  if fromHeader = "" ∨ toHeader = "" then .error "copy_header from/to is required"
  else
    match getHeaderValueFromContext context fromHeader with
    | none => .ok none
    | some value =>
      (setHeaderOverrideInContext context toHeader (.plain value) keepOrigin).map some

def moveHeaderInContext (context : OverrideContext) (fromHeader toHeader : String)
    (keepOrigin : Bool) : Except String (Option OverrideContext) :=
  let fromHeader := normalizeHeaderContextKey fromHeader
  let toHeader := normalizeHeaderContextKey toHeader
  if fromHeader = "" ∨ toHeader = "" then .error "move_header from/to is required"
  else
    match copyHeaderInContext context fromHeader toHeader keepOrigin with
    | .error err => .error err
    | .ok none => .ok none
    | .ok (some context) =>
      if fromHeader = toHeader then .ok (some context)
      else (deleteHeaderOverrideInContext context fromHeader).map some

/-! ## Operations -/

/-- How the body of a request is read, tested and changed. -/
structure BodyEnv (Body Field Condition BodyOp : Type) where
  /-- `checkConditions`, which sees the body and the context. -/
  checkConditions : Body → OverrideContext → List Condition → String → Except String Bool
  /-- The operations that change the body only. -/
  applyBodyOp : BodyOp → Body → OverrideContext → Except String Body
  /-- A field of the override at the top level of the body. -/
  setTopLevel : Body → String → Field → Except String Body
  /-- A field that exists and is neither null nor blank. -/
  readField : Body → String → Option Field
  writeField : Body → String → Field → Except String Body
  fieldValue : Field → HeaderValue
  ofText : String → Field

/-- The two sides of `sync_fields`. -/
inductive SyncTarget where
  | json (key : String)
  | header (key : String)
deriving DecidableEq, Repr

def parseSyncTarget (spec : String) : Except String SyncTarget :=
  let raw := trimSpace spec
  if raw = "" then .error "sync_fields target is required"
  else if ':' ∉ raw.toList then .ok (.json raw)
  else
    let kind := trimSpace (String.ofList (raw.toList.takeWhile (· ≠ ':'))).toLower
    let key := trimSpace (String.ofList ((raw.toList.dropWhile (· ≠ ':')).drop 1))
    if key = "" then .error ("sync_fields target key is required: " ++ raw)
    else if kind = "json" ∨ kind = "body" then .ok (.json key)
    else if kind = "header" then .ok (.header key)
    else .error ("sync_fields target prefix is invalid: " ++ raw)

/-- What an operation does. -/
inductive Action (BodyOp : Type) where
  | body (op : BodyOp)
  | returnError (message : String)
  | setHeader (path : String) (value : HeaderValue)
  | deleteHeader (path : String)
  | copyHeader (path source target : String)
  | moveHeader (path source target : String)
  /-- The names `parseHeaderPassThroughNames` finds. -/
  | passHeaders (names : Except String (List String))
  | syncFields (source target : String)
  | unknown (mode : String)

structure ParamOperation (Condition BodyOp : Type) where
  action : Action BodyOp
  keepOrigin : Bool
  conditions : List Condition
  logic : String

/-- A channel's parameter override: its fields, and its operations if it has a list of them that
parses. -/
structure ParamOverride (Field Condition BodyOp : Type) where
  fields : List (String × Field)
  operations : Option (List (ParamOperation Condition BodyOp))

def ParamOverride.isEmpty {Field Condition BodyOp : Type}
    (p : ParamOverride Field Condition BodyOp) : Bool :=
  p.fields.isEmpty && p.operations.isNone

section Apply

variable {Body Field Condition BodyOp : Type} (env : BodyEnv Body Field Condition BodyOp)

def readSyncTargetValue (data : Body) (context : OverrideContext) : SyncTarget → Option Field
  | .json key => env.readField data key
  | .header key => (getHeaderValueFromContext context key).map env.ofText

def writeSyncTargetValue (data : Body) (context : OverrideContext) (value : Field) :
    SyncTarget → Except String (Body × OverrideContext)
  | .json key => (env.writeField data key value).map fun data => (data, context)
  | .header key =>
    (setHeaderOverrideInContext context key (env.fieldValue value) false).map fun context => (data, context)

/-- `syncFieldsBetweenTargets`: a side that is missing is filled from the other. -/
def syncFieldsBetweenTargets (data : Body) (context : OverrideContext) (source target : String) :
    Except String (Body × OverrideContext) := do
  let source ← parseSyncTarget source
  let target ← parseSyncTarget target
  match readSyncTargetValue env data context source, readSyncTargetValue env data context target with
  | some value, none => writeSyncTargetValue env data context value target
  | none, some value => writeSyncTargetValue env data context value source
  | _, _ => return (data, context)

/-- The named header, or the operation's path. -/
def headerOrPath (name path : String) : String := if trimSpace name = "" then trimSpace path else trimSpace name

/-- One operation whose conditions hold. -/
def applyAction (keepOrigin : Bool) (data : Body) (context : OverrideContext) :
    Action BodyOp → Except String (Body × OverrideContext)
  | .body op => (env.applyBodyOp op data context).map fun data => (data, context)
  | .returnError message => .error message
  | .setHeader path value =>
    (setHeaderOverrideInContext context path value keepOrigin).map fun context => (data, context)
  | .deleteHeader path => (deleteHeaderOverrideInContext context path).map fun context => (data, context)
  | .copyHeader path source target =>
    (copyHeaderInContext context (headerOrPath source path) (headerOrPath target path) keepOrigin).map
      fun copied => (data, copied.getD context)
  | .moveHeader path source target =>
    (moveHeaderInContext context (headerOrPath source path) (headerOrPath target path) keepOrigin).map
      fun moved => (data, moved.getD context)
  | .passHeaders names => do
    let context ← (← names).foldlM (fun context name => do
      return (← copyHeaderInContext context name name keepOrigin).getD context) context
    return (data, context)
  | .syncFields source target => syncFieldsBetweenTargets env data context source target
  | .unknown mode => .error ("unknown operation: " ++ mode)

def applyOperations : List (ParamOperation Condition BodyOp) → Body → OverrideContext →
    Except String (Body × OverrideContext)
  | [], data, context => .ok (data, context)
  | op :: rest, data, context =>
    match env.checkConditions data context op.conditions op.logic with
    | .error err => .error err
    | .ok false => applyOperations rest data context
    | .ok true =>
      match applyAction env op.keepOrigin data context op.action with
      | .error err => .error err
      | .ok (data, context) => applyOperations rest data context

def applyOperationsLegacy (data : Body) (fields : List (String × Field)) : Except String Body :=
  fields.foldlM (fun data field => env.setTopLevel data field.1 field.2) data

/-- `ApplyParamOverride`: the fields first, then the operations. -/
def applyParamOverride (p : ParamOverride Field Condition BodyOp) (data : Body)
    (context : OverrideContext) :
    Except String (Body × OverrideContext) := do
  let data ← applyOperationsLegacy env data p.fields
  match p.operations with
  | none => return (data, context)
  | some operations => applyOperations env operations data context

end Apply

end NewApi.Relay
