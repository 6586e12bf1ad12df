import NewApi.Lib.Brackets

/-!
# Request rules (`features/pricing/lib/billing-expr.ts`)

Multipliers on a price that depend on the request are edited as groups of conditions and stored as
an expression.

* `RequestCondition`, `RequestRuleGroup`, `normalizeCondition` — what the editor holds.
* `buildRequestRuleExpr` — the expression: one factor `(conditions ? multiplier : 1)` for each
  group.
* `tryParseRequestRuleExpr` — reading it back with splits at bracket depth zero and anchored regular
  expressions. The matches are written with `expect`, `quoted` and `run`: in each of the expressions
  the captured texts are determined by the characters that may not be in them.
-/

namespace NewApi.Pricing

open Js Brackets

/-! ## Conditions -/

inductive TimeFunc where
  | hour | minute | weekday | month | day
  deriving DecidableEq, Repr

def TimeFunc.name : TimeFunc → Str
  | hour => "hour".toList
  | minute => "minute".toList
  | weekday => "weekday".toList
  | month => "month".toList
  | day => "day".toList

/-- `MATCH_*`; a mode is typed as a string, so it can also be none of them. -/
inductive MatchMode where
  | eq | contains | gt | gte | lt | lte | exists_ | range
  | other (mode : String)
  deriving DecidableEq, Repr

inductive Source where
  | param | header
  deriving DecidableEq, Repr

def Source.name : Source → Str
  | param => "param".toList
  | header => "header".toList

inductive RequestCondition where
  /-- `TimeCondition` -/
  | time (timeFunc : TimeFunc) (timezone : Str) (mode : MatchMode) (value rangeStart rangeEnd : Str)
  /-- `ParamHeaderCondition` -/
  | request (source : Source) (path : Str) (mode : MatchMode) (value : Str)
  deriving DecidableEq, Repr

structure RequestRuleGroup where
  conditions : List RequestCondition
  multiplier : Str
  deriving DecidableEq, Repr

def timeMatchOptions : List MatchMode := [.eq, .gte, .lt, .range]

/-- `getRequestRuleMatchOptions` for the two other sources. -/
def requestMatchOptions : Source → List MatchMode
  | .header => [.eq, .contains, .exists_]
  | .param => [.eq, .contains, .exists_, .gt, .gte, .lt, .lte]

def normalizeCondition : RequestCondition → RequestCondition
  | .time timeFunc timezone mode value rangeStart rangeEnd =>
    .time timeFunc (if timezone = [] then "Asia/Shanghai".toList else timezone)
      (if mode ∈ timeMatchOptions then mode else .gte) value rangeStart rangeEnd
  | .request source path mode value =>
    .request source path (if mode ∈ requestMatchOptions source then mode else .eq) value

/-! ## Building -/

def buildExprLiteral (mode : MatchMode) (value : Str) : Str :=
  let text := trim value
  if mode = .contains then stringify text
  else if text = "true".toList ∨ text = "false".toList then text
  else if isNumericLiteral text then text
  else stringify text

/-- A call with one string argument. -/
def callExpr (name argument : Str) : Str := name ++ "(".toList ++ stringify argument ++ ")".toList

def timeOperator : MatchMode → Str
  | .gte => ">=".toList
  | .lt => "<".toList
  | _ => "==".toList

/-- `buildTimeConditionExpr` after normalisation. -/
def buildTimeConditionExpr (timeFunc : TimeFunc) (timezone : Str) (mode : MatchMode)
    (value rangeStart rangeEnd : Str) : Str :=
  let fn := callExpr timeFunc.name timezone
  if mode = .range then
    let s := trim rangeStart
    let e := trim rangeEnd
    if !isNumericLiteral s || !isNumericLiteral e then []
    else fn ++ " >= ".toList ++ s ++ " || ".toList ++ fn ++ " < ".toList ++ e
  else
    let v := trim value
    if !isNumericLiteral v then [] else fn ++ " ".toList ++ timeOperator mode ++ " ".toList ++ v

def compareOperator : MatchMode → Str
  | .gt => ">".toList
  | .gte => ">=".toList
  | .lt => "<".toList
  | _ => "<=".toList

/-- `buildRequestConditionExpr` for a path after normalisation. -/
def buildSourceConditionExpr (source : Source) (path : Str) (mode : MatchMode) (value : Str) :
    Str :=
  let path := trim path
  if path = [] then []
  else
    let sourceExpr := callExpr source.name path
    match mode with
    | .exists_ =>
      match source with
      | .header => sourceExpr ++ " != \"\"".toList
      | .param => sourceExpr ++ " != nil".toList
    | .contains =>
      let has := "has(".toList ++ sourceExpr ++ ", ".toList ++ buildExprLiteral .contains value ++ ")".toList
      match source with
      | .header => has
      | .param => sourceExpr ++ " != nil && ".toList ++ has
    | .gt | .gte | .lt | .lte =>
      let numText := trim value
      if !isNumericLiteral numText then []
      else sourceExpr ++ " != nil && ".toList ++ sourceExpr ++ " ".toList ++ compareOperator mode ++ " ".toList ++ numText
    | mode => sourceExpr ++ " == ".toList ++ buildExprLiteral mode value

def buildRequestConditionExpr (cond : RequestCondition) : Str :=
  match normalizeCondition cond with
  | .time timeFunc timezone mode value rangeStart rangeEnd =>
    buildTimeConditionExpr timeFunc timezone mode value rangeStart rangeEnd
  | .request source path mode value => buildSourceConditionExpr source path mode value

/-- `e.includes(' || ')`. -/
def includesOr (e : Str) : Bool := decide (" || ".toList <:+: e)

/-- The conditions of a group joined: several of them get parentheses around an alternative. -/
def joinConditions (condExprs : List Str) : Str :=
  match condExprs with
  | [e] => e
  | es => " && ".toList.intercalate (es.map fun e => if includesOr e then "(".toList ++ e ++ ")".toList else e)

def buildRuleGroupFactor (group : RequestRuleGroup) : Str :=
  let multiplier := trim group.multiplier
  if !isNumericLiteral multiplier then []
  else
    let condExprs := (group.conditions.map buildRequestConditionExpr).filter fun e => decide (e ≠ [])
    if condExprs = [] then []
    else "(".toList ++ joinConditions condExprs ++ " ? ".toList ++ multiplier ++ " : 1)".toList

def buildRequestRuleExpr (groups : List RequestRuleGroup) : Str :=
  " * ".toList.intercalate ((groups.map buildRuleGroupFactor).filter fun f => decide (f ≠ []))

/-! ## Parsing -/

def splitTopLevelMultiply (expr : Str) : List Str := splitTopLevel " * ".toList expr

def splitTopLevelAnd (expr : Str) : List Str := splitTopLevel " && ".toList expr

/-- `JSON.parse` of a text that starts as an array or object, made a string; `none` for an
exception. -/
structure Json where
  composite : Str → Option Str

/-- `parseExprLiteral`, with the result as a string. -/
def parseExprLiteral (json : Json) (raw : Str) : Option Str :=
  let text := trim raw
  if text = "true".toList ∨ text = "false".toList then some text
  else if isNumericLiteral text then some text
  else
    -- numbers and booleans were taken above, and `null` is the result for a text that is not read
    match text with
    | '"' :: _ => parseString text
    | '[' :: _ | '{' :: _ => json.composite text
    | _ => none

/-- `name("argument")` and what follows. -/
def readCall (name : Str) (s : Str) : Option (Str × Str) :=
  match expect (name ++ "(".toList) s with
  | none => none
  | some s =>
    match quoted s with
    | none => none
    | some (argument, s) => (expect ")".toList s).map fun s => (argument, s)

/-- `(hour|minute|weekday|month|day)("argument")` and what follows. -/
def readTimeCall (s : Str) : Option (TimeFunc × Str × Str) :=
  [TimeFunc.hour, .minute, .weekday, .month, .day].findSome? fun f =>
    (readCall f.name s).map fun r => (f, r.1, r.2)

/-- `f("tz") >= start || f("tz") < end` and what follows. -/
def readRange (s : Str) : Option (RequestCondition × Str) :=
  match readTimeCall s with
  | none => none
  | some (f, tz, s) =>
    match expect " >= ".toList s with
    | none => none
    | some s =>
      match run isNumberChar s with
      | none => none
      | some (start, s) =>
        match expect (" || ".toList ++ f.name ++ "(\"".toList ++ tz ++ "\") < ".toList) s with
        | none => none
        | some s =>
          match run isNumberChar s with
          | none => none
          | some (stop, s) => some (.time f tz .range [] start stop, s)

/-- One of the operators with blanks around it, and what follows. -/
def readOperator (operators : List (Str × MatchMode)) (s : Str) : Option (MatchMode × Str) :=
  operators.findSome? fun o => (expect (" ".toList ++ o.1 ++ " ".toList) s).map fun s => (o.2, s)

def timeOperators : List (Str × MatchMode) := [("==".toList, .eq), (">=".toList, .gte), ("<".toList, .lt)]

def compareOperators : List (Str × MatchMode) :=
  [(">".toList, .gt), (">=".toList, .gte), ("<".toList, .lt), ("<=".toList, .lte)]

def readLastNumber (s : Str) : Option Str :=
  match run isNumberChar s with
  | some (number, []) => some number
  | _ => none

def readTimeComparison (s : Str) : Option RequestCondition :=
  match readTimeCall s with
  | none => none
  | some (f, tz, s) =>
    match readOperator timeOperators s with
    | none => none
    | some (mode, s) => (readLastNumber s).map fun value => .time f tz mode value [] []

def readBareRange (s : Str) : Option RequestCondition :=
  match readRange s with
  | some (cond, []) => some cond
  | _ => none

def readWrappedRange (s : Str) : Option RequestCondition :=
  match s with
  | '(' :: s =>
    match readRange s with
    | some (cond, [')']) => some cond
    | _ => none
  | _ => none

def tryParseTimeCondition (expr : Str) : Option RequestCondition :=
  (readBareRange expr).or ((readWrappedRange expr).or (readTimeComparison expr))

/-- The rest of a text in quotes, in which a backslash takes the next character along:
`(?:[^"\\]|\\.)*"`. -/
def readLiteralBody : Str → Option (Str × Str)
  | [] => none
  | '"' :: s => some (['"'], s)
  | '\\' :: c :: s => if isLineTerminator c then none else (readLiteralBody s).map fun r => ('\\' :: c :: r.1, r.2)
  | ['\\'] => none
  | c :: s => (readLiteralBody s).map fun r => (c :: r.1, r.2)

/-- `"(?:[^"\\]|\\.)*"` and what follows. -/
def readLiteral : Str → Option (Str × Str)
  | '"' :: s => (readLiteralBody s).map fun r => ('"' :: r.1, r.2)
  | _ => none

/-- `has(source("path"), literal)` up to the end of the text: path and literal. -/
def readHas (source : Source) (s : Str) : Option (Str × Str) :=
  match expect "has(".toList s with
  | none => none
  | some s =>
    match readCall source.name s with
    | none => none
    | some (path, s) =>
      match expect ", ".toList s with
      | none => none
      | some s =>
        match readLiteral s with
        | some (literal, [')']) => some (path, literal)
        | _ => none

/-- A source call and a fixed text up to the end. -/
def readExists (source : Source) (tail : Str) (s : Str) : Option Str :=
  match readCall source.name s with
  | some (path, s) => if s = tail then some path else none
  | none => none

/-- `param("path") != nil && has(param("path"), literal)`. -/
def readParamHas (s : Str) : Option (Str × Str) :=
  match readCall Source.param.name s with
  | none => none
  | some (path, s) =>
    match expect " != nil && ".toList s with
    | none => none
    | some s =>
      match readHas .param s with
      | some (path', literal) => if path = path' then some (path, literal) else none
      | none => none

/-- `param("path") != nil && param("path") op number`. -/
def readParamComparison (s : Str) : Option RequestCondition :=
  match readCall Source.param.name s with
  | none => none
  | some (path, s) =>
    match expect " != nil && ".toList s with
    | none => none
    | some s =>
      match readCall Source.param.name s with
      | none => none
      | some (path', s) =>
        match readOperator compareOperators s with
        | none => none
        | some (mode, s) =>
          match readLastNumber s with
          | some value => if path = path' then some (.request .param path mode value) else none
          | none => none

/-- `(param|header)("path") == (.+)`. -/
def readEquality (source : Source) (s : Str) : Option (Str × Str) :=
  match readCall source.name s with
  | none => none
  | some (path, s) =>
    match expect " == ".toList s with
    | none => none
    | some s => if s ≠ [] ∧ s.all (fun c => !isLineTerminator c) then some (path, s) else none

/-- What a parser function does: it returns a value, `null`, or `JSON.parse` throws. -/
inductive SyntaxError where
  | json
  deriving DecidableEq, Repr

abbrev Parsed (α : Type) := Except SyntaxError (Option α)

/-- `JSON.parse` of a literal outside of any `try`. -/
def containsCondition (source : Source) (path literal : Str) : Parsed RequestCondition :=
  match parseString literal with
  | some value => .ok (some (.request source path .contains value))
  | none => .error .json

def equalityCondition (json : Json) (source : Source) (path raw : Str) : Parsed RequestCondition :=
  .ok ((parseExprLiteral json raw).map fun value => .request source path .eq value)

def tryParseRequestCondition (json : Json) (expr : Str) : Parsed RequestCondition :=
  match tryParseTimeCondition expr with
  | some cond => .ok (some cond)
  | none =>
    match readExists .header " != \"\"".toList expr with
    | some path => .ok (some (.request .header path .exists_ []))
    | none =>
      match readExists .param " != nil".toList expr with
      | some path => .ok (some (.request .param path .exists_ []))
      | none =>
        match readHas .header expr with
        | some (path, literal) => containsCondition .header path literal
        | none =>
          match readParamHas expr with
          | some (path, literal) => containsCondition .param path literal
          | none =>
            match readParamComparison expr with
            | some cond => .ok (some cond)
            | none =>
              match readEquality .param expr with
              | some (path, raw) => equalityCondition json .param path raw
              | none =>
                match readEquality .header expr with
                | some (path, raw) => equalityCondition json .header path raw
                | none => .ok none

/-- `/^\((.+) \? ([\d.eE+-]+) : 1\)$/s`, read from the end: there the number is determined. -/
def readFactor (part : Str) : Option (Str × Str) :=
  match expect " : 1)".toList.reverse part.reverse with
  | none => none
  | some r =>
    match run isNumberChar r with
    | none => none
    | some (number, r) =>
      match expect " ? ".toList.reverse r with
      | none => none
      | some r =>
        match r.reverse with
        | '(' :: c :: conditions => some (c :: conditions, number.reverse)
        | _ => none

/-- One condition after the other, up to the first that is not read. -/
def parseConditions (json : Json) : List Str → Parsed (List RequestCondition)
  | [] => .ok (some [])
  | part :: parts =>
    match tryParseRequestCondition json (trim part) with
    | .error e => .error e
    | .ok none => .ok none
    | .ok (some cond) =>
      match parseConditions json parts with
      | .ok (some conds) => .ok (some (cond :: conds))
      | r => r

def tryParseRuleGroupFactor (json : Json) (part : Str) : Parsed RequestRuleGroup :=
  match readFactor part with
  | none => .ok none
  | some (conditionStr, multiplier) =>
    match parseConditions json (splitTopLevelAnd conditionStr) with
    | .error e => .error e
    | .ok none => .ok none
    | .ok (some conditions) => .ok (if conditions = [] then none else some ⟨conditions, multiplier⟩)

def parseFactors (json : Json) : List Str → Parsed (List RequestRuleGroup)
  | [] => .ok (some [])
  | part :: parts =>
    match tryParseRuleGroupFactor json part with
    | .error e => .error e
    | .ok none => .ok none
    | .ok (some group) =>
      match parseFactors json parts with
      | .ok (some groups) => .ok (some (group :: groups))
      | r => r

def tryParseRequestRuleExpr (json : Json) (expr : Str) : Parsed (List RequestRuleGroup) :=
  let trimmed := trim expr
  if trimmed = [] then .ok (some []) else parseFactors json (splitTopLevelMultiply trimmed)

end NewApi.Pricing
