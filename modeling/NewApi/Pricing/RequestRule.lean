import NewApi.Pricing.RequestRules

/-!
# The conditions of a request rule as they are written

* `Rule.text` — the text that is written; `buildRequestConditionExpr_eq` says that it is.
* `rule?_some` — the rule has the fields of the normalised condition without white space around
  them.
-/

namespace NewApi.Pricing

open Js Brackets List

/-! ## Rules -/

inductive TimeOp where
  | eq | gte | lt
  deriving DecidableEq, Repr

def TimeOp.mode : TimeOp → MatchMode
  | eq => .eq
  | gte => .gte
  | lt => .lt

def TimeOp.symbol : TimeOp → Str
  | eq => "==".toList
  | gte => ">=".toList
  | lt => "<".toList

inductive CompareOp where
  | gt | gte | lt | lte
  deriving DecidableEq, Repr

def CompareOp.mode : CompareOp → MatchMode
  | gt => .gt
  | gte => .gte
  | lt => .lt
  | lte => .lte

def CompareOp.symbol : CompareOp → Str
  | gt => ">".toList
  | gte => ">=".toList
  | lt => "<".toList
  | lte => "<=".toList

/-- A condition that is written, with what is written of it. -/
inductive Rule where
  | range (timeFunc : TimeFunc) (timezone start stop : Str)
  | time (timeFunc : TimeFunc) (timezone : Str) (op : TimeOp) (value : Str)
  | exists_ (source : Source) (path : Str)
  | contains (source : Source) (path value : Str)
  | compare (path : Str) (op : CompareOp) (value : Str)
  | equals (source : Source) (path value : Str)
  deriving DecidableEq, Repr

namespace Rule

def condition : Rule → RequestCondition
  | range f tz start stop => .time f tz .range [] start stop
  | time f tz op value => .time f tz op.mode value [] []
  | exists_ source path => .request source path .exists_ []
  | contains source path value => .request source path .contains value
  | compare path op value => .request .param path op.mode value
  | equals source path value => .request source path .eq value

/-- The rule of a condition that has only the fields a rule has. -/
def ofCondition : RequestCondition → Option Rule
  | .time f tz mode value start stop =>
    match mode with
    | .range => some (range f tz start stop)
    | .eq => some (time f tz .eq value)
    | .gte => some (time f tz .gte value)
    | .lt => some (time f tz .lt value)
    | _ => none
  | .request source path mode value =>
    match mode with
    | .exists_ => some (exists_ source path)
    | .contains => some (contains source path value)
    | .eq => some (equals source path value)
    | .gt => some (compare path .gt value)
    | .gte => some (compare path .gte value)
    | .lt => some (compare path .lt value)
    | .lte => some (compare path .lte value)
    | _ => none

theorem ofCondition_condition (r : Rule) : ofCondition r.condition = some r := by
  cases r with
  | time f tz op value | compare path op value => cases op <;> rfl
  | range | exists_ | contains | equals => rfl

theorem condition_injective {r r' : Rule} (h : r.condition = r'.condition) : r = r' := by
  have heq := ofCondition_condition r
  rw [h, ofCondition_condition, Option.some.injEq] at heq
  exact heq.symm

/-- The time zone or the path. -/
def argument : Rule → Str
  | range _ tz _ _ | time _ tz _ _ => tz
  | exists_ _ path | contains _ path _ | compare path _ _ | equals _ path _ => path

/-- The value as it is written. -/
def literal : Rule → Str
  | contains _ _ value => buildExprLiteral .contains value
  | equals _ _ value => buildExprLiteral .eq value
  | _ => []

def isRange : Rule → Bool
  | range .. => true
  | _ => false

end Rule

/-- A call with the argument in quotes as it is. -/
def callText (name argument : Str) : Str := name ++ '(' :: '"' :: (argument ++ ['"', ')'])

namespace Rule

/-- The text of a rule, with these in the place of argument and literal. -/
def textWith (arg lit : Str) : Rule → Str
  | range f _ start stop => callText f.name arg ++ (" >= ".toList ++ (start ++ (" || ".toList ++
      (callText f.name arg ++ (" < ".toList ++ stop)))))
  | time f _ op value => callText f.name arg ++ (" ".toList ++ (op.symbol ++ (" ".toList ++ value)))
  | exists_ .header _ => callText Source.header.name arg ++ " != \"\"".toList
  | exists_ .param _ => callText Source.param.name arg ++ " != nil".toList
  | contains .header _ _ => "has(".toList ++ (callText Source.header.name arg ++ (", ".toList ++ (lit ++ ")".toList)))
  | contains .param _ _ => callText Source.param.name arg ++ (" != nil && ".toList ++
      ("has(".toList ++ (callText Source.param.name arg ++ (", ".toList ++ (lit ++ ")".toList)))))
  | compare _ op value => callText Source.param.name arg ++ (" != nil && ".toList ++
      (callText Source.param.name arg ++ (" ".toList ++ (op.symbol ++ (" ".toList ++ value)))))
  | equals source _ _ => callText source.name arg ++ (" == ".toList ++ lit)

/-- The text that is written: the argument is escaped. -/
def text (r : Rule) : Str := r.textWith (r.argument.flatMap escape) r.literal

end Rule

/-- The rule if the number is one. -/
def withNumber (value : Str) (r : Str → Rule) : Option Rule :=
  if isNumericLiteral (trim value) then some (r (trim value)) else none

def rule? (cond : RequestCondition) : Option Rule :=
  match normalizeCondition cond with
  | .time f tz mode value start stop =>
    match mode with
    | .range => (withNumber start fun s => .range f tz s []).bind fun _ =>
        withNumber stop fun e => .range f tz (trim start) e
    | .gte => withNumber value (.time f tz .gte)
    | .lt => withNumber value (.time f tz .lt)
    | _ => withNumber value (.time f tz .eq)
  | .request source path mode value =>
    if trim path = [] then none
    else
      match mode with
      | .exists_ => some (.exists_ source (trim path))
      | .contains => some (.contains source (trim path) (trim value))
      | .gt => withNumber value (.compare (trim path) .gt)
      | .gte => withNumber value (.compare (trim path) .gte)
      | .lt => withNumber value (.compare (trim path) .lt)
      | .lte => withNumber value (.compare (trim path) .lte)
      | _ => some (.equals source (trim path) (trim value))

theorem callExpr_eq (name argument : Str) :
    callExpr name argument = callText name (argument.flatMap escape) := by
  simp [callExpr, callText, stringify]

theorem buildExprLiteral_trim (mode : MatchMode) (value : Str) :
    buildExprLiteral mode (trim value) = buildExprLiteral mode value := by
  simp only [buildExprLiteral, trim_trim]

/-- The fields of a condition that the expression has a place for, without white space around
them. -/
def written : RequestCondition → RequestCondition
  | .time f tz mode value start stop =>
    if mode = .range then .time f tz mode [] (trim start) (trim stop) else .time f tz mode (trim value) [] []
  | .request source path mode value =>
    .request source (trim path) mode (if mode = .exists_ then [] else trim value)

def optionText (r : Option Rule) : Str := (r.map Rule.text).getD []

theorem optionText_withNumber (value : Str) (r : Str → Rule) :
    optionText (withNumber value r) = if !isNumericLiteral (trim value) then [] else (r (trim value)).text := by
  cases hvalue : isNumericLiteral (trim value) <;> simp [withNumber, optionText, hvalue]

theorem buildTimeConditionExpr_op (f : TimeFunc) (tz : Str) (op : TimeOp) (value start stop : Str) :
    buildTimeConditionExpr f tz op.mode value start stop = optionText (withNumber value (.time f tz op)) := by
  have hmode : op.mode ≠ .range ∧ timeOperator op.mode = op.symbol := by cases op <;> exact ⟨by decide, rfl⟩
  simp only [buildTimeConditionExpr, optionText_withNumber, hmode.1, hmode.2, if_false]
  split
  · rfl
  · simp only [callExpr_eq, append_assoc]
    rfl

theorem buildTimeConditionExpr_range (f : TimeFunc) (tz value start stop : Str) :
    buildTimeConditionExpr f tz .range value start stop =
      optionText ((withNumber start fun s => .range f tz s []).bind fun _ =>
        withNumber stop fun e => .range f tz (trim start) e) := by
  simp only [buildTimeConditionExpr, withNumber, if_true]
  by_cases hstart : isNumericLiteral (trim start) = true
  · by_cases hstop : isNumericLiteral (trim stop) = true
    · simp only [hstart, hstop, Bool.not_true, Bool.or_self, Bool.false_eq_true, if_false, if_true,
        callExpr_eq, append_assoc]
      rfl
    simp only [hstart, hstop, Bool.not_true, Bool.not_false, Bool.or_true, if_false, if_true,
      Bool.false_eq_true]
    rfl
  · simp only [hstart, Bool.not_false, Bool.true_or, if_false, if_true, Bool.false_eq_true]
    rfl

theorem buildSourceConditionExpr_compare (path : Str) (op : CompareOp) (value : Str)
    (hpath : trim path ≠ []) :
    buildSourceConditionExpr .param path op.mode value = optionText (withNumber value (.compare (trim path) op)) := by
  have hmode : compareOperator op.mode = op.symbol := by cases op <;> rfl
  have hbuild : buildSourceConditionExpr .param path op.mode value = if !isNumericLiteral (trim value) then []
      else callExpr Source.param.name (trim path) ++ " != nil && ".toList ++ callExpr Source.param.name (trim path) ++
        " ".toList ++ compareOperator op.mode ++ " ".toList ++ trim value := by
    simp only [buildSourceConditionExpr]
    rw [if_neg hpath]
    cases op <;> rfl
  rw [hbuild, hmode, optionText_withNumber]
  split
  · rfl
  · simp only [callExpr_eq, append_assoc]
    rfl

theorem buildSourceConditionExpr_equals (source : Source) (path value : Str)
    (hpath : trim path ≠ []) :
    buildSourceConditionExpr source path .eq value = (Rule.equals source (trim path) (trim value)).text := by
  simp only [buildSourceConditionExpr]
  rw [if_neg hpath, Rule.text, Rule.literal, buildExprLiteral_trim, callExpr_eq, append_assoc]
  rfl

theorem buildSourceConditionExpr_exists (source : Source) (path value : Str)
    (hpath : trim path ≠ []) :
    buildSourceConditionExpr source path .exists_ value = (Rule.exists_ source (trim path)).text := by
  simp only [buildSourceConditionExpr]
  rw [if_neg hpath, callExpr_eq]
  cases source <;> rfl

theorem buildSourceConditionExpr_contains (source : Source) (path value : Str)
    (hpath : trim path ≠ []) :
    buildSourceConditionExpr source path .contains value =
      (Rule.contains source (trim path) (trim value)).text := by
  simp only [buildSourceConditionExpr]
  rw [if_neg hpath, callExpr_eq, Rule.text, Rule.literal, buildExprLiteral_trim]
  cases source with
  | header | param =>
    simp only [append_assoc]
    rfl

theorem timeMode_cases (mode : MatchMode) :
    (∃ op : TimeOp, (if mode ∈ timeMatchOptions then mode else .gte) = op.mode) ∨
      (if mode ∈ timeMatchOptions then mode else .gte) = .range := by
  split
  · rename_i hmode
    simp only [timeMatchOptions, mem_cons, not_mem_nil, or_false] at hmode
    rcases hmode with rfl | rfl | rfl | rfl
    · exact .inl ⟨.eq, rfl⟩
    · exact .inl ⟨.gte, rfl⟩
    · exact .inl ⟨.lt, rfl⟩
    · exact .inr rfl
  · exact .inl ⟨.gte, rfl⟩

theorem requestMode_cases (source : Source) (mode : MatchMode) :
    (if mode ∈ requestMatchOptions source then mode else .eq) = .eq ∨
      (if mode ∈ requestMatchOptions source then mode else .eq) = .contains ∨
      (if mode ∈ requestMatchOptions source then mode else .eq) = .exists_ ∨
      source = .param ∧ ∃ op :
      CompareOp, (if mode ∈ requestMatchOptions source then mode else .eq) = op.mode := by
  split
  · rename_i hmode
    cases source with
    | header =>
      simp only [requestMatchOptions, mem_cons, not_mem_nil, or_false] at hmode
      rcases hmode with h | h | h
      · exact .inl h
      · exact .inr (.inl h)
      · exact .inr (.inr (.inl h))
    | param =>
      simp only [requestMatchOptions, mem_cons, not_mem_nil, or_false] at hmode
      rcases hmode with h | h | h | h | h | h | h
      · exact .inl h
      · exact .inr (.inl h)
      · exact .inr (.inr (.inl h))
      · exact .inr (.inr (.inr ⟨rfl, .gt, h⟩))
      · exact .inr (.inr (.inr ⟨rfl, .gte, h⟩))
      · exact .inr (.inr (.inr ⟨rfl, .lt, h⟩))
      · exact .inr (.inr (.inr ⟨rfl, .lte, h⟩))
  · exact .inl rfl

/-- **What is written** for a condition: nothing or the text of its rule. -/
theorem buildRequestConditionExpr_eq (cond : RequestCondition) :
    buildRequestConditionExpr cond = optionText (rule? cond) := by
  unfold buildRequestConditionExpr rule?
  cases cond with
  | time f tz mode value start stop =>
    have hmode := timeMode_cases mode
    simp only [normalizeCondition]
    generalize (if mode ∈ timeMatchOptions then mode else .gte) = mode' at hmode
    rcases hmode with ⟨op, rfl⟩ | rfl
    · rw [buildTimeConditionExpr_op]
      cases op <;> rfl
    · exact buildTimeConditionExpr_range f _ value start stop
  | request source path mode value =>
    have hmode := requestMode_cases source mode
    simp only [normalizeCondition]
    generalize (if mode ∈ requestMatchOptions source then mode else .eq) = mode' at hmode
    by_cases hpath : trim path = []
    · simp only [buildSourceConditionExpr, hpath, if_true]
      rfl
    simp only [hpath, if_false]
    rcases hmode with rfl | rfl | rfl | ⟨rfl, op, rfl⟩
    · exact buildSourceConditionExpr_equals source path value hpath
    · exact buildSourceConditionExpr_contains source path value hpath
    · exact buildSourceConditionExpr_exists source path value hpath
    · rw [buildSourceConditionExpr_compare path op value hpath]
      cases op <;> rfl

/-- What holds of the rules of valid conditions. -/
def Rule.Valid : Rule → Prop
  | .range _ tz start stop => tz ≠ [] ∧ isNumericLiteral start = true ∧ isNumericLiteral stop = true
  | .time _ tz _ value => tz ≠ [] ∧ isNumericLiteral value = true
  | .exists_ _ path => path ≠ []
  | .contains _ path value => path ≠ [] ∧ Tight value
  | .compare path _ value => path ≠ [] ∧ isNumericLiteral value = true
  | .equals _ path value => path ≠ [] ∧ Tight value

theorem withNumber_some {value : Str}
    {r : Str → Rule} {x : Rule} (h : withNumber value r = some x) :
    isNumericLiteral (trim value) = true ∧ r (trim value) = x := by
  unfold withNumber at h
  split at h
  · rename_i hvalue
    cases h
    exact ⟨hvalue, rfl⟩
  · cases h

theorem rule?_some {cond : RequestCondition} {r : Rule} (h : rule? cond = some r) :
    r.condition = written (normalizeCondition cond) ∧ r.Valid := by
  unfold rule? at h
  cases cond with
  | time f tz mode value start stop =>
    have hmode := timeMode_cases mode
    have htz : (if tz = [] then "Asia/Shanghai".toList else tz) ≠ [] := by
      split
      · decide
      · assumption
    simp only [normalizeCondition] at h ⊢
    generalize (if mode ∈ timeMatchOptions then mode else .gte) = mode' at hmode h
    generalize (if tz = [] then "Asia/Shanghai".toList else tz) = tz' at htz h
    rcases hmode with ⟨op, rfl⟩ | rfl
    · have hop : withNumber value (.time f tz' op) = some r := by cases op <;> exact h
      obtain ⟨hvalue, rfl⟩ := withNumber_some hop
      refine ⟨?_, htz, hvalue⟩
      cases op <;> rfl
    obtain ⟨_, hstart, hstop⟩ := Option.bind_eq_some_iff.mp h
    have hstart' := (withNumber_some hstart).1
    obtain ⟨hstop', rfl⟩ := withNumber_some hstop
    exact ⟨rfl, htz, hstart', hstop'⟩
  | request source path mode value =>
    have hmode := requestMode_cases source mode
    simp only [normalizeCondition] at h ⊢
    generalize (if mode ∈ requestMatchOptions source then mode else .eq) = mode' at hmode h
    by_cases hpath : trim path = []
    · simp only [hpath, if_true] at h
      cases h
    simp only [hpath, if_false] at h
    rcases hmode with rfl | rfl | rfl | ⟨rfl, op, rfl⟩
    · cases h
      exact ⟨rfl, hpath, tight_trim value⟩
    · cases h
      exact ⟨rfl, hpath, tight_trim value⟩
    · cases h
      exact ⟨rfl, hpath⟩
    have hop : withNumber value (.compare (trim path) op) = some r := by cases op <;> exact h
    obtain ⟨hvalue, rfl⟩ := withNumber_some hop
    refine ⟨?_, hpath, hvalue⟩
    cases op <;> rfl

end NewApi.Pricing
