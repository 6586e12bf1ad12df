import NewApi.Pricing.RequestRule

/-!
# Reading one condition of a request rule

* `reads_text_iff`, `reads_wrapped_iff` — the written text is read back exactly when path or time
  zone need no escapes and a quoted value of an equality has no line separator in it; in parentheses
  only a range is read.
-/

namespace NewApi.Pricing

open Js Brackets List Rule Option

/-! ## The readers -/

/-- A text that can stand in quotes: not empty and without quotes. -/
def QuoteFree (s : Str) : Prop := s ≠ [] ∧ ∀ c ∈ s, c ≠ '"'

theorem callText_append (name arg rest : Str) :
    callText name arg ++ rest = (name ++ "(".toList) ++ '"' :: (arg ++ '"' :: (")".toList ++ rest)) := by
  simp [callText]

variable {arg rest s tz number t lit path y value : Str}

theorem readCall_callText (h : QuoteFree arg) (name rest : Str) :
    readCall name (callText name arg ++ rest) = some (arg, rest) := by
  simp only [readCall]
  rw [callText_append, expect_append]
  simp only
  rw [quoted_append h.1 h.2]
  rfl

theorem readCall_eq_some {name : Str} (h : readCall name s = some (arg, rest)) :
    s = callText name arg ++ rest ∧ QuoteFree arg := by
  unfold readCall at h
  split at h
  · cases h
  rename_i s₁ hname
  split at h
  · cases h
  rename_i arg' s₂ hquoted
  obtain ⟨s₃, hclose, heq⟩ := map_eq_some_iff.mp h
  cases heq
  obtain ⟨hs₁, hne, hfree⟩ := quoted_eq_some hquoted
  refine ⟨?_, hne, hfree⟩
  rw [callText_append, expect_eq_some hname, hs₁, expect_eq_some hclose]

variable {f : TimeFunc}

theorem readCall_other {g : TimeFunc} (h : g ≠ f) (arg rest : Str) :
    readCall g.name (callText f.name arg ++ rest) = none := by
  cases f <;> cases g <;> first | exact absurd rfl h | rfl

theorem readTimeCall_callText (h : QuoteFree arg) (f : TimeFunc) (rest : Str) :
    readTimeCall (callText f.name arg ++ rest) = some (f, arg, rest) := by
  have hcall := readCall_callText h f.name rest
  have hother : ∀ g, g ≠ f → readCall g.name (callText f.name arg ++ rest) = none := fun g hg =>
    readCall_other hg arg rest
  unfold readTimeCall
  cases f with
  | hour => simp only [findSome?_cons, hcall, map_some]
  | minute | weekday | month | day => simp (disch := decide) only [findSome?_cons, hcall, hother, map_some, map_none]

theorem readTimeCall_eq_some (h : readTimeCall s = some (f, tz, rest)) :
    s = callText f.name tz ++ rest ∧ QuoteFree tz := by
  obtain ⟨g, _, hg⟩ := exists_of_findSome?_eq_some h
  obtain ⟨⟨arg, s'⟩, hcall, heq⟩ := map_eq_some_iff.mp hg
  cases heq
  exact readCall_eq_some hcall

variable {mode : MatchMode}

theorem readOperator_eq_some {operators : List (Str × MatchMode)}
    (h : readOperator operators s = some (mode, rest)) :
    ∃ symbol, (symbol, mode) ∈ operators ∧ s = " ".toList ++ (symbol ++ (" ".toList ++ rest)) := by
  obtain ⟨o, ho, hread⟩ := exists_of_findSome?_eq_some h
  obtain ⟨s', hs', heq⟩ := map_eq_some_iff.mp hread
  cases heq
  refine ⟨o.1, ho, ?_⟩
  rw [expect_eq_some hs']
  simp

theorem readOperator_time (op : TimeOp) (rest : Str) :
    readOperator timeOperators (" ".toList ++ (op.symbol ++ (" ".toList ++ rest))) = some (op.mode, rest) := by
  cases op <;> rfl

theorem readOperator_compare (op : CompareOp) (rest : Str) :
    readOperator compareOperators (" ".toList ++ (op.symbol ++ (" ".toList ++ rest))) = some (op.mode, rest) := by
  cases op <;> rfl

theorem mem_timeOperators {symbol : Str} (h : (symbol, mode) ∈ timeOperators) :
    ∃ op : TimeOp, op.symbol = symbol ∧ op.mode = mode := by
  simp only [timeOperators, mem_cons, not_mem_nil, or_false, Prod.mk.injEq] at h
  rcases h with ⟨rfl, rfl⟩ | ⟨rfl, rfl⟩ | ⟨rfl, rfl⟩
  · exact ⟨.eq, rfl, rfl⟩
  · exact ⟨.gte, rfl, rfl⟩
  · exact ⟨.lt, rfl, rfl⟩

theorem mem_compareOperators {symbol : Str} (h : (symbol, mode) ∈ compareOperators) :
    ∃ op : CompareOp, op.symbol = symbol ∧ op.mode = mode := by
  simp only [compareOperators, mem_cons, not_mem_nil, or_false, Prod.mk.injEq] at h
  rcases h with ⟨rfl, rfl⟩ | ⟨rfl, rfl⟩ | ⟨rfl, rfl⟩ | ⟨rfl, rfl⟩
  · exact ⟨.gt, rfl, rfl⟩
  · exact ⟨.gte, rfl, rfl⟩
  · exact ⟨.lt, rfl, rfl⟩
  · exact ⟨.lte, rfl, rfl⟩

theorem readLastNumber_eq_some (h : readLastNumber s = some number) : s = number := by
  unfold readLastNumber at h
  split at h
  · rename_i hrun
    cases h
    rw [(run_eq_some hrun).1, append_nil]
  · cases h

theorem run_number (h : isNumericLiteral number = true)
    (hrest : ∀ c ∈ rest.head?, isNumberChar c = false) :
    run isNumberChar (number ++ rest) = some (number, rest) := by
  obtain ⟨hne, hall⟩ := isNumberChar_of_isNumericLiteral h
  exact run_append hne hall hrest

theorem readLastNumber_of_literal (h : isNumericLiteral number = true) :
    readLastNumber number = some number := by
  have hrun := @run_number [] number h (by simp)
  rw [append_nil] at hrun
  rw [readLastNumber, hrun]

variable {cond : RequestCondition}

theorem readRange_eq_some (h : readRange s = some (cond, rest)) :
    ∃ f tz start stop, QuoteFree tz ∧ cond = (Rule.range f tz start stop).condition ∧
      s = (Rule.range f tz start stop).textWith tz [] ++ rest := by
  unfold readRange at h
  split at h
  · cases h
  rename_i f tz s₁ hcall
  split at h
  · cases h
  rename_i s₂ hge
  split at h
  · cases h
  rename_i start s₃ hstart
  split at h
  · cases h
  rename_i s₄ hor
  split at h
  · cases h
  rename_i stop s₅ hstop
  cases h
  obtain ⟨hs, hfree⟩ := readTimeCall_eq_some hcall
  refine ⟨f, tz, start, stop, hfree, rfl, ?_⟩
  rw [hs, expect_eq_some hge, (run_eq_some hstart).1, expect_eq_some hor, (run_eq_some hstop).1]
  simp [textWith, callText]

theorem readRange_text {start stop : Str} (htz : QuoteFree tz)
    (hstart : isNumericLiteral start = true) (hstop : isNumericLiteral stop = true)
    (hrest : ∀ c ∈ rest.head?, isNumberChar c = false) :
    readRange ((Rule.range f tz start stop).textWith tz [] ++ rest) =
      some ((Rule.range f tz start stop).condition, rest) := by
  have htext : (range f tz start stop).textWith tz [] ++ rest =
      callText f.name tz ++ (" >= ".toList ++ (start ++ ((" || ".toList ++ f.name ++ "(\"".toList ++ tz ++
        "\") < ".toList) ++ (stop ++ rest)))) := by
    simp [textWith, callText]
  rw [htext]
  unfold readRange
  rw [readTimeCall_callText htz]
  simp only [expect_append]
  have hblank : ∀ c ∈ ((" || ".toList ++ f.name ++ "(\"".toList ++ tz ++ "\") < ".toList) ++ (stop ++ rest)).head?,
      isNumberChar c = false := by
    intro c hc
    cases hc
    decide
  rw [run_number hstart hblank]
  simp only [expect_append]
  rw [run_number hstop hrest]
  rfl

theorem readTimeCall_eq_none
    (h : (∃ source : Source, ∃ rest, s = source.name ++ '(' :: rest) ∨ (∃ rest, s = "has(".toList ++ rest) ∨
      ∃ rest, s = '(' :: rest) : readTimeCall s = none := by
  rcases h with ⟨source, rest, rfl⟩ | ⟨rest, rfl⟩ | ⟨rest, rfl⟩
  · cases source <;> rfl
  · rfl
  · rfl

/-! ## Texts of a rule -/

/-- The literal is read as the value of the rule. -/
def Rule.ReadsLiteral (json : Json) (lit : Str) : Rule → Prop
  | .contains _ _ value => parseString lit = some value
  | .equals _ _ value => lit ≠ [] ∧ (∀ c ∈ lit, isLineTerminator c = false) ∧ parseExprLiteral json lit = some value
  | _ => True

/-- The text is one that is read as the rule; a range may have parentheses around it. -/
def Rule.Reads (json : Json) (r : Rule) (t : Str) : Prop :=
  QuoteFree r.argument ∧ ∃ lit, r.ReadsLiteral json lit ∧
    (t = r.textWith r.argument lit ∨ r.isRange = true ∧ t = '(' :: (r.textWith r.argument lit ++ [')']))

variable {json : Json}

theorem tryParseTimeCondition_reads
    (h : tryParseTimeCondition t = some cond) : ∃ r : Rule, r.condition = cond ∧
      r.Reads json t := by
  unfold tryParseTimeCondition at h
  rcases hbare : readBareRange t with _ | c
  · rw [hbare, none_or] at h
    rcases hwrapped : readWrappedRange t with _ | c
    · rw [hwrapped, none_or] at h
      unfold readTimeComparison at h
      split at h
      · cases h
      rename_i f tz s₁ hcall
      split at h
      · cases h
      rename_i mode s₂ hop
      obtain ⟨value, hvalue, rfl⟩ := map_eq_some_iff.mp h
      obtain ⟨hs, hfree⟩ := readTimeCall_eq_some hcall
      obtain ⟨symbol, hmem, hs₁⟩ := readOperator_eq_some hop
      obtain ⟨op, rfl, rfl⟩ := mem_timeOperators hmem
      refine ⟨.time f tz op value, rfl, hfree, [], trivial, .inl ?_⟩
      rw [hs, hs₁, readLastNumber_eq_some hvalue]
      rfl
    · rw [hwrapped] at h
      cases h
      unfold readWrappedRange at hwrapped
      split at hwrapped
      · split at hwrapped
        · rename_i hrange
          cases hwrapped
          obtain ⟨f, tz, start, stop, hfree, rfl, hs⟩ := readRange_eq_some hrange
          exact ⟨.range f tz start stop, rfl, hfree, [], trivial, .inr ⟨rfl, by rw [hs]; rfl⟩⟩
        · cases hwrapped
      · cases hwrapped
  · rw [hbare] at h
    cases h
    unfold readBareRange at hbare
    split at hbare
    · rename_i hrange
      cases hbare
      obtain ⟨f, tz, start, stop, hfree, rfl, hs⟩ := readRange_eq_some hrange
      refine ⟨.range f tz start stop, rfl, hfree, [], trivial, .inl ?_⟩
      rw [hs, append_nil]
      rfl
    · cases hbare

theorem readLiteralBody_eq_some (h : readLiteralBody s = some (lit, rest)) : s = lit ++ rest := by
  fun_induction readLiteralBody s generalizing lit with
  | case1 | case3 c s hline | case5 => cases h
  | case2 s =>
    cases h
    rfl
  | case4 c s hline ih | case6 c s _ _ _ ih =>
    obtain ⟨r, hr, heq⟩ := map_eq_some_iff.mp h
    cases heq
    rw [ih hr]
    rfl

theorem readLiteral_eq_some (h : readLiteral s = some (lit, rest)) : s = lit ++ rest := by
  unfold readLiteral at h
  split at h
  · obtain ⟨r, hr, heq⟩ := map_eq_some_iff.mp h
    cases heq
    rw [readLiteralBody_eq_some hr]
    rfl
  · cases h

variable {source : Source}

theorem readHas_eq_some (h : readHas source s = some (path, lit)) : QuoteFree path ∧
      s = "has(".toList ++ (callText source.name path ++ (", ".toList ++ (lit ++ ")".toList))) := by
  unfold readHas at h
  split at h
  · cases h
  rename_i s₁ hhas
  split at h
  · cases h
  rename_i path' s₂ hcall
  split at h
  · cases h
  rename_i s₃ hcomma
  split at h
  · rename_i lit' hlit
    cases h
    obtain ⟨hs₁, hfree⟩ := readCall_eq_some hcall
    refine ⟨hfree, ?_⟩
    rw [expect_eq_some hhas, hs₁, expect_eq_some hcomma, readLiteral_eq_some hlit]
    rfl
  · cases h

theorem readExists_eq_some {tail : Str} (h : readExists source tail s = some path) :
    QuoteFree path ∧ s = callText source.name path ++ tail := by
  unfold readExists at h
  split at h
  · rename_i path' s₁ hcall
    split at h
    · rename_i htail
      cases h
      obtain ⟨hs, hfree⟩ := readCall_eq_some hcall
      exact ⟨hfree, by rw [hs, htail]⟩
    · cases h
  · cases h

theorem readParamHas_eq_some (h : readParamHas s = some (path, lit)) :
    QuoteFree path ∧ s = callText Source.param.name path ++ (" != nil && ".toList ++
      ("has(".toList ++ (callText Source.param.name path ++ (", ".toList ++ (lit ++ ")".toList))))) := by
  unfold readParamHas at h
  split at h
  · cases h
  rename_i path' s₁ hcall
  split at h
  · cases h
  rename_i s₂ hnil
  split at h
  · rename_i path'' lit' hhas
    split at h
    · rename_i hsame
      cases h
      obtain ⟨hs, hfree⟩ := readCall_eq_some hcall
      obtain ⟨_, hs₂⟩ := readHas_eq_some hhas
      exact ⟨hfree, by rw [hs, expect_eq_some hnil, hs₂, ← hsame]⟩
    · cases h
  · cases h

theorem readParamComparison_eq_some (h : readParamComparison s = some cond) :
    ∃ path op value, QuoteFree path ∧ (Rule.compare path op value).condition = cond ∧
      s = (Rule.compare path op value).textWith path [] := by
  unfold readParamComparison at h
  split at h
  · cases h
  rename_i path s₁ hcall
  split at h
  · cases h
  rename_i s₂ hnil
  split at h
  · cases h
  rename_i path' s₃ hcall'
  split at h
  · cases h
  rename_i mode s₄ hop
  split at h
  · rename_i value hvalue
    split at h
    · rename_i hsame
      cases h
      obtain ⟨hs, hfree⟩ := readCall_eq_some hcall
      obtain ⟨hs₂, _⟩ := readCall_eq_some hcall'
      obtain ⟨symbol, hmem, hs₃⟩ := readOperator_eq_some hop
      obtain ⟨op, rfl, rfl⟩ := mem_compareOperators hmem
      refine ⟨path, op, value, hfree, rfl, ?_⟩
      rw [hs, expect_eq_some hnil, hs₂, ← hsame, hs₃, readLastNumber_eq_some hvalue]
      rfl
    · cases h
  · cases h

theorem readEquality_eq_some {raw : Str} (h : readEquality source s = some (path, raw)) :
    QuoteFree path ∧ s = callText source.name path ++ (" == ".toList ++ raw) ∧ raw ≠ [] ∧
      ∀ c ∈ raw, isLineTerminator c = false := by
  unfold readEquality at h
  split at h
  · cases h
  rename_i path' s₁ hcall
  split at h
  · cases h
  rename_i s₂ heq
  split at h
  · rename_i hraw
    cases h
    obtain ⟨hs, hfree⟩ := readCall_eq_some hcall
    refine ⟨hfree, by rw [hs, expect_eq_some heq], hraw.1, ?_⟩
    simpa using hraw.2
  · cases h

/-- **What is read as a condition** is one of the texts of its rule. -/
theorem reads_of_tryParse
    (h : tryParseRequestCondition json t = .ok (some cond)) : ∃ r : Rule, r.condition = cond ∧
      r.Reads json t := by
  have hcontains : ∀ (source : Source) (path lit : Str), QuoteFree path →
      t = (contains source path []).textWith path lit → containsCondition source path lit = .ok (some cond) →
      ∃ r : Rule, r.condition = cond ∧ r.Reads json t := by
    intro source path lit hfree ht hcond
    unfold containsCondition at hcond
    split at hcond
    · rename_i value hvalue
      cases hcond
      refine ⟨.contains source path value, rfl, hfree, lit, hvalue, .inl ?_⟩
      rw [ht]
      cases source <;> rfl
    · cases hcond
  have hequality : ∀ {source : Source} {path raw : Str}, readEquality source t = some (path, raw) →
      equalityCondition json source path raw = .ok (some cond) → ∃ r : Rule, r.condition = cond ∧ r.Reads json t := by
    intro source path raw hread hcond
    obtain ⟨hfree, ht, hne, hline⟩ := readEquality_eq_some hread
    unfold equalityCondition at hcond
    rw [Except.ok.injEq] at hcond
    obtain ⟨value, hvalue, rfl⟩ := map_eq_some_iff.mp hcond
    exact ⟨.equals source path value, rfl, hfree, raw, ⟨hne, hline, hvalue⟩, .inl ht⟩
  unfold tryParseRequestCondition at h
  split at h
  · rename_i c htime
    cases h
    exact tryParseTimeCondition_reads htime
  split at h
  · rename_i path hexists
    cases h
    obtain ⟨hfree, ht⟩ := readExists_eq_some hexists
    exact ⟨.exists_ .header path, rfl, hfree, [], trivial, .inl ht⟩
  split at h
  · rename_i path hexists
    cases h
    obtain ⟨hfree, ht⟩ := readExists_eq_some hexists
    exact ⟨.exists_ .param path, rfl, hfree, [], trivial, .inl ht⟩
  split at h
  · rename_i path lit hhas
    obtain ⟨hfree, ht⟩ := readHas_eq_some hhas
    exact hcontains .header path lit hfree ht h
  split at h
  · rename_i path lit hhas
    obtain ⟨hfree, ht⟩ := readParamHas_eq_some hhas
    exact hcontains .param path lit hfree ht h
  split at h
  · rename_i c hcompare
    cases h
    obtain ⟨path, op, value, hfree, hcond, ht⟩ := readParamComparison_eq_some hcompare
    exact ⟨.compare path op value, hcond, hfree, [], trivial, .inl ht⟩
  split at h
  · rename_i path raw hread
    exact hequality hread h
  split at h
  · rename_i path raw hread
    exact hequality hread h
  · cases h

/-! ## The written text among the texts of a rule -/

theorem callText_comparable {name x : Str} (hfree : QuoteFree arg)
    (h : Comparable (callText name arg ++ x) (callText name (arg.flatMap escape) ++ y)) :
    arg = arg.flatMap escape ∧ Comparable x y := by
  have hstop : arg = arg.flatMap escape := by
    rw [callText_append, callText_append, comparable_append_iff, comparable_cons_iff] at h
    refine eq_of_comparable_stopped (p := fun c => decide (c ≠ '"')) ?_ ?_ (by decide) (by decide) h.2
    · simpa using hfree.2
    · simpa using not_quote_of_mem_escape hfree.2
  refine ⟨hstop, ?_⟩
  rwa [← hstop, comparable_append_iff] at h

theorem buildExprLiteral_eq_cases (value : Str) (h : Tight value) :
    buildExprLiteral .eq value = value ∧ (∀ json, parseExprLiteral json value = some value) ∧
        (∀ c ∈ value.head?, c ≠ '"' ∧ c ≠ '[' ∧ c ≠ '\x7b') ∧ (∀ c ∈ value, isLineTerminator c = false) ∨
      buildExprLiteral .eq value = stringify value ∧ ¬ (value = "true".toList ∨ value = "false".toList) ∧
        isNumericLiteral value = false := by
  unfold buildExprLiteral parseExprLiteral
  simp only [trim_of_tight h, if_neg (show MatchMode.eq ≠ .contains by decide)]
  by_cases hbool : value = "true".toList ∨ value = "false".toList
  · left
    rcases hbool with rfl | rfl
    · exact ⟨by simp, by simp [isLineTerminator]⟩
    · exact ⟨by simp, by simp [isLineTerminator]⟩
  simp only [if_neg hbool]
  by_cases hnumber : isNumericLiteral value = true
  · left
    simp only [if_pos hnumber, implies_true, true_and]
    obtain ⟨_, hall⟩ := isNumberChar_of_isNumericLiteral hnumber
    have hne : ∀ c : Char, isNumberChar c = false → c ∉ value := by
      intro c hc hmem
      rw [hall c hmem] at hc
      cases hc
    refine ⟨fun c hc => ?_, fun c hc => ?_⟩
    · have hmem := List.mem_of_mem_head? hc
      exact ⟨fun heq => hne _ (by decide) (heq ▸ hmem), fun heq => hne _ (by decide) (heq ▸ hmem),
        fun heq => hne _ (by decide) (heq ▸ hmem)⟩
    by_contra hline
    rw [Bool.not_eq_false, isLineTerminator_iff] at hline
    rcases hline with rfl | rfl | rfl | rfl
    all_goals exact hne _ (by decide) hc
  · right
    simp only [if_neg hnumber, true_and]
    exact ⟨hbool, by simpa using hnumber⟩

theorem buildExprLiteral_eq_cons (value : Str) (h : Tight value) :
    ∃ c rest, buildExprLiteral .eq value = c :: rest ∧ isSpace c = false := by
  rcases buildExprLiteral_eq_cases value h with ⟨hliteral, hparse, _⟩ | ⟨hliteral, _⟩
  · cases value with
    | nil => cases hparse ⟨fun _ => none⟩
    | cons c rest => exact ⟨c, rest, hliteral, h.1 c (by simp)⟩
  · exact ⟨'"', _, hliteral, by decide⟩

theorem eq_literal_of_comparable (hvalue : Tight value) (hne : lit ≠ [])
    (hend : ∀ c ∈ lit.getLast?, isSpace c = false) (hparse : parseExprLiteral json lit = some value)
    (h : Comparable lit (buildExprLiteral .eq value)) : lit = buildExprLiteral .eq value := by
  have hcases := buildExprLiteral_eq_cases value hvalue
  have htight : Tight lit := by
    refine ⟨fun c hc => ?_, hend⟩
    obtain ⟨d, rest, hliteral, hd⟩ := buildExprLiteral_eq_cons value hvalue
    obtain ⟨c', lit', rfl⟩ := exists_cons_of_ne_nil hne
    rw [hliteral, comparable_cons_iff] at h
    cases hc
    rw [h.1]
    exact hd
  -- the first characters of the literals agree
  have hhead : ∀ (c : Char) (rest : Str), lit = c :: rest → c = '"' ∨ c = '[' ∨ c = '\x7b' →
      c = '"' ∧ buildExprLiteral .eq value = stringify value := by
    rintro c rest rfl hc
    rcases hcases with ⟨hliteral, _, hvalueHead, _⟩ | ⟨hliteral, _⟩
    · exfalso
      obtain ⟨d, rest', hcons, _⟩ := buildExprLiteral_eq_cons value hvalue
      rw [hcons, comparable_cons_iff] at h
      have hd := hvalueHead d (by rw [← hliteral, hcons]; rfl)
      rw [← h.1] at hd
      rcases hc with hc | hc | hc
      · exact hd.1 hc
      · exact hd.2.1 hc
      · exact hd.2.2 hc
    · rw [hliteral, stringify, comparable_cons_iff] at h
      exact ⟨h.1, hliteral⟩
  unfold parseExprLiteral at hparse
  simp only [trim_of_tight htight] at hparse
  split at hparse
  · rename_i hbool
    cases hparse
    rcases hcases with ⟨hliteral, _⟩ | ⟨_, hnot, _⟩
    · exact hliteral.symm
    · exact absurd hbool hnot
  split at hparse
  · rename_i hnumber
    cases hparse
    rcases hcases with ⟨hliteral, _⟩ | ⟨_, _, hnot⟩
    · exact hliteral.symm
    · rw [hnumber] at hnot
      cases hnot
  split at hparse
  · obtain ⟨_, hliteral⟩ := hhead _ _ rfl (.inl rfl)
    rw [hliteral] at h ⊢
    exact eq_stringify_of_comparable hparse h
  · exact absurd (hhead _ _ rfl (.inr (.inl rfl))).1 (by decide)
  · exact absurd (hhead _ _ rfl (.inr (.inr rfl))).1 (by decide)
  · cases hparse

/-- Both ways to write a rule, with or without parentheses around it. -/
def Rule.textIn (r : Rule) (wrapped : Bool) : Str :=
  if wrapped then '(' :: (r.text ++ [')']) else r.text

theorem literal_contains (source : Source) (path : Str) (hvalue : Tight value) :
    (Rule.contains source path value).literal = stringify value := by
  show buildExprLiteral .contains value = stringify value
  rw [buildExprLiteral, if_pos rfl, trim_of_tight hvalue]

variable {r : Rule}

/-- A text of a rule that starts as the written text does has the argument and the literal that are
written. -/
theorem eq_of_textWith_comparable (hvalid : r.Valid) (hfree : QuoteFree r.argument)
    {x : Str} (hlit : r.ReadsLiteral json lit)
    (h : Comparable (r.textWith r.argument lit ++ x) (r.text ++ y))
    (hend : r.isRange = false → x = [] ∧ y = [] ∧ ∀ c ∈ (r.textWith r.argument lit).getLast?, isSpace c = false) :
    r.textWith r.argument lit = r.text ∧ r.argument = r.argument.flatMap escape ∧
      r.ReadsLiteral json r.literal := by
  -- the rules without a literal: the argument decides
  have hargument : r.argument = r.argument.flatMap escape →
      (∀ lit', r.textWith r.argument lit = r.textWith r.argument lit') → r.ReadsLiteral json r.literal →
      r.textWith r.argument lit = r.text ∧ r.argument = r.argument.flatMap escape ∧
        r.ReadsLiteral json r.literal := by
    intro hplain hsame hreads
    refine ⟨?_, hplain, hreads⟩
    rw [text, ← hplain]
    exact hsame r.literal
  cases r with
  | range f tz start stop | time f tz op value | compare path op value =>
    simp only [text, textWith, append_assoc] at h
    exact hargument (callText_comparable hfree h).1 (fun _ => rfl) trivial
  | exists_ source path =>
    cases source with
    | header | param =>
      simp only [text, textWith, append_assoc] at h
      exact hargument (callText_comparable hfree h).1 (fun _ => rfl) trivial
  | contains source path value =>
    have hliteral := literal_contains source path hvalid.2
    have hreads : parseString (contains source path value).literal = some value := by
      rw [hliteral]
      exact parseString_stringify value
    suffices hboth : path = path.flatMap escape ∧ lit = stringify value by
      refine ⟨?_, hboth.1, hreads⟩
      rw [text, hliteral, hboth.2]
      exact congrArg (fun path' => (contains source path value).textWith path' _) hboth.1
    cases source with
    | header =>
      simp only [text, textWith, append_assoc, comparable_append_iff] at h
      obtain ⟨hplain, h⟩ := callText_comparable hfree h
      rw [comparable_append_iff, hliteral] at h
      exact ⟨hplain, eq_stringify_of_comparable hlit (Comparable.of_append h)⟩
    | param =>
      simp only [text, textWith, append_assoc] at h
      obtain ⟨hplain, h⟩ := callText_comparable hfree h
      rw [comparable_append_iff, comparable_append_iff] at h
      have h := (callText_comparable hfree h).2
      rw [comparable_append_iff, hliteral] at h
      exact ⟨hplain, eq_stringify_of_comparable hlit (Comparable.of_append h)⟩
  | equals source path value =>
    obtain ⟨rfl, rfl, hlast⟩ := hend rfl
    obtain ⟨hne, hline, hparse⟩ := hlit
    simp only [text, textWith, append_nil] at h hlast
    obtain ⟨hplain, h⟩ := callText_comparable hfree h
    rw [comparable_append_iff] at h
    rw [getLast?_append_of_ne_nil _ (by simp), getLast?_append_of_ne_nil _ hne] at hlast
    have heq : lit = (equals source path value).literal :=
      eq_literal_of_comparable hvalid.2 hne hlast hparse h
    refine ⟨?_, hplain, heq ▸ ⟨hne, hline, hparse⟩⟩
    rw [text, ← hplain, heq]

theorem textWith_head (r : Rule) (arg lit : Str) :
    ∃ c rest, r.textWith arg lit = c :: rest ∧ c.isAlpha = true ∧ isSpace c = false := by
  cases r with
  | range f | time f => cases f <;> exact ⟨_, _, rfl, by decide⟩
  | exists_ source | contains source | equals source => cases source <;> exact ⟨_, _, rfl, by decide⟩
  | compare => exact ⟨_, _, rfl, by decide⟩

/-- **Unique reading**: a text that is read as the rule and starts as the written text does is the
written text; the argument then needs no escapes, the literal is read, and parentheses are around a
range at most. -/
theorem eq_text_of_reads (hvalid : r.Valid) (ht : Tight t) (hreads : r.Reads json t)
    {wrapped : Bool} (h : Comparable t (r.textIn wrapped)) :
    t = r.textIn wrapped ∧ r.argument = r.argument.flatMap escape ∧ r.ReadsLiteral json r.literal ∧
      (wrapped = true → r.isRange = true) := by
  obtain ⟨hfree, lit, hlit, rfl | ⟨hrange, rfl⟩⟩ := hreads
  · cases wrapped with
    | true =>
      obtain ⟨c, rest, hhead, hc⟩ := textWith_head r r.argument lit
      simp only [textIn, if_true, hhead, comparable_cons_iff] at h
      rw [h.1] at hc
      cases hc.1
    | false =>
      have hbare : Comparable (r.textWith r.argument lit ++ []) (r.text ++ []) := by simpa [textIn] using h
      obtain ⟨htext, hplain, hliteral⟩ :=
        eq_of_textWith_comparable hvalid hfree hlit hbare fun _ => ⟨rfl, rfl, ht.2⟩
      exact ⟨htext, hplain, hliteral, fun h => by cases h⟩
  · cases wrapped with
    | true =>
      have hbody : Comparable (r.textWith r.argument lit ++ [')']) (r.text ++ [')']) := by
        simpa [textIn, comparable_cons_iff] using h
      obtain ⟨htext, hplain, hliteral⟩ := eq_of_textWith_comparable hvalid hfree hlit hbody
        fun hnot => by rw [hrange] at hnot; cases hnot
      exact ⟨by rw [htext]; rfl, hplain, hliteral, fun _ => hrange⟩
    | false =>
      obtain ⟨c, rest, hhead, hc⟩ := textWith_head r (r.argument.flatMap escape) r.literal
      have hcons : r.textIn false = c :: rest := hhead
      rw [hcons, comparable_cons_iff] at h
      rw [← h.1] at hc
      cases hc.1

/-! ## Reading the written text -/

/-- No line separator in a value that an equality compares with. -/
def Rule.NoSeparator : Rule → Prop
  | .equals _ _ value => ∀ c ∈ value, c ≠ '\u2028' ∧ c ≠ '\u2029'
  | _ => True

theorem tight_stringify (s : Str) : Tight (stringify s) := by
  refine ⟨fun c hc => ?_, fun c hc => ?_⟩
  · cases hc
    decide
  rw [stringify, ← cons_append, getLast?_append_of_ne_nil _ (by simp)] at hc
  cases hc
  decide

theorem parseExprLiteral_stringify (json : Json) (value : Str) :
    parseExprLiteral json (stringify value) = some value := by
  have hbool : ¬ (stringify value = "true".toList ∨ stringify value = "false".toList) := by rintro (h | h) <;> cases h
  have hnumber : ¬ isNumericLiteral (stringify value) = true := by
    intro h
    have hquote := (isNumberChar_of_isNumericLiteral h).2 '"' mem_cons_self
    cases hquote
  unfold parseExprLiteral
  simp only [trim_of_tight (tight_stringify value), if_neg hbool, if_neg hnumber]
  exact parseString_stringify value

/-- `JSON.stringify` leaves the two line separators as they are and escapes the other line
terminators. -/
theorem lineTerminator_stringify_iff (value : Str) :
    (∀ c ∈ stringify value, isLineTerminator c = false) ↔ ∀ c ∈ value, c ≠ '\u2028' ∧
      c ≠ '\u2029' := by
  have hplain : ∀ c, isPlain c = true → (isLineTerminator c = false ↔ c ≠ '\u2028' ∧ c ≠ '\u2029') := by
    intro c hc
    rw [Bool.eq_false_iff, Ne, isLineTerminator_iff]
    constructor
    · exact fun h => ⟨fun heq => h (.inr (.inr (.inl heq))), fun heq => h (.inr (.inr (.inr heq)))⟩
    rintro ⟨hline, hparagraph⟩ (rfl | rfl | rfl | rfl)
    · cases hc
    · cases hc
    · exact hline rfl
    · exact hparagraph rfl
  have hescape : ∀ c, (∀ e ∈ escape c,
    isLineTerminator e = false) ↔ c ≠ '\u2028' ∧ c ≠ '\u2029' := by
    intro c
    by_cases hc : isPlain c = true
    · rw [escape_of_isPlain hc, forall_mem_singleton]
      exact hplain c hc
    have hfalse : isPlain c = false := by simpa using hc
    refine iff_of_true (fun e he => ?_) ⟨?_, ?_⟩
    · have hout := char_of_escape hfalse he
      rw [Bool.eq_false_iff, Ne, isLineTerminator_iff]
      rintro (rfl | rfl | rfl | rfl)
      all_goals exact absurd hout (by decide)
    · rintro rfl
      exact hc rfl
    · rintro rfl
      exact hc rfl
  rw [stringify, forall_mem_cons, forall_mem_append, forall_mem_singleton]
  simp only [mem_flatMap, forall_exists_index, and_imp]
  constructor
  · rintro ⟨_, h, _⟩ c hc
    exact (hescape c).mp fun e he => h e c hc he
  · exact fun h => ⟨by decide, fun e c hc he => (hescape c).mpr (h c hc) e he, by decide⟩

theorem readsLiteral_iff (hvalid : r.Valid) : r.ReadsLiteral json r.literal ↔ r.NoSeparator := by
  cases r with
  | range | time | exists_ | compare => exact Iff.rfl
  | contains source path value =>
    refine iff_of_true ?_ trivial
    rw [literal_contains source path hvalid.2]
    exact parseString_stringify value
  | equals source path value =>
    show buildExprLiteral .eq value ≠ [] ∧ (∀ c ∈ buildExprLiteral .eq value, isLineTerminator c = false) ∧
      parseExprLiteral json (buildExprLiteral .eq value) = some value ↔ ∀ c ∈ value, c ≠ '\u2028' ∧ c ≠ '\u2029'
    have hne : buildExprLiteral .eq value ≠ [] := by
      obtain ⟨c, rest, hcons, _⟩ := buildExprLiteral_eq_cons value hvalid.2
      rw [hcons]
      exact cons_ne_nil c rest
    rcases buildExprLiteral_eq_cases value hvalid.2 with ⟨hliteral, hparse, _, hline⟩ | ⟨hliteral,
      _⟩
    · refine iff_of_true ⟨hne, ?_, ?_⟩ fun c hc => ⟨?_, ?_⟩
      · rw [hliteral]
        exact hline
      · rw [hliteral]
        exact hparse json
      · rintro rfl
        exact absurd (hline _ hc) (by decide)
      · rintro rfl
        exact absurd (hline _ hc) (by decide)
    · rw [hliteral] at hne ⊢
      rw [parseExprLiteral_stringify, lineTerminator_stringify_iff]
      exact ⟨fun h => h.2.1, fun h => ⟨hne, h, rfl⟩⟩

theorem readLiteralBody_cons {c : Char} (hquote : c ≠ '"') (hback : c ≠ '\\') (s : Str) :
    readLiteralBody (c :: s) = (readLiteralBody s).map fun r => (c :: r.1, r.2) := by
  rw [readLiteralBody.eq_def]
  split
  · rename_i heq
    cases heq
  · rename_i heq
    cases heq
    exact absurd rfl hquote
  · rename_i heq
    cases heq
    exact absurd rfl hback
  · rename_i heq
    cases heq
    exact absurd rfl hback
  rename_i heq
  cases heq
  rfl

theorem readLiteralBody_escape (value rest : Str) :
    readLiteralBody (value.flatMap escape ++ '"' :: rest) = some (value.flatMap escape ++ ['"'], rest) := by
  -- letters and digits of an escape are passed over
  have hpass : ∀ l s : Str, (∀ e ∈ l, e.isAlphanum = true) →
      readLiteralBody (l ++ s) = (readLiteralBody s).map fun r => (l ++ r.1, r.2) := by
    intro l s hl
    induction l with
    | nil => simp
    | cons e l ih =>
      have he := hl e mem_cons_self
      have hne : e ≠ '"' ∧ e ≠ '\\' := by constructor <;> (rintro rfl; cases he)
      rw [cons_append, readLiteralBody_cons hne.1 hne.2, ih fun x hx => hl x (mem_cons_of_mem _ hx),
        Option.map_map]
      rfl
  induction value with
  | nil => rfl
  | cons c value ih =>
    rw [flatMap_cons, append_assoc]
    by_cases hc : isPlain c = true
    · have hne := (isPlain_iff c).mp hc
      rw [escape_of_isPlain hc, singleton_append,
        readLiteralBody_cons (fun h => hne (.inl h)) (fun h => hne (.inr (.inl h))), ih]
      rfl
    obtain ⟨e, l, hescape, he, _, hl⟩ := escape_of_not_isPlain (Bool.eq_false_iff.mpr hc)
    have hline : isLineTerminator e = false := by
      rw [Bool.eq_false_iff, Ne, isLineTerminator_iff]
      rintro (rfl | rfl | rfl | rfl)
      all_goals
        rcases he with ⟨he, _⟩ | he | he
        · cases he
        · cases he
        · cases he
    rw [hescape, cons_append, cons_append, readLiteralBody, hline]
    rw [hpass l _ hl, ih]
    simp

theorem readLiteral_stringify (value rest : Str) :
    readLiteral (stringify value ++ rest) = some (stringify value, rest) := by
  have hbody := readLiteralBody_escape value rest
  simp [stringify, readLiteral, hbody]

theorem readHas_text (hfree : QuoteFree path) (value : Str) :
    readHas source ("has(".toList ++ (callText source.name path ++ (", ".toList ++ (stringify value ++ ")".toList)))) =
      some (path, stringify value) := by
  unfold readHas
  simp only [expect_append, readCall_callText hfree, readLiteral_stringify]
  rfl

theorem tryParseTimeCondition_source (source : Source) (arg rest : Str) :
    tryParseTimeCondition (callText source.name arg ++ rest) = none := by
  cases source <;> rfl

theorem readHas_source (source source' : Source) (arg rest : Str) :
    readHas source (callText source'.name arg ++ rest) = none := by
  cases source' <;> rfl

theorem readCall_header_param (arg rest : Str) :
    readCall Source.header.name (callText Source.param.name arg ++ rest) = none := rfl

theorem readCall_param_header (arg rest : Str) :
    readCall Source.param.name (callText Source.header.name arg ++ rest) = none := rfl

theorem tryParseTimeCondition_time (htz : QuoteFree tz) (op : TimeOp)
    (hvalue : isNumericLiteral value = true) :
    tryParseTimeCondition ((Rule.time f tz op value).textWith tz []) = some (Rule.time f tz op value).condition := by
  have hrange : readRange ((time f tz op value).textWith tz []) = none := by
    simp only [readRange, textWith, readTimeCall_callText htz]
    cases op with
    | eq | lt => rfl
    | gte =>
      have hnumber : run isNumberChar value = some (value, []) := by
        have hrun := @run_number [] value hvalue (by simp)
        rwa [append_nil] at hrun
      have hge : expect " >= ".toList (" ".toList ++ (TimeOp.gte.symbol ++ (" ".toList ++ value))) = some value := rfl
      simp only [hge, hnumber]
      rfl
  have hwrapped : readWrappedRange ((time f tz op value).textWith tz []) = none := by cases f <;> rfl
  rw [tryParseTimeCondition, readBareRange, hrange, hwrapped, none_or, none_or, readTimeComparison]
  simp only [textWith, readTimeCall_callText htz, readOperator_time,
    readLastNumber_of_literal hvalue]
  rfl

theorem tryParseTimeCondition_range {start stop : Str} (htz : QuoteFree tz)
    (hstart : isNumericLiteral start = true) (hstop : isNumericLiteral stop = true) :
    tryParseTimeCondition ((Rule.range f tz start stop).textWith tz []) = some (Rule.range f tz start stop).condition ∧
      tryParseTimeCondition ('(' :: ((Rule.range f tz start stop).textWith tz [] ++ [')'])) =
        some (Rule.range f tz start stop).condition := by
  constructor
  · have hrange := @readRange_text [] tz f start stop htz hstart hstop (by simp)
    rw [append_nil] at hrange
    rw [tryParseTimeCondition, readBareRange, hrange]
    rfl
  have hrange := @readRange_text [')'] tz f start stop htz hstart hstop (by intro c hc; cases hc; decide)
  have hbare : readBareRange ('(' :: ((range f tz start stop).textWith tz [] ++ [')'])) = none := by
    rw [readBareRange, readRange, readTimeCall_eq_none (.inr (.inr ⟨_, rfl⟩))]
  rw [tryParseTimeCondition, hbare, readWrappedRange, hrange]
  rfl

/-- **The text of a rule is read as the rule** if its argument can stand in quotes. -/
theorem tryParse_textWith (hvalid : r.Valid) (hfree : QuoteFree r.argument)
    (hlit : r.ReadsLiteral json r.literal) :
    tryParseRequestCondition json (r.textWith r.argument r.literal) = .ok (some r.condition) := by
  unfold tryParseRequestCondition
  have hnil : ∀ rest, ¬ " != nil && ".toList ++ rest = " != nil".toList := by
    intro rest h
    cases h
  cases r with
  | range f tz start stop =>
    have htz : QuoteFree tz := hfree
    simp [argument, literal, (tryParseTimeCondition_range htz hvalid.2.1 hvalid.2.2).1]
  | time f tz op value =>
    have htz : QuoteFree tz := hfree
    simp [argument, literal, tryParseTimeCondition_time htz op hvalid.2]
  | exists_ source path =>
    have hpath : QuoteFree path := hfree
    cases source with
    | header =>
      simp only [argument, textWith, tryParseTimeCondition_source, readExists,
        readCall_callText hpath, if_true]
      rfl
    | param =>
      simp only [argument, textWith, tryParseTimeCondition_source, readExists,
        readCall_callText hpath, readCall_header_param, if_true]
      rfl
  | contains source path value =>
    have hpath : QuoteFree path := hfree
    have hliteral := literal_contains source path hvalid.2
    rw [hliteral] at hlit ⊢
    have hcond : containsCondition source path (stringify value) =
        .ok (some (contains source path value).condition) := by
      rw [containsCondition, parseString_stringify]
      rfl
    cases source with
    | header =>
      have hnone : tryParseTimeCondition ((contains .header path value).textWith path (stringify value)) = none ∧
          readExists .header " != \"\"".toList ((contains .header path value).textWith path (stringify value)) =
            none ∧
          readExists .param " != nil".toList ((contains .header path value).textWith path (stringify value)) =
            none := ⟨rfl, rfl, rfl⟩
      simp only [argument, hnone.1, hnone.2.1, hnone.2.2]
      simp only [textWith, readHas_text hpath, hcond]
    | param =>
      simp only [argument, textWith, tryParseTimeCondition_source, readExists,
        readCall_callText hpath,
        readCall_header_param, hnil, if_false, readHas_source, readParamHas, expect_append, readHas_text hpath,
        if_true, hcond]
  | compare path op value =>
    have hpath : QuoteFree path := hfree
    simp only [argument, textWith, tryParseTimeCondition_source, readExists,
      readCall_callText hpath,
      readCall_header_param, hnil, if_false, readHas_source, readParamHas, expect_append, readParamComparison,
      readOperator_compare, readLastNumber_of_literal hvalid.2, if_true]
    rfl
  | equals source path value =>
    have hpath : QuoteFree path := hfree
    obtain ⟨hne, hline, hparse⟩ := hlit
    have hall : (equals source path value).literal ≠ [] ∧
        ((equals source path value).literal.all fun c => !isLineTerminator c) = true := by
      refine ⟨hne, ?_⟩
      simpa using hline
    have hcond : equalityCondition json source path (equals source path value).literal =
        .ok (some (equals source path value).condition) := by
      rw [equalityCondition, hparse]
      rfl
    have hother : ∀ rest, ¬ " == ".toList ++ rest = " != nil".toList ∧ ¬ " == ".toList ++ rest = " != \"\"".toList := by
      intro rest
      constructor <;> (intro h; cases h)
    have hnil : ∀ rest, expect " != nil && ".toList (" == ".toList ++ rest) = none := fun rest => rfl
    cases source with
    | header =>
      simp only [argument, textWith, tryParseTimeCondition_source, readExists,
        readCall_callText hpath,
        readCall_param_header, hother, if_false, readHas_source, readParamHas, readParamComparison, readEquality,
        expect_append, if_pos hall, hcond]
    | param =>
      simp only [argument, textWith, tryParseTimeCondition_source, readExists,
        readCall_callText hpath,
        readCall_header_param, hother, if_false, readHas_source, readParamHas, readParamComparison, hnil, readEquality,
        expect_append, if_pos hall, hcond]

theorem isSpace_of_isNumberChar {c : Char} (h : isNumberChar c = true) : isSpace c = false := by
  simp only [isNumberChar, Bool.or_eq_true, beq_iff_eq] at h
  rcases h with ((((h | rfl) | rfl) | rfl) | rfl) | rfl
  · simp only [Char.isDigit, Bool.and_eq_true, decide_eq_true_eq] at h
    have hlow : 48 ≤ c.toNat := h.1
    have hhigh : c.toNat ≤ 57 := h.2
    simp only [isSpace, Bool.or_eq_false_iff, Bool.and_eq_false_iff, decide_eq_false_iff_not,
      beq_eq_false_iff_ne]
    omega
  all_goals decide

theorem last_append (x : Str) (h : ∃ c ∈ y.getLast?, isSpace c = false ∧ c ≠ '&') :
    ∃ c ∈ (x ++ y).getLast?, isSpace c = false ∧ c ≠ '&' := by
  obtain ⟨c, hc, hlast⟩ := h
  refine ⟨c, ?_, hlast⟩
  rw [getLast?_append, hc]
  rfl

theorem last_number (h : isNumericLiteral number = true) :
    ∃ c ∈ number.getLast?, isSpace c = false ∧ c ≠ '&' := by
  obtain ⟨hne, hall⟩ := isNumberChar_of_isNumericLiteral h
  have hlast := hall _ (getLast_mem hne)
  refine ⟨number.getLast hne, getLast?_eq_some_getLast hne, isSpace_of_isNumberChar hlast, ?_⟩
  intro heq
  rw [heq] at hlast
  cases hlast

theorem last_text (hvalid : r.Valid) : ∃ c ∈ r.text.getLast?, isSpace c = false ∧ c ≠ '&' := by
  cases r with
  | range f tz start stop =>
    iterate 6 refine last_append _ ?_
    exact last_number hvalid.2.2
  | time f tz op value =>
    iterate 4 refine last_append _ ?_
    exact last_number hvalid.2
  | exists_ source path =>
    cases source with
    | header | param => exact last_append _ ⟨_, rfl, by decide⟩
  | contains source path value =>
    cases source with
    | header =>
      iterate 4 refine last_append _ ?_
      exact ⟨_, rfl, by decide⟩
    | param =>
      iterate 6 refine last_append _ ?_
      exact ⟨_, rfl, by decide⟩
  | compare path op value =>
    iterate 6 refine last_append _ ?_
    exact last_number hvalid.2
  | equals source path value =>
    refine last_append _ (last_append _ ?_)
    show ∃ c ∈ (buildExprLiteral .eq value).getLast?, isSpace c = false ∧ c ≠ '&'
    unfold buildExprLiteral
    simp only [trim_of_tight hvalid.2, if_neg (show MatchMode.eq ≠ .contains by decide)]
    split
    · rename_i hbool
      rcases hbool with rfl | rfl
      · exact ⟨_, rfl, by decide⟩
      · exact ⟨_, rfl, by decide⟩
    split
    · rename_i hvalue
      exact last_number hvalue
    · exact last_append ('"' :: value.flatMap escape) ⟨'"', rfl, by decide⟩

theorem part_textIn (hvalid : r.Valid) (wrapped : Bool) : Part " && ".toList (r.textIn wrapped) := by
  have hsep : ∀ c, isSpace c = false → c ≠ '&' → c ∉ " && ".toList := by
    intro c hspace hamp hmem
    rw [show " && ".toList = [' ', '&', '&', ' '] from rfl] at hmem
    simp only [mem_cons, not_mem_nil, or_false] at hmem
    rcases hmem with rfl | rfl | rfl | rfl
    · cases hspace
    · exact hamp rfl
    · exact hamp rfl
    · cases hspace
  cases wrapped with
  | true =>
    have hlast : (r.textIn true).getLast? = some ')' := by
      rw [textIn, if_pos rfl, ← cons_append, getLast?_append_of_ne_nil _ (by simp)]
      rfl
    refine ⟨⟨fun c hc => ?_, fun c hc => ?_⟩, ')', hlast, hsep _ (by decide) (by decide)⟩
    · cases hc
      decide
    rw [hlast] at hc
    cases hc
    decide
  | false =>
    obtain ⟨c, hc, hspace, hamp⟩ := last_text hvalid
    refine ⟨⟨fun e he => ?_, fun e he => ?_⟩, c, hc, hsep c hspace hamp⟩
    · obtain ⟨a, rest, hhead, ha⟩ := textWith_head r (r.argument.flatMap escape) r.literal
      have hcons : r.textIn false = a :: rest := hhead
      rw [hcons] at he
      cases he
      exact ha.2
    · rw [mem_unique he hc]
      exact hspace

/-- **Reading back one condition** succeeds exactly when the argument needs no escapes, no line
separator is in a value of an equality, and parentheses are around a range at most. -/
theorem reads_textIn_iff (hvalid : r.Valid) (wrapped : Bool) :
    tryParseRequestCondition json (r.textIn wrapped) = .ok (some r.condition) ↔
      (∀ c ∈ r.argument, isPlain c = true) ∧ r.NoSeparator ∧
      (wrapped = true → r.isRange = true) := by
  have hargument : r.argument ≠ [] := by
    cases r with
    | range | time | contains | compare | equals => exact hvalid.1
    | exists_ => exact hvalid
  rw [← flatMap_escape_eq_self_iff, ← @readsLiteral_iff json r hvalid]
  constructor
  · intro h
    obtain ⟨r', hcond, hreads⟩ := reads_of_tryParse h
    rw [condition_injective hcond] at hreads
    obtain ⟨_, hplain, hliteral, hrange⟩ :=
      eq_text_of_reads hvalid (part_textIn hvalid wrapped).tight hreads (.inl (prefix_refl _))
    exact ⟨hplain.symm, hliteral, hrange⟩
  · rintro ⟨hplain, hliteral, hrange⟩
    have hfree : QuoteFree r.argument := by
      refine ⟨hargument, fun c hc hquote => ?_⟩
      have hc' := (flatMap_escape_eq_self_iff r.argument).mp hplain c hc
      rw [hquote] at hc'
      cases hc'
    have htext : r.text = r.textWith r.argument r.literal := by rw [text, hplain]
    rcases wrapped with _ | _
    · rw [show r.textIn false = r.text from rfl, htext]
      exact tryParse_textWith hvalid hfree hliteral
    cases r with
    | range f tz start stop =>
      have htz : QuoteFree tz := hfree
      have hread := (tryParseTimeCondition_range (f := f) htz hvalid.2.1 hvalid.2.2).2
      rw [show (range f tz start stop).textIn true = '(' :: ((range f tz start stop).text ++ [')']) from rfl,
        htext, tryParseRequestCondition]
      simp [argument, literal, hread]
    | time | exists_ | contains | compare | equals => cases hrange rfl

end NewApi.Pricing
