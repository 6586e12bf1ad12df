import NewApi.Pricing.RequestRuleReading

/-!
# Bracket depth along the text of a request rule

The splits of the parser count every parenthesis of the text, also those of a path or a value in
quotes.

* `scans_text`, `scans_textIn` — it is the depth after the text that is written.
* `includesOr_text` — the text has ` || ` in it for a range, or if path or value have.
-/

namespace NewApi.Pricing

open Js Brackets List

/-- The text that is written in quotes besides the argument. -/
def Rule.value : Rule → Str
  | .contains _ _ value | .equals _ _ value => value
  | _ => []

/-- Whether the text has ` || ` in it. -/
def Rule.includesOr (r : Rule) : Bool :=
  r.isRange || Pricing.includesOr r.argument || Pricing.includesOr r.value

/-- The depth after a call with a text in quotes. -/
def scanCall (sep : Str) (arg : Str) (d : Int) : Option Int := (scan sep (d + 1) arg).map (· - 1)

/-- The depth after the ` && ` of a rule, which is a separator of its own at depth zero. -/
def scanAnd (sep : Str) (d : Int) : Option Int := if sep = " && ".toList ∧ d = 0 then none else some d

namespace Rule

/-- The depth after a rule. -/
def scan (sep : Str) (d : Int) : Rule → Option Int
  | range _ tz _ _ => (scanCall sep tz d).bind (scanCall sep tz)
  | time _ tz _ _ => scanCall sep tz d
  | exists_ _ path => scanCall sep path d
  | contains .header path value =>
    (scanCall sep path (d + 1)).bind fun d => (Brackets.scan sep d value).map (· - 1)
  | contains .param path value =>
    (scanCall sep path d).bind fun d => (scanAnd sep d).bind fun d =>
      (scanCall sep path (d + 1)).bind fun d => (Brackets.scan sep d value).map (· - 1)
  | compare path _ _ => (scanCall sep path d).bind fun d => (scanAnd sep d).bind (scanCall sep path)
  | equals _ path value => (scanCall sep path d).bind fun d => Brackets.scan sep d value

/-- The depth after a rule with or without parentheses around it. -/
def scanIn (sep : Str) (wrapped : Bool) (d : Int) (r : Rule) : Option Int :=
  if wrapped then (r.scan sep (d + 1)).map (· - 1) else r.scan sep d

end Rule

/-! ## Separators -/

/-- The second character of one of the two separators, and the separator. -/
inductive Separator : Char → Str → Prop
  | and : Separator '&' "& ".toList
  | multiply : Separator '*' " ".toList

section

variable {x : Char} {sep : Str}

theorem Separator.isPlain (h : Separator x sep) : ∀ c ∈ ' ' :: x :: sep, isPlain c = true := by
  cases h with
  | and | multiply => exact all_eq_true.mp rfl

/-- Characters that are passed over, also after a blank. -/
def isWordChar (c : Char) : Bool := c != ' ' && c != '(' && c != ')' && c != '&' && c != '*'

/-- Words with blanks between them. -/
def isFlat (t : Str) : Bool := t.all fun c => c == ' ' || isWordChar c

theorem isFlat_append (t u : Str) : isFlat (t ++ u) = (isFlat t && isFlat u) := all_append

open Scans

theorem Separator.flat (h : Separator x sep) {t : Str} (hne : t ≠ []) (ht : isFlat t = true) :
    Scans x sep t some := by
  refine Scans.flat hne fun c hc => ?_
  have hflat := all_eq_true.mp ht c hc
  refine ⟨?_, ?_, ?_⟩
  · cases h with
    | and | multiply =>
      rintro rfl
      cases hflat
  all_goals
    rintro rfl
    cases hflat

theorem flat_of_isNumericLiteral {number : Str} (h : isNumericLiteral number = true) :
    isFlat number = true := by
  refine all_eq_true.mpr fun c hc => ?_
  have hnumber := (isNumberChar_of_isNumericLiteral h).2 c hc
  simp only [isWordChar, Bool.or_eq_true, Bool.and_eq_true, bne_iff_ne]
  refine .inr ⟨⟨⟨⟨?_, ?_⟩, ?_⟩, ?_⟩, ?_⟩
  all_goals
    rintro rfl
    cases hnumber

theorem flat_symbol (op : TimeOp) : isFlat op.symbol = true := by
  cases op <;> rfl

theorem flat_compareSymbol (op : CompareOp) : isFlat op.symbol = true := by
  cases op <;> rfl

variable (h : Separator x sep)

include h

namespace Separator

theorem number {number : Str} (hnumber : isNumericLiteral number = true) :
    Scans x sep number some :=
  h.flat (isNumberChar_of_isNumericLiteral hnumber).1 (flat_of_isNumericLiteral hnumber)

theorem paren : '(' ≠ x ∧ ')' ≠ x := by
  cases h with
  | and | multiply => decide

theorem callText {name : Str} (hname : name ≠ [] ∧ isFlat name = true) (arg : Str) :
    Scans x sep (callText name (arg.flatMap escape)) (scanCall (' ' :: x :: sep) arg) := by
  have htext : Pricing.callText name (arg.flatMap escape) = name ++ ("(".toList ++ (stringify arg ++ ")".toList)) := by
    simp [Pricing.callText, stringify]
  have hscans := (h.flat hname.1 hname.2).append ((char h.paren.1).append
    ((quoted h.isPlain arg).append (char h.paren.2)))
  rw [htext]
  unfold scanCall
  simp only [Option.map_eq_bind]
  exact hscans

theorem timeCall (f : TimeFunc) (tz : Str) :
    Scans x sep (Pricing.callText f.name (tz.flatMap escape)) (scanCall (' ' :: x :: sep) tz) :=
  h.callText (by cases f <;> exact ⟨by decide, rfl⟩) tz

theorem sourceCall (source : Source) (path : Str) :
    Scans x sep (Pricing.callText source.name (path.flatMap escape))
    (scanCall (' ' :: x :: sep) path) :=
  h.callText (by cases source <;> exact ⟨by decide, rfl⟩) path

theorem andText : Scans x sep " && ".toList (scanAnd (' ' :: x :: sep)) := by
  refine ⟨⟨' ', rfl, by cases h <;> decide⟩, fun y hy d => ?_⟩
  -- the blank at the end is passed over like any character
  have hpass : ∀ d, scan (' ' :: x :: sep) d ('&' :: '&' :: ' ' :: y) = scan (' ' :: x :: sep) d y := by
    intro d
    rw [scan_cons_of_ne (by decide), scan_cons_of_ne (by decide)]
    exact (@char x sep ' ' (by cases h <;> decide)).scan_append y hy d
  show scan (' ' :: x :: sep) d (' ' :: '&' :: '&' :: ' ' :: y) = _
  cases h with
  | and =>
    have hdepth : depthAfter d ' ' = d := rfl
    have hpre : (' ' :: '&' :: "& ".toList).isPrefixOf (' ' :: '&' :: '&' :: ' ' :: y) = true := rfl
    have hsep : ' ' :: '&' :: "& ".toList = " && ".toList := rfl
    by_cases hd : d = 0
    · rw [scan, hdepth, if_pos ⟨hd, hpre⟩, scanAnd, if_pos ⟨hsep, hd⟩]
      rfl
    · rw [scan, hdepth, if_neg fun hzero => hd hzero.1, scanAnd, if_neg fun hzero => hd hzero.2]
      exact hpass d
  | multiply =>
    have hsep : ' ' :: '*' :: " ".toList ≠ " && ".toList := by decide
    rw [scanAnd, if_neg fun hand => hsep hand.1, scan_blank (by decide)]
    exact hpass d

theorem literal {value : Str} (hvalue : Tight value) :
    Scans x sep (buildExprLiteral .eq value) fun d => scan (' ' :: x :: sep) d value := by
  -- a value that is written as it is
  have hbare : Scans x sep value some → Scans x sep value fun d => scan (' ' :: x :: sep) d value := by
    intro hscans
    rw [show (fun d => scan (' ' :: x :: sep) d value) = some from funext hscans.scan_eq]
    exact hscans
  unfold buildExprLiteral
  simp only [trim_of_tight hvalue, if_neg (show MatchMode.eq ≠ .contains by decide)]
  split
  · rename_i hbool
    rcases hbool with rfl | rfl
    · exact hbare (h.flat (by decide) rfl)
    · exact hbare (h.flat (by decide) rfl)
  split
  · rename_i hnumber
    exact hbare (h.number hnumber)
  · exact quoted h.isPlain value

theorem hasText (source : Source) (path value : Str) :
    Scans x sep ("has(".toList ++ (Pricing.callText source.name (path.flatMap escape) ++ (", ".toList ++
      (stringify value ++ ")".toList))))
      fun d => (scanCall (' ' :: x :: sep) path (d + 1)).bind fun d => (scan (' ' :: x :: sep) d value).map (· - 1) := by
  have hhas : Scans x sep "has(".toList fun d => some (d + 1) :=
    (h.flat (t := "has".toList) (by decide) rfl).append (char h.paren.1)
  have hscans := hhas.append ((h.sourceCall source path).append ((h.flat (t := ", ".toList) (by decide) rfl).append
    ((quoted h.isPlain value).append (char h.paren.2))))
  simp only [Option.map_eq_bind]
  exact hscans

end Separator

/-- **The depth after the text of a rule** is read off its fields. -/
theorem scans_text {r : Rule} (hvalid : r.Valid) :
    Scans x sep r.text (r.scan (' ' :: x :: sep)) := by
  have hfixed : ∀ {t : Str}, t ≠ [] → isFlat t = true → Scans x sep t some := h.flat
  -- `param("path") != nil && ` in front of a text
  have hguarded : ∀ {path t : Str} {f : Int → Option Int}, Scans x sep t f →
      Scans x sep (callText Source.param.name (path.flatMap escape) ++ (" != nil && ".toList ++ t))
        fun d => (scanCall (' ' :: x :: sep) path d).bind fun d => (scanAnd (' ' :: x :: sep) d).bind f :=
    fun ht => (h.sourceCall .param _).append ((hfixed (t := " != nil".toList) (by decide) rfl).append (h.andText.append ht))
  cases r with
  | range f tz start stop =>
    have hstop : isFlat (" < ".toList ++ stop) = true := by
      rw [isFlat_append, flat_of_isNumericLiteral hvalid.2.2]
      rfl
    exact (h.timeCall f tz).append ((hfixed (t := " >= ".toList) (by decide) rfl).append ((h.number hvalid.2.1).append
      ((hfixed (t := " || ".toList) (by decide) rfl).append ((h.timeCall f tz).append_flat (hfixed (by simp) hstop)))))
  | time f tz op value =>
    refine (h.timeCall f tz).append_flat (hfixed (by simp) ?_)
    simp only [isFlat_append, flat_symbol, flat_of_isNumericLiteral hvalid.2]
    rfl
  | exists_ source path =>
    have hcall := h.sourceCall source path
    cases source with
    | header => exact hcall.append_flat (hfixed (t := " != \"\"".toList) (by decide) rfl)
    | param => exact hcall.append_flat (hfixed (t := " != nil".toList) (by decide) rfl)
  | contains source path value =>
    rw [Rule.text, literal_contains source path hvalid.2]
    cases source with
    | header => exact h.hasText .header path value
    | param => exact hguarded (h.hasText .param path value)
  | compare path op value =>
    refine hguarded ((h.sourceCall .param path).append_flat (hfixed (by simp) ?_))
    simp only [isFlat_append, flat_compareSymbol, flat_of_isNumericLiteral hvalid.2]
    rfl
  | equals source path value =>
    exact (h.sourceCall source path).append ((hfixed (t := " == ".toList) (by decide) rfl).append (h.literal hvalid.2))

theorem scans_textIn {r : Rule} (hvalid : r.Valid) (wrapped : Bool) :
    Scans x sep (r.textIn wrapped) (r.scanIn (' ' :: x :: sep) wrapped) := by
  cases wrapped with
  | false => exact scans_text h hvalid
  | true =>
    unfold Rule.scanIn
    simp only [if_true, Option.map_eq_bind]
    exact (char h.paren.1).append ((scans_text h hvalid).append (char h.paren.2))

end

/-! ## Alternatives -/

theorem includesOr_iff (s : Str) : includesOr s = true ↔ " || ".toList <:+: s := by
  rw [includesOr, decide_eq_true_eq]

theorem not_infix_or {s : Str} (h : '|' ∉ s) : ¬ " || ".toList <:+: s := by
  intro hpart
  have hmem : '|' ∈ " || ".toList := mem_cons_of_mem _ mem_cons_self
  exact h (hpart.subset hmem)

theorem infix_or_quote (s y : Str) :
    " || ".toList <:+: s ++ '"' :: y ↔ " || ".toList <:+: s ∨ " || ".toList <:+: y := by
  refine infix_append_cons_iff (by decide) fun hmem => ?_
  simp at hmem

theorem infix_or_quoted {p : Str} (hp : '|' ∉ p) (s y : Str) :
    " || ".toList <:+: p ++ '"' :: (s.flatMap escape ++ '"' :: y) ↔
      " || ".toList <:+: s ∨ " || ".toList <:+: y := by
  have hchars : ∀ c ∈ " || ".toList, c ∈ [' ', '|'] := by simp
  rw [infix_or_quote, infix_or_quote]
  refine (or_iff_right (not_infix_or hp)).trans ?_
  exact or_congr (infix_flatMap_escape_iff (by decide) hchars s) Iff.rfl

/-- Behind any text without bars, ` || ` stands in the text or in what follows it exactly if `P`
holds or it stands in what follows. -/
def Ors (t : Str) (P : Prop) : Prop :=
  ∀ (y : Str) (Q : Prop), (∀ p, '|' ∉ p → (" || ".toList <:+: p ++ y ↔ Q)) →
    ∀ p, '|' ∉ p → (" || ".toList <:+: p ++ (t ++ y) ↔ P ∨ Q)

theorem Ors.append {t u : Str} {P P' : Prop} (ht : Ors t P) (hu : Ors u P') :
    Ors (t ++ u) (P ∨ P') := by
  intro y Q hy p hp
  rw [append_assoc, ht (u ++ y) (P' ∨ Q) (hu y Q hy) p hp, or_assoc]

theorem Ors.plain {t : Str} (ht : '|' ∉ t) : Ors t False := by
  intro y Q hy p hp
  rw [← append_assoc, hy (p ++ t) (by simp [hp, ht]), false_or]

theorem Ors.quoted (s : Str) : Ors (stringify s) (" || ".toList <:+: s) := by
  intro y Q hy p hp
  have htext : p ++ (stringify s ++ y) = p ++ '"' :: (s.flatMap escape ++ '"' :: y) := by simp [stringify]
  rw [htext, infix_or_quoted hp]
  exact or_congr Iff.rfl (hy [] (by simp))

theorem Ors.callText {name : Str} (hname : '|' ∉ name) (arg : Str) :
    Ors (callText name (arg.flatMap escape)) (" || ".toList <:+: arg) := by
  have htext : Pricing.callText name (arg.flatMap escape) = (name ++ "(".toList) ++ (stringify arg ++ ")".toList) := by
    simp [Pricing.callText, stringify]
  have hall := (Ors.plain (t := name ++ "(".toList) (by simp [hname])).append
    ((Ors.quoted arg).append (Ors.plain (t := ")".toList) (by simp)))
  simp only [false_or, or_false] at hall
  rwa [htext]

theorem Ors.infix_iff {t : Str} {P : Prop} (h : Ors t P) : " || ".toList <:+: t ↔ P := by
  have hend := h [] False (fun p hp => iff_of_false (by simpa using not_infix_or hp) id) [] (by simp)
  simpa using hend

theorem not_bar_of_isNumericLiteral {number : Str} (h : isNumericLiteral number = true) :
    '|' ∉ number := by
  intro hmem
  have hbar := (isNumberChar_of_isNumericLiteral h).2 '|' hmem
  cases hbar

attribute [local simp] Rule.argument Rule.isRange Rule.value

/-- **Which rules are written with an alternative.** -/
theorem includesOr_text {r : Rule} (hvalid : r.Valid) : includesOr r.text = r.includesOr := by
  have hfunc : ∀ f : TimeFunc, '|' ∉ f.name := by
    intro f
    cases f <;> decide
  have hsource : ∀ source : Source, '|' ∉ source.name := by
    intro source
    cases source <;> decide
  have hfixed : ∀ t : Str, '|' ∉ t → Ors t False := fun t => Ors.plain
  rw [Bool.eq_iff_iff, includesOr_iff, Rule.includesOr, Bool.or_eq_true, Bool.or_eq_true,
    includesOr_iff, includesOr_iff]
  cases r with
  | range f tz start stop =>
    refine iff_of_true ?_ (.inl (.inl rfl))
    have htext : (Rule.range f tz start stop).text = (callText f.name (tz.flatMap escape) ++ (" >= ".toList ++ start)) ++
        " || ".toList ++ (callText f.name (tz.flatMap escape) ++ (" < ".toList ++ stop)) := by
      simp only [Rule.text, Rule.textWith, append_assoc]
      rfl
    exact ⟨_, _, htext.symm⟩
  | time f tz op value =>
    have hvalue := not_bar_of_isNumericLiteral hvalid.2
    have htext := (Ors.callText (hfunc f) tz).append (hfixed (" ".toList ++ (op.symbol ++ (" ".toList ++ value)))
      (by cases op <;> simp [TimeOp.symbol, hvalue]))
    exact htext.infix_iff.trans (by simp)
  | exists_ source path =>
    have hcall := Ors.callText (hsource source) path
    have htext : Ors (Rule.exists_ source path).text (" || ".toList <:+: path ∨ False) := by
      cases source with
      | header => exact hcall.append (hfixed " != \"\"".toList (by simp))
      | param => exact hcall.append (hfixed " != nil".toList (by simp))
    exact htext.infix_iff.trans (by simp)
  | contains source path value =>
    have hcall := Ors.callText (hsource source) path
    have hhas := (hfixed "has(".toList (by simp)).append (hcall.append ((hfixed ", ".toList (by simp)).append
      ((Ors.quoted value).append (hfixed ")".toList (by simp)))))
    rw [Rule.text, literal_contains source path hvalid.2]
    cases source with
    | header => exact hhas.infix_iff.trans (by simp)
    | param =>
      have htext := hcall.append ((hfixed " != nil && ".toList (by simp)).append hhas)
      exact htext.infix_iff.trans (by simp)
  | compare path op value =>
    have hvalue := not_bar_of_isNumericLiteral hvalid.2
    have hcall := Ors.callText (hsource .param) path
    have htext := hcall.append ((hfixed " != nil && ".toList (by simp)).append (hcall.append
      (hfixed (" ".toList ++ (op.symbol ++ (" ".toList ++ value))) (by cases op <;> simp [CompareOp.symbol, hvalue]))))
    exact htext.infix_iff.trans (by simp)
  | equals source path value =>
    have hliteral : Ors (buildExprLiteral .eq value) (" || ".toList <:+: value) := by
      -- a value that is written as it is
      have hbare : '|' ∉ value → Ors value (" || ".toList <:+: value) := by
        intro hbar
        rw [show (" || ".toList <:+: value) = False from eq_false (not_infix_or hbar)]
        exact hfixed value hbar
      unfold buildExprLiteral
      simp only [trim_of_tight hvalid.2, if_neg (show MatchMode.eq ≠ .contains by decide)]
      split
      · rename_i hbool
        refine hbare ?_
        rcases hbool with rfl | rfl <;> simp
      split
      · rename_i hnumber
        exact hbare (not_bar_of_isNumericLiteral hnumber)
      · exact Ors.quoted value
    have htext := (Ors.callText (hsource source) path).append ((hfixed " == ".toList (by simp)).append hliteral)
    exact htext.infix_iff.trans (by simp)

end NewApi.Pricing
