import NewApi.Pricing.RequestRuleDepth

/-!
# Round trip of request rules

The groups of the editor are written by `buildRequestRuleExpr` and read by
`tryParseRequestRuleExpr`.

* `normalGroups` — the groups after normalisation, without invalid conditions and empty groups.
-/

namespace NewApi.Pricing

open Js Brackets List

/-! ## Groups -/

/-- The conditions of a group that are written, normalised. -/
def normalConditions (conditions : List RequestCondition) : List RequestCondition :=
  (conditions.filter fun cond => decide (buildRequestConditionExpr cond ≠ [])).map fun cond =>
    written (normalizeCondition cond)

/-- The group that is left of a group, if any. -/
def normalGroup (group : RequestRuleGroup) : Option RequestRuleGroup :=
  let multiplier := trim group.multiplier
  let conditions := normalConditions group.conditions
  if isNumericLiteral multiplier = true ∧ conditions ≠ [] then some ⟨conditions, multiplier⟩ else none

def normalGroups (groups : List RequestRuleGroup) : List RequestRuleGroup :=
  groups.filterMap normalGroup

/-- A group that is written. -/
structure RuleGroup where
  rules : List Rule
  multiplier : Str
  ne_nil : rules ≠ []
  valid : ∀ r ∈ rules, r.Valid
  numeric : isNumericLiteral multiplier = true

theorem valid_of_mem_rules {conditions : List RequestCondition} :
    ∀ r ∈ conditions.filterMap rule?, r.Valid := by
  intro r hr
  obtain ⟨cond, _, hcond⟩ := mem_filterMap.mp hr
  exact (rule?_some hcond).2

/-- The rules of a group, if it is written. -/
def ruleGroup? (group : RequestRuleGroup) : Option RuleGroup :=
  if h : group.conditions.filterMap rule? ≠ [] ∧ isNumericLiteral (trim group.multiplier) = true then
    some ⟨group.conditions.filterMap rule?, trim group.multiplier, h.1, valid_of_mem_rules, h.2⟩
  else none

namespace RuleGroup

/-- A rule with an alternative gets parentheses if it is not the only one. -/
def wraps (G : RuleGroup) (r : Rule) : Bool := decide (2 ≤ G.rules.length) && r.includesOr

def texts (G : RuleGroup) : List Str := G.rules.map fun r => r.textIn (G.wraps r)

def text (G : RuleGroup) : Str :=
  '(' :: (" && ".toList.intercalate G.texts ++ (" ? ".toList ++ (G.multiplier ++ " : 1)".toList)))

def group (G : RuleGroup) : RequestRuleGroup := ⟨G.rules.map Rule.condition, G.multiplier⟩

end RuleGroup

theorem text_ne_nil (r : Rule) : r.text ≠ [] := by
  obtain ⟨c, rest, hcons, _⟩ := textWith_head r (r.argument.flatMap escape) r.literal
  rw [Rule.text, hcons]
  exact cons_ne_nil c rest

theorem buildRequestConditionExpr_ne_nil (cond : RequestCondition) :
    buildRequestConditionExpr cond ≠ [] ↔ (rule? cond).isSome = true := by
  rw [buildRequestConditionExpr_eq]
  cases hrule : rule? cond with
  | none => exact iff_of_false (fun h => h rfl) (by simp)
  | some r => exact iff_of_true (text_ne_nil r) rfl

theorem normalConditions_eq (conditions : List RequestCondition) :
    normalConditions conditions = (conditions.filterMap rule?).map Rule.condition := by
  unfold normalConditions
  induction conditions with
  | nil => rfl
  | cons cond conditions ih =>
    cases hrule : rule? cond with
    | none =>
      have hnil : ¬ buildRequestConditionExpr cond ≠ [] := by
        rw [buildRequestConditionExpr_ne_nil, hrule]
        simp
      rw [filter_cons_of_neg (by simpa using hnil), filterMap_cons_none hrule]
      exact ih
    | some r =>
      have hne : buildRequestConditionExpr cond ≠ [] := by
        rw [buildRequestConditionExpr_ne_nil, hrule]
        rfl
      rw [filter_cons_of_pos (by simpa using hne), filterMap_cons_some hrule, map_cons, map_cons,
        ih, (rule?_some hrule).1]

theorem written_eq {α β : Type} {build : α → Str} {read? : α → Option β} {text : β → Str}
    (hbuild : ∀ a, build a = ((read? a).map text).getD []) (hne : ∀ b, text b ≠ []) (as : List α) :
    ((as.map build).filter fun e => decide (e ≠ [])) = (as.filterMap read?).map text := by
  induction as with
  | nil => rfl
  | cons a as ih =>
    rw [map_cons, hbuild]
    cases hread : read? a with
    | none =>
      rw [filterMap_cons_none hread]
      exact ih
    | some b =>
      rw [Option.map_some, Option.getD_some, filter_cons_of_pos (by simpa using hne b), ih,
        filterMap_cons_some hread, map_cons]

theorem condExprs_eq (conditions : List RequestCondition) :
    ((conditions.map buildRequestConditionExpr).filter fun e => decide (e ≠ [])) =
      (conditions.filterMap rule?).map Rule.text :=
  written_eq buildRequestConditionExpr_eq text_ne_nil conditions

theorem normalGroup_eq (group : RequestRuleGroup) :
    normalGroup group = (ruleGroup? group).map RuleGroup.group := by
  unfold normalGroup ruleGroup?
  simp only [normalConditions_eq, ne_eq, map_eq_nil_iff]
  split
  · rename_i h
    rw [dif_pos h.symm]
    rfl
  rename_i h
  rw [dif_neg fun h' => h h'.symm]
  rfl

open RuleGroup

theorem joinConditions_eq (G : RuleGroup) :
    joinConditions (G.rules.map Rule.text) = " && ".toList.intercalate G.texts := by
  obtain ⟨rules, multiplier, hne, hvalid, hnumeric⟩ := G
  simp only [texts]
  match rules, hne, hvalid with
  | [r], _, _ =>
    rw [map_singleton, map_singleton, intercalate_singleton]
    rfl
  | r :: r' :: rs, _, hvalid =>
    have hwraps : ∀ s ∈ r :: r' :: rs,
        wraps ⟨r :: r' :: rs, multiplier, by simp, hvalid, hnumeric⟩ s = includesOr s.text := by
      intro s hs
      rw [includesOr_text (hvalid s hs), wraps]
      simp
    have hmap : ((r :: r' :: rs).map Rule.text).map
          (fun e => if includesOr e then "(".toList ++ e ++ ")".toList else e) =
        (r :: r' :: rs).map fun s =>
          s.textIn (wraps ⟨r :: r' :: rs, multiplier, by simp, hvalid, hnumeric⟩ s) := by
      rw [map_map]
      refine map_congr_left fun s hs => ?_
      rw [hwraps s hs]
      rfl
    exact congrArg (" && ".toList.intercalate ·) hmap

/-- **What is written for a group**: nothing or the factor of its rules. -/
theorem buildRuleGroupFactor_eq (group : RequestRuleGroup) :
    buildRuleGroupFactor group = ((ruleGroup? group).map RuleGroup.text).getD [] := by
  unfold buildRuleGroupFactor
  simp only [condExprs_eq]
  by_cases hnumeric : isNumericLiteral (trim group.multiplier) = true
  · by_cases hne : group.conditions.filterMap rule? = []
    · rw [ruleGroup?, dif_neg fun h => h.1 hne, hne]
      simp
    rw [ruleGroup?, dif_pos ⟨hne, hnumeric⟩]
    have hjoin := joinConditions_eq ⟨_, _, hne, valid_of_mem_rules, hnumeric⟩
    simp only [hnumeric, Bool.not_true, Bool.false_eq_true, if_false, map_eq_nil_iff, hne, hjoin,
      append_assoc, Option.map_some, Option.getD_some, text]
    rfl
  · rw [ruleGroup?, dif_neg fun h => hnumeric h.2]
    simp [hnumeric]

/-- The groups that are written. -/
def ruleGroups (groups : List RequestRuleGroup) : List RuleGroup := groups.filterMap ruleGroup?

theorem normalGroups_eq (groups : List RequestRuleGroup) :
    normalGroups groups = (ruleGroups groups).map RuleGroup.group := by
  rw [normalGroups, ruleGroups, map_filterMap]
  exact congrArg (fun f => groups.filterMap f) (funext normalGroup_eq)

theorem buildRequestRuleExpr_eq (groups : List RequestRuleGroup) :
    buildRequestRuleExpr groups = " * ".toList.intercalate ((ruleGroups groups).map RuleGroup.text) := by
  have hfilter : ((groups.map buildRuleGroupFactor).filter fun f => decide (f ≠ [])) =
      (ruleGroups groups).map text :=
    written_eq buildRuleGroupFactor_eq (fun _ => cons_ne_nil _ _) groups
  rw [buildRequestRuleExpr, hfilter]

/-! ## One factor -/

theorem readFactor_text {conditions multiplier : Str} (hne : conditions ≠ [])
    (h : isNumericLiteral multiplier = true) :
    readFactor ('(' :: (conditions ++ (" ? ".toList ++ (multiplier ++ " : 1)".toList)))) =
      some (conditions, multiplier) := by
  obtain ⟨hmne, hall⟩ := isNumberChar_of_isNumericLiteral h
  have hreverse : ('(' :: (conditions ++ (" ? ".toList ++ (multiplier ++ " : 1)".toList)))).reverse =
      " : 1)".toList.reverse ++ (multiplier.reverse ++ (" ? ".toList.reverse ++ (conditions.reverse ++ ['(']))) := by
    simp
  have hrun := @run_append (" ? ".toList.reverse ++ (conditions.reverse ++ ['('])) multiplier.reverse isNumberChar
    (by simpa using hmne) (fun c hc => hall c (mem_reverse.mp hc)) (by intro c hc; cases hc; decide)
  unfold readFactor
  rw [hreverse, expect_append]
  simp only [hrun, expect_append, reverse_append, reverse_reverse]
  obtain ⟨c, conditions', rfl⟩ := exists_cons_of_ne_nil hne
  rfl

theorem readFactor_eq_some {part conditions multiplier : Str}
    (h : readFactor part = some (conditions, multiplier)) :
    part = '(' :: (conditions ++ (" ? ".toList ++ (multiplier ++ " : 1)".toList))) := by
  unfold readFactor at h
  split at h
  · cases h
  rename_i r₁ hend
  split at h
  · cases h
  rename_i number r₂ hnumber
  split at h
  · cases h
  rename_i r₃ hquestion
  split at h
  · rename_i c conditions' hopen
    cases h
    have hr₃ : r₃ = (c :: conditions').reverse ++ ['('] := by
      rw [← reverse_reverse r₃, hopen]
      simp
    have hpart := expect_eq_some hend
    rw [(run_eq_some hnumber).1, expect_eq_some hquestion, hr₃] at hpart
    rw [← reverse_reverse part, hpart]
    simp
  · cases h

theorem loop_eq_some {α : Type} {read : Str → Parsed α} {loop : List Str → Parsed (List α)}
    (hnil : loop [] = .ok (some []))
    (hcons : ∀ part parts, loop (part :: parts) =
      match read part with
      | .error e => .error e
      | .ok none => .ok none
      | .ok (some a) =>
        match loop parts with
        | .ok (some as) => .ok (some (a :: as))
        | r => r) (parts : List Str) :
    ∀ as, loop parts = .ok (some as) ↔ List.Forall₂ (fun part a => read part = .ok (some a)) parts as := by
  induction parts with
  | nil =>
    intro as
    rw [hnil, forall₂_nil_left_iff, Except.ok.injEq, Option.some.injEq]
    exact eq_comm
  | cons part parts ih =>
    intro as
    rw [hcons, forall₂_cons_left_iff]
    constructor
    · intro h
      split at h
      · cases h
      · cases h
      rename_i a ha
      split at h
      · rename_i as' has
        cases h
        exact ⟨a, as', ha, (ih as').mp has, rfl⟩
      · rename_i hnone
        exact absurd h (hnone as)
    · rintro ⟨a, as', ha, hrest, rfl⟩
      rw [ha, (ih as').mpr hrest]

theorem parseConditions_eq_some (json : Json) (parts : List Str) (conds : List RequestCondition) :
    parseConditions json parts = .ok (some conds) ↔
      List.Forall₂ (fun part cond => tryParseRequestCondition json (trim part) = .ok (some cond)) parts conds := by
  refine @loop_eq_some _ (fun part => tryParseRequestCondition json (trim part)) (parseConditions json) rfl ?_ parts conds
  intro part parts
  rw [parseConditions]
  rcases tryParseRequestCondition json (trim part) with e | _ | cond
  · rfl
  · rfl
  · rcases parseConditions json parts with e | _ | conds <;> rfl

theorem parseFactors_eq_some (json : Json) (parts : List Str) (groups : List RequestRuleGroup) :
    parseFactors json parts = .ok (some groups) ↔
      List.Forall₂ (fun part group => tryParseRuleGroupFactor json part = .ok (some group)) parts groups := by
  refine @loop_eq_some _ (tryParseRuleGroupFactor json) (parseFactors json) rfl ?_ parts groups
  intro part parts
  rw [parseFactors]
  rcases tryParseRuleGroupFactor json part with e | _ | group
  · rfl
  · rfl
  · rcases parseFactors json parts with e | _ | groups <;> rfl

variable {json : Json}

theorem tryParseRuleGroupFactor_eq_some {part : Str} {group : RequestRuleGroup} :
    tryParseRuleGroupFactor json part = .ok (some group) ↔ ∃ conditionStr,
      readFactor part = some (conditionStr, group.multiplier) ∧
        parseConditions json (splitTopLevelAnd conditionStr) = .ok (some group.conditions) ∧
        group.conditions ≠ [] := by
  unfold tryParseRuleGroupFactor
  constructor
  · intro h
    split at h
    · cases h
    rename_i conditionStr multiplier hfactor
    split at h
    · cases h
    · cases h
    rename_i conditions hconds
    split at h
    · cases h
    rename_i hne
    cases h
    exact ⟨conditionStr, hfactor, hconds, hne⟩
  · rintro ⟨conditionStr, hfactor, hconds, hne⟩
    simp only [hfactor, hconds, if_neg hne]

namespace RuleGroup

section

variable (G : RuleGroup)

include G

theorem texts_ne_nil : G.texts ≠ [] := by
  simpa [texts] using G.ne_nil

theorem part_of_mem_texts : ∀ t ∈ G.texts, Part " && ".toList t := by
  intro t ht
  obtain ⟨r, hr, rfl⟩ := mem_map.mp ht
  exact part_textIn (G.valid r hr) (G.wraps r)

theorem joined_ne_nil : " && ".toList.intercalate G.texts ≠ [] := by
  obtain ⟨t, ts, hts⟩ := exists_cons_of_ne_nil G.texts_ne_nil
  have ht := (G.part_of_mem_texts t (by rw [hts]; exact mem_cons_self)).ne_nil
  rw [hts]
  cases ts with
  | nil =>
    rw [intercalate_singleton]
    exact ht
  | cons t' ts => simp

theorem forall₂_reads {parts : List Str} (htight : ∀ p ∈ parts, Tight p)
    (h : List.Forall₂ (fun part cond => tryParseRequestCondition json (trim part) = .ok (some cond)) parts
      (G.rules.map Rule.condition)) :
    List.Forall₂ (fun p t => Comparable p t → p = t) parts G.texts := by
  have hvalid := G.valid
  unfold texts
  generalize G.wraps = wraps
  generalize G.rules = rules at h hvalid
  induction rules generalizing parts with
  | nil =>
    cases h
    exact .nil
  | cons r rs ih =>
    cases h with
    | cons hp hps =>
      rename_i p ps
      refine .cons (fun hcomp => ?_) (ih (fun q hq => htight q (mem_cons_of_mem _ hq)) hps
        fun s hs => hvalid s (mem_cons_of_mem _ hs))
      have hpt := htight p mem_cons_self
      rw [trim_of_tight hpt] at hp
      obtain ⟨r', hcond, hreads⟩ := reads_of_tryParse hp
      rw [Rule.condition_injective hcond] at hreads
      exact (eq_text_of_reads (hvalid r mem_cons_self) hpt hreads hcomp).1

theorem slices_of_factor {conditionStr r r' : Str}
    (hconds : parseConditions json (splitTopLevelAnd conditionStr) = .ok (some (G.rules.map Rule.condition)))
    (hcomp : Comparable (conditionStr ++ ' ' :: '?' :: r) (" && ".toList.intercalate G.texts ++ ' ' :: '?' :: r')) :
    conditionStr = " && ".toList.intercalate G.texts ∧ Clear (scan " && ".toList) G.texts ∧
      ∀ s ∈ G.rules, tryParseRequestCondition json (s.textIn (G.wraps s)) = .ok (some s.condition) := by
  have hparen : ∀ c ∈ " && ".toList, c ≠ '(' ∧ c ≠ ')' := by simp
  obtain ⟨slices, hne, htext, hsplit, hclear⟩ := exists_slices (by decide) hparen conditionStr
  have hforall := (parseConditions_eq_some json _ _).mp hconds
  rw [splitTopLevelAnd, hsplit] at hforall
  have htight : ∀ p ∈ (slices.map trim).filter (fun part => decide (part ≠ [])), Tight p := by
    intro p hp
    obtain ⟨s, _, rfl⟩ := mem_map.mp (mem_filter.mp hp).1
    exact tight_trim s
  have heq : slices = G.texts := by
    refine @slices_eq "& ".toList '&' r r' (by decide) (by decide) G.texts ?_ slices hne G.texts_ne_nil ?_
      (G.forall₂_reads htight hforall)
    · exact fun t ht => ⟨(G.part_of_mem_texts t ht).tight, (G.part_of_mem_texts t ht).ne_nil⟩
    · rw [htext] at hcomp
      exact hcomp
  rw [heq] at htext hclear hforall
  refine ⟨htext, hclear, ?_⟩
  have hparts : (G.texts.map trim).filter (fun part => decide (part ≠ [])) = G.texts := by
    have hmap : G.texts.map trim = G.texts := by
      refine (map_congr_left fun t ht => trim_of_tight (G.part_of_mem_texts t ht).tight).trans ?_
      exact map_id _
    rw [hmap, filter_eq_self]
    exact fun t ht => by simpa using (G.part_of_mem_texts t ht).ne_nil
  rw [hparts] at hforall
  intro s hs
  rw [texts, forall₂_map_left_iff, forall₂_map_right_iff, forall₂_same] at hforall
  have hread := hforall s hs
  rwa [trim_of_tight (part_textIn (G.valid s hs) (G.wraps s)).tight] at hread

/-- **A factor that is read as the group and starts as its factor does is its factor.** -/
theorem eq_text_of_factor {part : Str}
    (h : tryParseRuleGroupFactor json part = .ok (some G.group)) (hcomp : Comparable part G.text) :
    part = G.text := by
  obtain ⟨conditionStr, hfactor, hconds, _⟩ := tryParseRuleGroupFactor_eq_some.mp h
  have hpart := readFactor_eq_some hfactor
  rw [hpart, text, comparable_cons_iff] at hcomp
  obtain ⟨heq, _⟩ := G.slices_of_factor hconds hcomp.2
  rw [hpart, heq]
  rfl

end

theorem factor_reads_iff (json : Json) (G : RuleGroup) :
    tryParseRuleGroupFactor json G.text = .ok (some G.group) ↔ Clear (scan " && ".toList) G.texts ∧
      ∀ s ∈ G.rules, tryParseRequestCondition json (s.textIn (G.wraps s)) = .ok (some s.condition) := by
  have hread : readFactor G.text = some (" && ".toList.intercalate G.texts, G.multiplier) :=
    readFactor_text G.joined_ne_nil G.numeric
  constructor
  · intro h
    obtain ⟨conditionStr, hfactor, hconds, _⟩ := tryParseRuleGroupFactor_eq_some.mp h
    rw [hread] at hfactor
    cases hfactor
    exact (@slices_of_factor json G _ [] [] hconds (.inl (prefix_refl _))).2
  rintro ⟨hclear, hreads⟩
  refine tryParseRuleGroupFactor_eq_some.mpr ⟨_, hread, ?_, by simpa [group] using G.ne_nil⟩
  rw [splitTopLevelAnd, splitTopLevel_intercalate (by decide) (by simp) G.part_of_mem_texts hclear,
    parseConditions_eq_some]
  show List.Forall₂ _ G.texts (G.rules.map Rule.condition)
  rw [texts, forall₂_map_left_iff, forall₂_map_right_iff, forall₂_same]
  intro s hs
  rw [trim_of_tight (part_textIn (G.valid s hs) (G.wraps s)).tight]
  exact hreads s hs

end RuleGroup

/-! ## The product -/

theorem last_factor (G : RuleGroup) : G.text.getLast? = some ')' := by
  have htext : G.text = ('(' :: (" && ".toList.intercalate G.texts ++ (" ? ".toList ++ (G.multiplier ++ " : 1".toList)))) ++
      [')'] := by
    simp [RuleGroup.text]
  rw [htext, List.getLast?_append_of_ne_nil _ (by simp)]
  rfl

theorem part_factor (G : RuleGroup) : Part " * ".toList G.text := by
  refine ⟨⟨fun c hc => ?_, fun c hc => ?_⟩, ')', last_factor G, by decide⟩
  · cases hc
    decide
  rw [last_factor] at hc
  cases hc
  decide

theorem tight_product {Gs : List RuleGroup} (hne : Gs ≠ []) :
    " * ".toList.intercalate (Gs.map RuleGroup.text) ≠ [] ∧ Tight (" * ".toList.intercalate (Gs.map RuleGroup.text)) := by
  induction Gs with
  | nil => exact absurd rfl hne
  | cons G Gs ih =>
    rcases Gs with _ | ⟨G', Gs⟩
    · rw [map_singleton, intercalate_singleton]
      exact ⟨(part_factor G).ne_nil, (part_factor G).tight⟩
    obtain ⟨hrest, htight⟩ := ih (by simp)
    have htext : " * ".toList.intercalate ((G :: G' :: Gs).map text) =
        (G.text ++ " * ".toList) ++ " * ".toList.intercalate ((G' :: Gs).map text) := by
      rw [map_cons, map_cons, intercalate_cons_cons]
    rw [htext]
    refine ⟨by simp, fun c hc => ?_, fun c hc => ?_⟩
    · exact (part_factor G).tight.1 c hc
    · rw [getLast?_append_of_ne_nil _ hrest] at hc
      exact htight.2 c hc

/-- **When the product of the factors is read back**: each is, and they are cut where they were
joined. -/
theorem product_reads_iff (json : Json) (Gs : List RuleGroup) :
    tryParseRequestRuleExpr json (" * ".toList.intercalate (Gs.map RuleGroup.text)) =
        .ok (some (Gs.map RuleGroup.group)) ↔
      Clear (scan " * ".toList) (Gs.map RuleGroup.text) ∧
        ∀ G ∈ Gs, tryParseRuleGroupFactor json G.text = .ok (some G.group) := by
  by_cases hGs : Gs = []
  · subst hGs
    exact iff_of_true rfl ⟨trivial, by simp⟩
  obtain ⟨hne, htight⟩ := tight_product hGs
  have hparen : ∀ c ∈ " * ".toList, c ≠ '(' ∧ c ≠ ')' := by simp
  have hparts : ∀ t ∈ Gs.map text, Part " * ".toList t := by
    intro t ht
    obtain ⟨G, _, rfl⟩ := mem_map.mp ht
    exact part_factor G
  rw [tryParseRequestRuleExpr]
  simp only [trim_of_tight htight, if_neg hne]
  rw [parseFactors_eq_some]
  constructor
  · intro h
    obtain ⟨slices, hslices, htext, hsplit, hclear⟩ :=
      exists_slices (by decide) hparen (" * ".toList.intercalate (Gs.map text))
    rw [splitTopLevelMultiply, hsplit] at h
    have hunique : List.Forall₂ (fun p t => Comparable p t → p = t)
        ((slices.map trim).filter fun part => decide (part ≠ [])) (Gs.map text) := by
      rw [forall₂_map_right_iff] at h ⊢
      exact h.imp fun p G hp => G.eq_text_of_factor hp
    have heq : slices = Gs.map text := by
      refine @slices_eq " ".toList '*' [] [] (by decide) (by decide) _ ?_ slices hslices (by simpa using hGs) ?_ hunique
      · exact fun t ht => ⟨(hparts t ht).tight, (hparts t ht).ne_nil⟩
      show Comparable (" * ".toList.intercalate slices ++ _) _
      rw [← htext]
      exact .inl (prefix_refl _)
    rw [heq] at hclear hsplit h
    refine ⟨hclear, ?_⟩
    rw [← hsplit, splitTopLevel_intercalate (by decide) hparen hparts hclear, forall₂_map_left_iff,
      forall₂_map_right_iff, forall₂_same] at h
    exact h
  · rintro ⟨hclear, hreads⟩
    rw [splitTopLevelMultiply, splitTopLevel_intercalate (by decide) hparen hparts hclear,
      forall₂_map_left_iff, forall₂_map_right_iff, forall₂_same]
    exact hreads

/-! ## The condition on the groups -/

/-- The depth after the factor of a group. -/
def RuleGroup.scan (sep : Str) (d : Int) (G : RuleGroup) : Option Int :=
  (G.rules.foldlM (fun d (r : Rule) => r.scanIn sep (G.wraps r) d) (d + 1)).map (· - 1)

/-- A group that is read back: no argument needs escapes, no line separator is in a value of an
equality, only a range gets parentheses, and those of each rule are closed before the next with no `
&& ` in between. -/
def RuleGroup.ReadsBack (G : RuleGroup) : Prop :=
  (∀ r ∈ G.rules, (∀ c ∈ r.argument, isPlain c = true) ∧ r.NoSeparator ∧ (G.wraps r = true → r.isRange = true)) ∧
    Clear (fun d r => r.scanIn " && ".toList (G.wraps r) d) G.rules

/-- Groups that are read back. -/
def ReadsBack (groups : List RequestRuleGroup) : Prop :=
  (∀ G ∈ ruleGroups groups, G.ReadsBack) ∧ Clear (RuleGroup.scan " * ".toList) (ruleGroups groups)

theorem clear_texts_iff (G : RuleGroup) : Clear (Brackets.scan " && ".toList) G.texts ↔
    Clear (fun d r => r.scanIn " && ".toList (G.wraps r) d) G.rules :=
  clear_map_iff fun r hr d => (scans_textIn Separator.and (G.valid r hr) (G.wraps r)).scan_eq d

theorem scans_joined {wraps : Rule → Bool} {rules : List Rule} (hvalid : ∀ r ∈ rules, r.Valid) (hne : rules ≠ []) :
    Scans '*' " ".toList (" && ".toList.intercalate (rules.map fun r => r.textIn (wraps r)))
      (rules.foldlM fun d (r : Rule) => r.scanIn " * ".toList (wraps r) d) := by
  induction rules with
  | nil => exact absurd rfl hne
  | cons r rs ih =>
    have hr := scans_textIn Separator.multiply (hvalid r mem_cons_self) (wraps r)
    cases rs with
    | nil =>
      simp only [map_singleton, intercalate_singleton, foldlM_cons, foldlM_nil,
        Option.bind_eq_bind, Option.pure_def, Option.bind_fun_some]
      exact hr
    | cons r' rs =>
      have hand : Scans '*' " ".toList " && ".toList some := Scans.flat (by decide) (by simp)
      rw [map_cons, map_cons, intercalate_cons_cons]
      exact (hr.append_flat hand).append (ih (fun s hs => hvalid s (mem_cons_of_mem _ hs)) (by simp))

theorem scan_factor (G : RuleGroup) (d : Int) : scan " * ".toList d G.text = G.scan " * ".toList d := by
  have htail : Scans '*' " ".toList (" ? ".toList ++ (G.multiplier ++ " : 1)".toList)) fun d => some (d - 1) :=
    (Separator.multiply.flat (t := " ? ".toList) (by decide) rfl).append ((Separator.multiply.number G.numeric).append
      ((Separator.multiply.flat (t := " : 1".toList) (by decide) rfl).append (Scans.char (by decide))))
  have hfactor := (Scans.char (c := '(') (by decide)).append ((@scans_joined G.wraps G.rules G.valid G.ne_nil).append htail)
  refine (hfactor.scan_eq d).trans ?_
  rw [RuleGroup.scan, Option.map_eq_bind]
  rfl

/-- **Round trip of request rules**: what is written for the groups is read as the normalised groups
exactly if the groups read back. -/
theorem requestRules_roundTrip_iff (json : Json) (groups : List RequestRuleGroup) :
    tryParseRequestRuleExpr json (buildRequestRuleExpr groups) = .ok (some (normalGroups groups)) ↔
      ReadsBack groups := by
  rw [buildRequestRuleExpr_eq, normalGroups_eq, product_reads_iff, ReadsBack, and_comm]
  refine and_congr (forall_congr' fun G => imp_congr_right fun _ => ?_) ?_
  · rw [RuleGroup.factor_reads_iff, clear_texts_iff, RuleGroup.ReadsBack, and_comm]
    refine and_congr (forall_congr' fun r => imp_congr_right fun hr => ?_) Iff.rfl
    exact reads_textIn_iff (G.valid r hr) (G.wraps r)
  · exact clear_map_iff fun G _ d => scan_factor G d

/-- A body parameter compared with a number is written with a ` && ` of its own, at which the parser
cuts, so that it never reads the comparison. -/
theorem param_comparison_not_read_back :
    tryParseRequestRuleExpr ⟨fun _ => none⟩ (buildRequestRuleExpr
        [⟨[.request .param "max_tokens".toList .gt "1000".toList], "2".toList⟩]) = .ok none ∧
      normalGroups [⟨[.request .param "max_tokens".toList .gt "1000".toList], "2".toList⟩] =
        [⟨[.request .param "max_tokens".toList .gt "1000".toList], "2".toList⟩] := by
  decide +kernel

end NewApi.Pricing
