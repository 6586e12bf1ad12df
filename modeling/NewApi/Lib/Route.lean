import NewApi.Lib.Text

/-!
# Routes

A route is a pattern of path segments: a text, a parameter that takes one segment, or, at the end, a
rest that takes all that is left (`/v1/models/:model`, `/v1/models/*path`).

* `keys_matchPieces` — a match has the parameters of its pattern.
* `toList_of_segments`, `eq_pathOf` — a path is its segments.
* `hasPrefix_of_segments`, `contains_of_segments` — what the segments say of the text of the path.
* `getLast_of_hasSuffix` — what a path ends with tells its last segment.
* `not_hasPrefix_of_hasPrefix`, `not_hasSuffix_of_hasSuffix` — a path has one beginning and one end.
-/

namespace NewApi.Route

open NewApi.Text List

/-- A piece of a pattern. -/
inductive Piece where
  | lit (text : String)
  | param (name : String)
  | rest (name : String)
deriving DecidableEq, Repr

/-- The parameters of a match. -/
abbrev Params := List (String × String)

/-- Whether segments match a pattern, and with which parameters. A parameter is not empty. -/
def matchPieces : List Piece → List String → Option Params
  | [], [] => some []
  | .lit text :: pieces, segment :: segments =>
    if segment = text then matchPieces pieces segments else none
  | .param name :: pieces, segment :: segments =>
    if segment = "" then none else (matchPieces pieces segments).map fun params => (name, segment) :: params
  | [.rest name], segment :: segments => some [(name, "/" ++ "/".intercalate (segment :: segments))]
  | _, _ => none

/-- The names a pattern gives to parameters. -/
def paramNames (pieces : List Piece) : List String :=
  pieces.filterMap fun piece =>
    match piece with
    | .lit _ => none
    | .param name | .rest name => some name

def segments (path : String) : List String := split path '/'

section Match

variable {pieces : List Piece} {segs : List String} {params : Params}

attribute [local simp] matchPieces

theorem matchPieces_lit {text : String} (h : matchPieces (.lit text :: pieces) segs = some params) :
    ∃ rest, segs = text :: rest ∧ matchPieces pieces rest = some params := by
  rcases segs with _ | ⟨segment, rest⟩
  · simp at h
  simp only [matchPieces] at h
  split at h
  case isTrue heq => exact ⟨rest, by rw [heq], h⟩
  case isFalse => cases h

theorem matchPieces_param {name : String}
    (h : matchPieces (.param name :: pieces) segs = some params) :
    ∃ segment rest params', segs = segment :: rest ∧ matchPieces pieces rest = some params' ∧
      params = (name, segment) :: params' := by
  rcases segs with _ | ⟨segment, rest⟩
  · simp at h
  simp only [matchPieces] at h
  split at h
  case isTrue => cases h
  case isFalse =>
    obtain ⟨params', hrest, rfl⟩ := Option.map_eq_some_iff.mp h
    exact ⟨segment, rest, params', rfl, hrest, rfl⟩

theorem matchPieces_lits_append (texts : List String)
    (h : matchPieces (texts.map .lit ++ pieces) segs = some params) :
    ∃ rest, segs = texts ++ rest ∧ matchPieces pieces rest = some params := by
  induction texts generalizing segs with
  | nil => exact ⟨segs, rfl, h⟩
  | cons text texts ih =>
    obtain ⟨tail, hsegs, htail⟩ := matchPieces_lit h
    obtain ⟨rest, hrest, hpieces⟩ := ih htail
    exact ⟨rest, by rw [hsegs, hrest, cons_append], hpieces⟩

theorem matchPieces_lits {texts : List String}
    (h : matchPieces (texts.map .lit) segs = some params) : segs = texts ∧ params = [] := by
  rw [← append_nil (texts.map Piece.lit)] at h
  obtain ⟨rest, hsegs, hrest⟩ := matchPieces_lits_append texts h
  cases rest with
  | nil => exact ⟨by rw [hsegs, append_nil], (Option.some.inj hrest).symm⟩
  | cons segment rest => simp at hrest

theorem keys_matchPieces (h : matchPieces pieces segs = some params) :
    params.map Prod.fst = paramNames pieces := by
  induction pieces generalizing segs params with
  | nil =>
    cases segs with
    | nil =>
      cases h
      rfl
    | cons segment rest => simp at h
  | cons piece pieces ih =>
    rcases piece with text | name | name
    · obtain ⟨rest, _, hrest⟩ := matchPieces_lit h
      exact ih hrest
    · obtain ⟨segment, rest, params', _, hrest, rfl⟩ := matchPieces_param h
      rw [map_cons, ih hrest]
      rfl
    cases pieces with
    | nil =>
      cases segs with
      | nil => simp at h
      | cons segment rest =>
        cases h
        rfl
    | cons piece pieces => simp at h

theorem ne_nil_of_matchPieces (h : matchPieces pieces segs = some params) (hpieces : pieces ≠ []) :
    segs ≠ [] := by
  rintro rfl
  cases pieces with
  | nil => exact hpieces rfl
  | cons piece rest =>
    cases piece with
    | lit text | param name => simp at h
    | rest name => cases rest <;> simp at h

end Match

/-! ## Paths and their segments -/

theorem toList_of_segments (path : String) :
    path.toList = ['/'].intercalate ((segments path).map String.toList) := by
  have hmap : (segments path).map String.toList = path.toList.splitOn '/' := by
    rw [segments, split, map_map]
    exact (map_congr_left fun l _ => String.toList_ofList).trans (map_id _)
  rw [hmap, intercalate_splitOn]

/-- The path of segments. -/
def pathOf (segs : List String) : String :=
  String.ofList (['/'].intercalate (segs.map String.toList))

variable {path : String}

theorem eq_pathOf {segs : List String} (h : segments path = segs) : path = pathOf segs := by
  rw [pathOf, ← h, ← toList_of_segments, String.ofList_toList]

theorem not_hasPrefix_of_hasPrefix {a b : String} (h : hasPrefix path a = true)
    (hab : hasPrefix a b = false) (hba : hasPrefix b a = false) : hasPrefix path b = false := by
  rw [Bool.eq_false_iff] at hab hba ⊢
  intro hb
  rcases prefix_or_prefix_of_prefix (List.isPrefixOf_iff_prefix.mp h) (List.isPrefixOf_iff_prefix.mp hb) with
    hle | hle
  · exact hba (List.isPrefixOf_iff_prefix.mpr hle)
  · exact hab (List.isPrefixOf_iff_prefix.mpr hle)

theorem not_hasSuffix_of_hasSuffix {a b : String} (h : hasSuffix path a = true)
    (hab : hasSuffix a b = false) (hba : hasSuffix b a = false) : hasSuffix path b = false := by
  rw [Bool.eq_false_iff] at hab hba ⊢
  intro hb
  rcases suffix_or_suffix_of_suffix (isSuffixOf_iff_suffix.mp h) (isSuffixOf_iff_suffix.mp hb) with
    hle | hle
  · exact hba (isSuffixOf_iff_suffix.mpr hle)
  · exact hab (isSuffixOf_iff_suffix.mpr hle)

theorem intercalate_append {α : Type} {sep : List α} {a b : List (List α)} (ha : a ≠ [])
    (hb : b ≠ []) : sep.intercalate (a ++ b) = sep.intercalate a ++ sep ++ sep.intercalate b := by
  induction a with
  | nil => exact absurd rfl ha
  | cons x a ih =>
    cases a with
    | nil => rw [singleton_append, intercalate_cons_of_ne_nil hb, intercalate_singleton]
    | cons y a =>
      have hne : y :: a ++ b ≠ [] := cons_ne_nil y (a ++ b)
      rw [cons_append, intercalate_cons_of_ne_nil hne, ih (cons_ne_nil y a), intercalate_cons_cons]
      simp

theorem hasPrefix_of_segments {before after : List String}
    (h : segments path = before ++ after) (hbefore : before ≠ []) (hafter : after ≠ []) :
    hasPrefix path (pathOf before ++ "/") = true := by
  have hpath := toList_of_segments path
  rw [h, map_append, intercalate_append (map_eq_nil_iff.not.mpr hbefore)
    (map_eq_nil_iff.not.mpr hafter)] at hpath
  rw [hasPrefix, isPrefixOf_iff_prefix, hpath, String.toList_append, pathOf, String.toList_ofList]
  exact prefix_append _ _

theorem contains_of_segments {segment : String} {before after : List String}
    (h : segments path = before ++ segment :: after) (hbefore : before ≠ []) (hafter : after ≠ []) :
    contains path ("/" ++ segment ++ "/") = true := by
  have hpath := toList_of_segments path
  rw [h, map_append, map_cons,
    intercalate_append (map_eq_nil_iff.not.mpr hbefore) (cons_ne_nil _ _),
    intercalate_cons_of_ne_nil (map_eq_nil_iff.not.mpr hafter)] at hpath
  rw [Text.contains, decide_eq_true_iff, hpath]
  refine ⟨['/'].intercalate (before.map String.toList), ['/'].intercalate (after.map String.toList),
    ?_⟩
  simp only [String.toList_append, append_assoc]
  rfl

theorem getLast_of_hasSuffix {ending : String} (h : hasSuffix path ("/" ++ ending) = true)
    (hending : '/' ∉ ending.toList) : (segments path).getLast? = some ending := by
  obtain ⟨start, hpath⟩ := isSuffixOf_iff_suffix.mp h
  rw [String.toList_append] at hpath
  have hsplit : path.toList.splitOn '/' = start.splitOn '/' ++ [ending.toList] := by
    rw [← hpath, ← splitOn_eq_singleton hending]
    exact splitOnP_append_cons start ending.toList (beq_self_eq_true '/')
  rw [segments, split, hsplit, map_append, map_singleton, getLast?_concat, String.ofList_toList]

end NewApi.Route
