import NewApi.Lib.Js

/-!
# Splitting at bracket depth zero

A text is cut at each separator that stands outside of all parentheses; every parenthesis counts,
also one inside a quoted text.

* `splitTopLevel` — the split.
* `scan` — the depth after a text, unless the separator stands in it at depth zero.
* `splitTopLevel_intercalate` — a list of texts that is clear, joined with the separator, is cut
  where it was joined.
* `Scans` — what a text does to the depth in front of any other; texts are put together by
  `Scans.append`.
-/

namespace NewApi.Brackets

open Js List

def depthAfter (d : Int) (c : Char) : Int := if c = '(' then d + 1 else if c = ')' then d - 1 else d

/-- The loop of the split: the depth, the current part in reverse, and how much of a separator is
still to be passed over. -/
def splitLoop (sep : Str) : Int → Str → Nat → Str → List Str
  | _, acc, _, [] => [trim acc.reverse]
  | d, acc, k + 1, _ :: s => splitLoop sep d acc k s
  | d, acc, 0, c :: s =>
    if depthAfter d c = 0 ∧ sep.isPrefixOf (c :: s) then
      trim acc.reverse :: splitLoop sep (depthAfter d c) [] (sep.length - 1) s
    else splitLoop sep (depthAfter d c) (c :: acc) 0 s

def splitTopLevel (sep s : Str) : List Str :=
  (splitLoop sep 0 [] 0 s).filter fun part => decide (part ≠ [])

def scan (sep : Str) : Int → Str → Option Int
  | d, [] => some d
  | d, c :: s => if depthAfter d c = 0 ∧ sep.isPrefixOf (c :: s) then none else scan sep (depthAfter d c) s

/-- Every item but the last ends at depth zero, and none fails. -/
def Clear {α : Type} (scan : Int → α → Option Int) : List α → Prop
  | [] => True
  | [a] => (scan 0 a).isSome
  | a :: as => scan 0 a = some 0 ∧ Clear scan as

theorem clear_map_iff {α β : Type}
    {scan : Int → β → Option Int} {scan' : Int → α → Option Int} {f : α → β}
    {as : List α} (h : ∀ a ∈ as, ∀ d, scan d (f a) = scan' d a) : Clear scan (as.map f) ↔
      Clear scan' as := by
  induction as with
  | nil => exact Iff.rfl
  | cons a as ih =>
    have ha := h a mem_cons_self
    have htail := ih fun x hx => h x (mem_cons_of_mem _ hx)
    cases as with
    | nil => simp [Clear, ha]
    | cons a' as =>
      simp only [map_cons, Clear, ha] at htail ⊢
      rw [htail]

/-- A part as the split returns it, whose last character is not one of the separator. -/
structure Part (sep t : Str) : Prop where
  tight : Tight t
  last : ∃ c ∈ t.getLast?, c ∉ sep

variable {sep t rest y : Str}

theorem Part.ne_nil (h : Part sep t) : t ≠ [] := by
  rintro rfl
  obtain ⟨c, hc, _⟩ := h.last
  cases hc

theorem isPrefixOf_of_append {u : Str} (hlast : ∃ c ∈ u.getLast?, c ∉ sep)
    (h : sep.isPrefixOf (u ++ rest) = true) : sep.isPrefixOf u = true := by
  obtain ⟨c, hc, hsep⟩ := hlast
  rw [List.isPrefixOf_iff_prefix] at h ⊢
  rcases Nat.le_total sep.length u.length with hle | hle
  · exact prefix_of_prefix_length_le h (prefix_append u rest) hle
  · have hpre : u <+: sep := prefix_of_prefix_length_le (prefix_append u rest) h hle
    exact absurd (hpre.subset (mem_of_getLast? hc)) hsep

theorem splitLoop_scan
    (hreach : ∀ u, u <:+ t → u ≠ [] → sep.isPrefixOf (u ++ rest) = true → sep.isPrefixOf u = true) :
    ∀ {d d' : Int} {acc : Str}, scan sep d t = some d' →
      splitLoop sep d acc 0 (t ++ rest) = splitLoop sep d' (t.reverse ++ acc) 0 rest := by
  induction t with
  | nil =>
    intro d d' acc h
    cases h
    rfl
  | cons c t ih =>
    intro d d' acc h
    simp only [scan] at h
    split at h
    · cases h
    rename_i hnot
    have hsplit : ¬ (depthAfter d c = 0 ∧ sep.isPrefixOf (c :: (t ++ rest)) = true) := by
      rintro ⟨hzero, hpre⟩
      exact hnot ⟨hzero, hreach (c :: t) (suffix_refl _) (by simp) hpre⟩
    rw [cons_append, splitLoop, if_neg hsplit,
      ih (fun u hu => hreach u (hu.trans (suffix_cons c t))) h]
    simp

theorem splitLoop_skip (sep : Str) (d : Int) (acc rest : Str) : ∀ s : Str,
    splitLoop sep d acc s.length (s ++ rest) = splitLoop sep d acc 0 rest := by
  intro s
  induction s with
  | nil => rfl
  | cons c s ih => exact ih

section

variable (hne : sep ≠ []) (hparen : ∀ c ∈ sep, c ≠ '(' ∧ c ≠ ')')

include hne hparen

theorem splitLoop_sep (acc rest : Str) :
    splitLoop sep 0 acc 0 (sep ++ rest) = trim acc.reverse :: splitLoop sep 0 [] 0 rest := by
  rcases sep with _ | ⟨c, sep⟩
  · exact absurd rfl hne
  have hdepth : depthAfter 0 c = 0 := by
    obtain ⟨hopen, hclose⟩ := hparen c mem_cons_self
    rw [depthAfter, if_neg hopen, if_neg hclose]
  have hpre : (c :: sep).isPrefixOf (c :: (sep ++ rest)) = true := by
    rw [List.isPrefixOf_iff_prefix]
    exact prefix_append (c :: sep) rest
  rw [cons_append, splitLoop, if_pos ⟨hdepth, hpre⟩, hdepth]
  exact congrArg _ (splitLoop_skip (c :: sep) 0 [] rest sep)

/-- **Splitting undoes joining.** -/
theorem splitTopLevel_intercalate
    {ts : List Str} (hparts : ∀ t ∈ ts, Part sep t) (h : Clear (scan sep) ts) :
    splitTopLevel sep (sep.intercalate ts) = ts := by
  have hloop : ∀ ts : List Str, ts ≠ [] → (∀ t ∈ ts, Part sep t) → Clear (scan sep) ts →
      splitLoop sep 0 [] 0 (sep.intercalate ts) = ts := by
    intro ts
    induction ts with
    | nil => exact fun hnil => absurd rfl hnil
    | cons t ts ih =>
      intro _ hparts h
      have ht := hparts t mem_cons_self
      cases ts with
      | nil =>
        obtain ⟨d, hd⟩ := Option.isSome_iff_exists.mp h
        have hend := @splitLoop_scan sep t [] (fun u _ _ hu => by simpa using hu) 0 d [] hd
        rw [append_nil, append_nil] at hend
        show splitLoop sep 0 [] 0 (sep.intercalate [t]) = [t]
        rw [intercalate_singleton, hend, splitLoop, reverse_reverse, trim_of_tight ht.tight]
      | cons t' ts =>
        have hreach : ∀ u, u <:+ t → u ≠ [] →
            sep.isPrefixOf (u ++ (sep ++ sep.intercalate (t' :: ts))) = true → sep.isPrefixOf u = true := by
          intro u hu hne
          refine isPrefixOf_of_append ?_
          obtain ⟨c, hc, hsep⟩ := ht.last
          obtain ⟨pre, rfl⟩ := hu
          exact ⟨c, by rwa [getLast?_append_of_ne_nil pre hne] at hc, hsep⟩
        rw [intercalate_cons_cons, append_assoc, splitLoop_scan hreach h.1, append_nil,
          splitLoop_sep hne hparen, reverse_reverse, trim_of_tight ht.tight,
          ih (by simp) (fun x hx => hparts x (mem_cons_of_mem _ hx)) h.2]
  rw [splitTopLevel]
  cases ts with
  | nil => rfl
  | cons t ts =>
    rw [hloop (t :: ts) (by simp) hparts h, filter_eq_self]
    intro x hx
    simpa using (hparts x hx).ne_nil

/-! ## What a split says about its text -/

theorem splitLoop_slices (n : Nat) :
    ∀ (s : Str), s.length ≤ n →
      ∀ (d : Int) (acc : Str), ∃ first rest, s = sep.intercalate (first :: rest) ∧
      splitLoop sep d acc 0 s = trim (acc.reverse ++ first) :: rest.map trim ∧
      (rest = [] → (scan sep d first).isSome) ∧
      (rest ≠ [] → scan sep d first = some 0 ∧ Clear (scan sep) rest) := by
  induction n with
  | zero =>
    intro s hs d acc
    have hnil : s = [] := length_eq_zero_iff.mp (by omega)
    subst hnil
    exact ⟨[], [], by simp, by simp [splitLoop], fun _ => rfl, fun h => absurd rfl h⟩
  | succ n ih =>
    intro s hs d acc
    rcases s with _ | ⟨c, s⟩
    · exact ⟨[], [], by simp, by simp [splitLoop], fun _ => rfl, fun h => absurd rfl h⟩
    by_cases hsep : depthAfter d c = 0 ∧ sep.isPrefixOf (c :: s) = true
    · -- a separator: the current part ends here
      obtain ⟨hdepth, hpre⟩ := hsep
      obtain ⟨rest, hrest⟩ := isPrefixOf_iff_prefix.mp hpre
      have hd : d = 0 := by
        obtain ⟨e, es, rfl⟩ := exists_cons_of_ne_nil hne
        rw [cons_append, cons.injEq] at hrest
        obtain ⟨hopen, hclose⟩ := hparen e mem_cons_self
        rw [hrest.1] at hopen hclose
        rwa [depthAfter, if_neg hopen, if_neg hclose] at hdepth
      subst hd
      have hlen : rest.length ≤ n := by
        have hpos := length_pos_of_ne_nil hne
        have hlength := congrArg length hrest
        rw [length_append, length_cons] at hlength
        rw [length_cons] at hs
        omega
      obtain ⟨first, rest', htext, hloop, hlast, hmore⟩ := ih rest hlen 0 []
      refine ⟨[], first :: rest', ?_, ?_, fun h => absurd h (by simp), fun _ => ⟨rfl, ?_⟩⟩
      · rw [intercalate_cons_cons, nil_append, ← htext, hrest]
      · rw [← hrest, splitLoop_sep hne hparen, hloop]
        simp
      cases rest' with
      | nil => exact hlast rfl
      | cons r rs => exact hmore (by simp)
    · rw [length_cons] at hs
      obtain ⟨first, rest, htext, hloop, hlast, hmore⟩ :=
        ih s (by omega) (depthAfter d c) (c :: acc)
      have hscan : scan sep d (c :: first) = scan sep (depthAfter d c) first := by
        rw [scan, if_neg]
        rintro ⟨hdepth, hpre⟩
        refine hsep ⟨hdepth, ?_⟩
        rw [List.isPrefixOf_iff_prefix] at hpre ⊢
        refine hpre.trans ?_
        rw [htext, cons_prefix_cons]
        refine ⟨rfl, ?_⟩
        cases rest with
        | nil => rw [intercalate_singleton]
        | cons r rs => exact prefix_append _ _
      refine ⟨c :: first, rest, ?_, ?_, fun h => hscan ▸ hlast h,
        fun h => ⟨hscan ▸ (hmore h).1, (hmore h).2⟩⟩
      · rw [htext]
        cases rest with
        | nil => simp
        | cons r rs => rfl
      · rw [splitLoop, if_neg hsep, hloop]
        simp

/-- The parts of a split are the trimmed slices of the text, without the empty ones, and the slices
are clear. -/
theorem exists_slices (s : Str) :
    ∃ slices, slices ≠ [] ∧ s = sep.intercalate slices ∧
      splitTopLevel sep s = (slices.map trim).filter (fun part => decide (part ≠ [])) ∧
      Clear (scan sep) slices := by
  obtain ⟨first, rest, htext, hloop, hlast, hmore⟩ :=
    splitLoop_slices hne hparen s.length s (le_refl _) 0 []
  refine ⟨first :: rest, by simp, htext, ?_, ?_⟩
  · rw [splitTopLevel, hloop]
    rfl
  cases rest with
  | nil => exact hlast rfl
  | cons r rs => exact hmore (by simp)

end

variable {x c e : Char}

/-- After white space, the blank that starts a separator or the end mark is at the same place only
without it. -/
theorem no_space_before {ws a b : Str} {y : Char}
    (hws : ∀ c ∈ ws, isSpace c = true) (hx : isSpace y = false)
    (h : Comparable (ws ++ ' ' :: x :: a) (' ' :: y :: b)) : ws = [] ∧ x = y := by
  rcases ws with _ | ⟨w, ws⟩
  · rw [nil_append, comparable_cons_iff, comparable_cons_iff] at h
    exact ⟨rfl, h.2.1⟩
  rw [cons_append, comparable_cons_iff] at h
  cases ws with
  | nil =>
    rw [nil_append, comparable_cons_iff] at h
    rw [← h.2.1] at hx
    cases hx
  | cons w' ws =>
    rw [cons_append, comparable_cons_iff] at h
    rw [← h.2.1, hws w' (by simp)] at hx
    cases hx

theorem trim_eq_append (s : Str) (hs : ∀ c ∈ s.head?, isSpace c = false) :
    ∃ ws, s = trim s ++ ws ∧ ∀ c ∈ ws, isSpace c = true := by
  have hdrop : s.dropWhile isSpace = s := by
    cases s with
    | nil => rfl
    | cons c s => exact dropWhile_cons_of_neg (by simpa using hs c (by simp))
  refine ⟨s.rtakeWhile isSpace, ?_, fun c hc => mem_rtakeWhile_imp hc⟩
  rw [trim, hdrop, rdropWhile_append_rtakeWhile]

/-- **Unique reading**: if a text starts with slices and also with as many texts, both with the end
mark `" ?"`, and each slice is its text once they have a common beginning, the slices are the
texts. -/
theorem slices_eq {r r' : Str} (hspace : isSpace x = false) (hmark : x ≠ '?') {ts : List Str}
    (htight : ∀ t ∈ ts, Tight t ∧ t ≠ []) : ∀ {slices : List Str}, slices ≠ [] → ts ≠ [] →
      Comparable ((' ' :: x :: sep).intercalate slices ++ ' ' :: '?' :: r)
        ((' ' :: x :: sep).intercalate ts ++ ' ' :: '?' :: r') →
      List.Forall₂ (fun p t => Comparable p t → p = t)
        ((slices.map trim).filter fun part => decide (part ≠ [])) ts → slices = ts := by
  have hquestion : isSpace '?' = false := by decide
  induction ts with
  | nil =>
    intro slices _ hts
    exact absurd rfl hts
  | cons t ts ih =>
    intro slices hslices _ hcomp hall
    obtain ⟨s, ss, rfl⟩ := exists_cons_of_ne_nil hslices
    obtain ⟨ht, htne⟩ := htight t mem_cons_self
    obtain ⟨c, t', rfl⟩ := exists_cons_of_ne_nil htne
    have hc : isSpace c = false := ht.1 c (by simp)
    -- what follows the first slice and the first text
    let after : List Str → Str → Str := fun l tail =>
      match l with
      | [] => ' ' :: '?' :: tail
      | _ :: _ => ' ' :: x :: (sep ++ (' ' :: x :: sep).intercalate l ++ ' ' :: '?' :: tail)
    have hafter : ∀ (a : Str) (l : List Str) (tail : Str),
        (' ' :: x :: sep).intercalate (a :: l) ++ ' ' :: '?' :: tail = a ++ after l tail := by
      intro a l tail
      cases l with
      | nil => simp [after]
      | cons b l => simp [after]
    rw [hafter, hafter] at hcomp
    -- the slice starts as the text does
    have hhead : ∀ e ∈ s.head?, isSpace e = false := by
      intro e he
      rcases s with _ | ⟨e', s'⟩
      · cases he
      simp only [head?_cons, Option.mem_def, Option.some.injEq] at he
      rw [cons_append, cons_append, comparable_cons_iff] at hcomp
      rw [← he, hcomp.1]
      exact hc
    have hsne : s ≠ [] := by
      rintro rfl
      have hfirst : ∀ tail, ∃ rest, after ss tail = ' ' :: rest := by
        intro tail
        cases ss with
        | nil | cons b l => exact ⟨_, rfl⟩
      obtain ⟨rest, hrest⟩ := hfirst r
      rw [nil_append, hrest, cons_append, comparable_cons_iff] at hcomp
      rw [← hcomp.1] at hc
      cases hc
    obtain ⟨ws, hws, hwsAll⟩ := trim_eq_append s hhead
    have htrim : trim s ≠ [] := by
      intro hnil
      rw [hnil, nil_append] at hws
      obtain ⟨e, s', rfl⟩ := exists_cons_of_ne_nil hsne
      have hspace' := hwsAll e (hws ▸ mem_cons_self)
      rw [hhead e (by simp)] at hspace'
      cases hspace'
    rw [map_cons, filter_cons_of_pos (by simpa using htrim), forall₂_cons] at hall
    rw [hws, append_assoc] at hcomp
    have hp : trim s = c :: t' := hall.1 (Comparable.of_append hcomp)
    rw [hp, comparable_append_iff] at hcomp
    cases ss with
    | nil =>
      cases ts with
      | nil =>
        obtain ⟨hnil, _⟩ := no_space_before hwsAll hquestion hcomp
        rw [hws, hp, hnil, append_nil]
      | cons u ts =>
        obtain ⟨_, hbad⟩ := no_space_before hwsAll hspace hcomp
        exact absurd hbad.symm hmark
    | cons v ss =>
      rcases ts with _ | ⟨u, ts⟩
      · obtain ⟨_, hbad⟩ := no_space_before hwsAll hquestion hcomp
        exact absurd hbad hmark
      obtain ⟨hnil, _⟩ := no_space_before hwsAll hspace hcomp
      rw [hnil, nil_append] at hcomp
      have htail : Comparable ((' ' :: x :: sep).intercalate (v :: ss) ++ ' ' :: '?' :: r)
          ((' ' :: x :: sep).intercalate (u :: ts) ++ ' ' :: '?' :: r') := by
        simp only [after, comparable_cons_iff, true_and, append_assoc,
          comparable_append_iff] at hcomp
        exact hcomp
      have hrest := ih (fun a ha => htight a (mem_cons_of_mem _ ha)) (by simp) (by simp) htail hall.2
      rw [hws, hp, hnil, append_nil, hrest]

/-! ## Scanning piece by piece -/

theorem scan_append_cons {x : Str} (hc : c ∉ sep) (d : Int) :
    scan sep d (x ++ c :: y) = (scan sep d x).bind fun d' => scan sep d' (c :: y) := by
  induction x generalizing d with
  | nil => rfl
  | cons e x ih =>
    have hpre : sep.isPrefixOf (e :: (x ++ c :: y)) = sep.isPrefixOf (e :: x) := by
      rw [Bool.eq_iff_iff, isPrefixOf_iff_prefix, isPrefixOf_iff_prefix]
      constructor
      · intro h
        rcases prefix_or_prefix_of_prefix h (prefix_append (e :: x) (c :: y)) with h' | h'
        · exact h'
        · -- the separator would be longer and so have the character in it
          obtain ⟨rest, hrest⟩ := h'
          rw [← hrest, ← cons_append, prefix_append_right_inj] at h
          cases rest with
          | nil => rw [← hrest, append_nil]
          | cons e' rest =>
            rw [cons_prefix_cons] at h
            rw [← hrest, h.1] at hc
            exact absurd (by simp) hc
      · exact fun h => h.trans (prefix_append (e :: x) (c :: y))
    rw [cons_append, scan, scan, hpre]
    split
    · rfl
    · exact ih _

theorem scan_cons_of_ne {h : Char} (hc : c ≠ h) (d : Int) :
    scan (h :: sep) d (c :: y) = scan (h :: sep) (depthAfter d c) y := by
  rw [scan, if_neg]
  rintro ⟨_, hpre⟩
  have hprefix := isPrefixOf_iff_prefix.mp hpre
  rw [cons_prefix_cons] at hprefix
  exact hc hprefix.1.symm

theorem prefix_flatMap_escape_iff {p : Str} (hp : ∀ c ∈ p, isPlain c = true) (s : Str) :
    p <+: s.flatMap escape ↔ p <+: s := by
  induction s generalizing p with
  | nil => exact Iff.rfl
  | cons c s ih =>
    rcases p with _ | ⟨k, p⟩
    · simp
    have hk := hp k mem_cons_self
    rw [flatMap_cons]
    by_cases hc : isPlain c = true
    · rw [(escape_eq_self_iff c).mpr hc, singleton_append, cons_prefix_cons, cons_prefix_cons,
        ih fun e he => hp e (mem_cons_of_mem _ he)]
    obtain ⟨e, rest, hrest, _⟩ := escape_of_not_isPlain (Bool.eq_false_iff.mpr hc)
    rw [hrest, cons_append, cons_prefix_cons, cons_prefix_cons]
    constructor
    · rintro ⟨rfl, _⟩
      cases hk
    · rintro ⟨rfl, _⟩
      exact absurd hk hc

theorem char_of_escape (h : isPlain c = false) (he : e ∈ escape c) :
    e = '"' ∨ e = '\\' ∨ e.isAlphanum = true := by
  by_cases hquote : c = '"'
  · subst hquote
    rcases mem_cons.mp he with rfl | he
    · exact .inr (.inl rfl)
    · exact .inl (mem_singleton.mp he)
  · exact .inr (mem_escape h hquote he)

theorem scan_pass {l : Str} (hl : ∀ e ∈ l, e ≠ ' ' ∧ e ≠ '(' ∧ e ≠ ')') (y : Str) (d : Int) :
    scan (' ' :: sep) d (l ++ y) = scan (' ' :: sep) d y := by
  induction l with
  | nil => rfl
  | cons e l ih =>
    obtain ⟨hblank, hopen, hclose⟩ := hl e mem_cons_self
    rw [cons_append, scan_cons_of_ne hblank, depthAfter, if_neg hopen, if_neg hclose]
    exact ih fun x hx => hl x (mem_cons_of_mem _ hx)

theorem scan_blank (h : e ≠ x) (sep y : Str) (d : Int) :
    scan (' ' :: x :: sep) d (' ' :: e :: y) = scan (' ' :: x :: sep) d (e :: y) := by
  rw [scan, if_neg]
  · rfl
  rintro ⟨_, hpre⟩
  have hprefix := isPrefixOf_iff_prefix.mp hpre
  rw [cons_prefix_cons, cons_prefix_cons] at hprefix
  exact h hprefix.2.1.symm

/-- Escapes have neither blanks nor parentheses in them, so a text and its escaped form are scanned
alike. -/
theorem scan_flatMap_escape (hsep : ∀ c ∈ ' ' :: sep, isPlain c = true) (s : Str) : ∀ d : Int,
    scan (' ' :: sep) d (s.flatMap escape) = scan (' ' :: sep) d s := by
  induction s with
  | nil => exact fun _ => rfl
  | cons c s ih =>
    intro d
    rw [flatMap_cons]
    by_cases hc : isPlain c = true
    · have hpre : (' ' :: sep).isPrefixOf (c :: s.flatMap escape) = (' ' :: sep).isPrefixOf (c :: s) := by
        rw [Bool.eq_iff_iff, isPrefixOf_iff_prefix, isPrefixOf_iff_prefix, cons_prefix_cons,
          cons_prefix_cons, prefix_flatMap_escape_iff fun e he => hsep e (mem_cons_of_mem _ he)]
      rw [(escape_eq_self_iff c).mpr hc, singleton_append, scan, scan, hpre, ih]
    have hfalse : isPlain c = false := by simpa using hc
    have hmem : ∀ e ∈ escape c, e ≠ ' ' ∧ e ≠ '(' ∧ e ≠ ')' := by
      intro e he
      have hout := char_of_escape hfalse he
      refine ⟨?_, ?_, ?_⟩
      all_goals
        rintro rfl
        exact absurd hout (by decide)
    have hparens : c ≠ ' ' ∧ c ≠ '(' ∧ c ≠ ')' := by
      refine ⟨?_, ?_, ?_⟩
      all_goals
        rintro rfl
        exact absurd hfalse (by decide)
    rw [scan_pass hmem, ih, scan_cons_of_ne hparens.1, depthAfter, if_neg hparens.2.1,
      if_neg hparens.2.2]

theorem scan_quoted (hsep : ∀ c ∈ ' ' :: sep, isPlain c = true) (s y : Str) (d : Int) :
    scan (' ' :: sep) d ('"' :: (s.flatMap escape ++ '"' :: y)) =
      (scan (' ' :: sep) d s).bind fun d' => scan (' ' :: sep) d' y := by
  have hquote : '"' ∉ ' ' :: sep := fun hmem => absurd (hsep _ hmem) (by decide)
  have hpass : ∀ (y : Str) (d : Int), scan (' ' :: sep) d ('"' :: y) = scan (' ' :: sep) d y := fun y d =>
    scan_cons_of_ne (by decide) d
  rw [hpass, scan_append_cons hquote, scan_flatMap_escape hsep]
  simp only [hpass]

/-- From depth `d` the text leads to depth `f d`, whatever follows; only a blank at its end needs
another character after it than the second one of the separator. -/
structure Scans (x : Char) (sep t : Str) (f : Int → Option Int) : Prop where
  head : ∃ c ∈ t.head?, c ≠ x
  scan_append : ∀ y, (∀ c ∈ y.head?, c ≠ x) → ∀ d,
    scan (' ' :: x :: sep) d (t ++ y) = (f d).bind fun d' => scan (' ' :: x :: sep) d' y

namespace Scans

variable {x : Char} {sep t u : Str} {f g : Int → Option Int}

theorem append (ht : Scans x sep t f) (hu : Scans x sep u g) :
    Scans x sep (t ++ u) fun d => (f d).bind g := by
  obtain ⟨c, hc, hcx⟩ := ht.head
  obtain ⟨e, he, hex⟩ := hu.head
  refine ⟨⟨c, by rw [head?_append, hc]; rfl, hcx⟩, fun y hy d => ?_⟩
  have hnext : ∀ a ∈ (u ++ y).head?, a ≠ x := by
    rw [head?_append, he]
    rintro a ⟨⟩
    exact hex
  rw [append_assoc, ht.scan_append _ hnext, Option.bind_assoc]
  exact Option.bind_congr fun d' _ => hu.scan_append y hy d'

theorem char {c : Char} (hc : c ≠ x) : Scans x sep [c] fun d => some (depthAfter d c) := by
  refine ⟨⟨c, rfl, hc⟩, fun y hy d => ?_⟩
  by_cases hblank : c = ' '
  · subst hblank
    cases y with
    | nil => simp [scan]
    | cons e y => exact scan_blank (hy e rfl) sep y d
  · exact scan_cons_of_ne hblank d

theorem flat (hne : t ≠ []) (ht : ∀ c ∈ t, c ≠ x ∧ c ≠ '(' ∧ c ≠ ')') : Scans x sep t some := by
  induction t with
  | nil => exact absurd rfl hne
  | cons c t ih =>
    obtain ⟨hx, hopen, hclose⟩ := ht c mem_cons_self
    have hc : Scans x sep [c] some := by simpa only [depthAfter, if_neg hopen, if_neg hclose] using @char x sep c hx
    cases t with
    | nil => exact hc
    | cons e t => exact hc.append (ih (by simp) fun a ha => ht a (mem_cons_of_mem _ ha))

theorem append_flat (ht : Scans x sep t f) (hu : Scans x sep u some) : Scans x sep (t ++ u) f := by
  simpa only [Option.bind_fun_some] using ht.append hu

theorem quoted (hsep : ∀ c ∈ ' ' :: x :: sep, isPlain c = true) (s : Str) :
    Scans x sep (stringify s) fun d => scan (' ' :: x :: sep) d s := by
  have hx : '"' ≠ x := by
    rintro rfl
    exact absurd (hsep '"' (by simp)) (by decide)
  refine ⟨⟨'"', rfl, hx⟩, fun y _ d => ?_⟩
  have htext : stringify s ++ y = '"' :: (s.flatMap escape ++ '"' :: y) := by simp [stringify]
  rw [htext]
  exact scan_quoted hsep s y d

theorem scan_eq (h : Scans x sep t f) (d : Int) : scan (' ' :: x :: sep) d t = f d := by
  have hend := h.scan_append [] (by simp) d
  rw [append_nil] at hend
  exact hend.trans (Option.bind_fun_some _)

end Scans

/-! ## Occurrences -/

theorem infix_append_cons_iff {p x y : Str} {c : Char} (hne : p ≠ []) (hc : c ∉ p) :
    p <:+: x ++ c :: y ↔ p <:+: x ∨ p <:+: y := by
  constructor
  · rintro ⟨a, b, hab⟩
    rw [append_assoc] at hab
    rcases append_eq_append_iff.mp hab with ⟨u, hx, hrest⟩ | ⟨u, ha, hrest⟩
    · rcases append_eq_append_iff.mp hrest with ⟨v, hu, _⟩ | ⟨v, hp, hv⟩
      · left
        exact ⟨a, v, by rw [hx, hu, append_assoc]⟩
      cases v with
      | nil =>
        left
        rw [append_nil] at hp
        exact ⟨a, [], by rw [hx, hp, append_nil]⟩
      | cons e v =>
        rw [cons_append, cons.injEq] at hv
        rw [hp, hv.1] at hc
        exact absurd (by simp) hc
    · cases u with
      | nil =>
        rw [nil_append] at hrest
        obtain ⟨e, p', rfl⟩ := exists_cons_of_ne_nil hne
        rw [cons_append, cons.injEq] at hrest
        rw [hrest.1] at hc
        exact absurd mem_cons_self hc
      | cons e u =>
        right
        rw [cons_append, cons.injEq] at hrest
        exact ⟨u, b, by rw [hrest.2, append_assoc]⟩
  · rintro (⟨a, b, rfl⟩ | ⟨a, b, rfl⟩)
    · exact ⟨a, b ++ c :: y, by simp⟩
    · exact ⟨x ++ c :: a, b, by simp⟩

theorem infix_flatMap_escape_iff {p : Str} (hne : p ≠ []) (hp : ∀ c ∈ p, c ∈ [' ', '|']) (s : Str) :
    p <:+: s.flatMap escape ↔ p <:+: s := by
  have hplain : ∀ c ∈ p, isPlain c = true := by
    intro c hc
    rcases mem_cons.mp (hp c hc) with rfl | hbar
    · rfl
    · rw [mem_singleton.mp hbar]
      rfl
  -- characters of an escape are not in the pattern
  have hpass : ∀ (l y : Str), (∀ e ∈ l, e ∉ p) → (p <:+: l ++ y ↔ p <:+: y) := by
    intro l y
    induction l with
    | nil => exact fun _ => Iff.rfl
    | cons e l ih =>
      intro hl
      have hcons := @infix_append_cons_iff p [] (l ++ y) e hne (hl e mem_cons_self)
      rw [nil_append] at hcons
      rw [cons_append, hcons, ih fun x hx => hl x (mem_cons_of_mem _ hx)]
      exact or_iff_right fun h => hne (infix_nil.mp h)
  induction s with
  | nil => exact Iff.rfl
  | cons c s ih =>
    rw [flatMap_cons]
    by_cases hc : isPlain c = true
    · have hpre : p <+: c :: s.flatMap escape ↔ p <+: c :: s := by
        have h := prefix_flatMap_escape_iff hplain (c :: s)
        rwa [flatMap_cons, (escape_eq_self_iff c).mpr hc] at h
      rw [(escape_eq_self_iff c).mpr hc, singleton_append, infix_cons_iff, infix_cons_iff]
      exact or_congr hpre ih
    have hfalse : isPlain c = false := by simpa using hc
    have hescape : ∀ e ∈ escape c, e ∉ p := by
      intro e he hmem
      have hout := char_of_escape hfalse he
      have hin := hp e hmem
      rcases mem_cons.mp hin with rfl | hin
      · exact absurd hout (by decide)
      · rw [mem_singleton.mp hin] at hout
        exact absurd hout (by decide)
    have hcp : c ∉ p := fun hmem => by
      rw [hplain c hmem] at hfalse
      cases hfalse
    have hcons := hpass [c] s fun e he => by
      rw [mem_singleton.mp he]
      exact hcp
    exact (hpass _ _ hescape).trans (ih.trans hcons.symm)

end NewApi.Brackets
