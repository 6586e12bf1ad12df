import Mathlib

/-!
# Text as JavaScript handles it

Texts are lists of characters.

* `isSpace`, `trim` — the white space of `trim` and of `\s`.
* `isNumericLiteral` — `/^-?(?:\d+\.?\d*|\.\d+)(?:[eE][+-]?\d+)?$/`.
* `stringify`, `parseString` — JSON string literals; `parseString_stringify` is the round trip, and
  `length_stringify_le` says that no literal is shorter.
-/

namespace NewApi.Js

open List

abbrev Str := List Char

/-! ## White space -/

def isSpace (c : Char) : Bool :=
  let n := c.toNat
  (9 ≤ n && n ≤ 13) || n == 0x20 || n == 0xA0 || n == 0x1680 || (0x2000 ≤ n && n ≤ 0x200a) || n == 0x2028 ||
    n == 0x2029 || n == 0x202f || n == 0x205f || n == 0x3000 || n == 0xfeff

/-- What `.` does not match. -/
def isLineTerminator (c : Char) : Bool :=
  let n := c.toNat
  n == 10 || n == 13 || n == 0x2028 || n == 0x2029

theorem isLineTerminator_iff (c : Char) :
    isLineTerminator c = true ↔ c = '\n' ∨ c = '\r' ∨ c = '\u2028' ∨ c = '\u2029' := by
  have hchar : ∀ n, c.toNat = n ↔ c = Char.ofNat n ∧ (Char.ofNat n).toNat = n := by
    intro n
    constructor
    · rintro rfl
      rw [Char.ofNat_toNat]
      exact ⟨rfl, rfl⟩
    · rintro ⟨h, hn⟩
      rw [h, hn]
  simp only [isLineTerminator, Bool.or_eq_true, beq_iff_eq, or_assoc, hchar]
  exact or_congr (and_iff_left rfl) (or_congr (and_iff_left rfl) (or_congr (and_iff_left rfl) (and_iff_left rfl)))

def trim (s : Str) : Str := (s.dropWhile isSpace).rdropWhile isSpace

/-- A text that starts and ends with other characters. -/
def Tight (s : Str) : Prop :=
  (∀ c ∈ s.head?, isSpace c = false) ∧ ∀ c ∈ s.getLast?, isSpace c = false

variable {s v literal a b x y rest l text : Str}

theorem trim_of_tight (h : Tight s) : trim s = s := by
  have hdrop : s.dropWhile isSpace = s := by
    cases s with
    | nil => rfl
    | cons c s => exact dropWhile_cons_of_neg (by simpa using h.1 c (by simp))
  rw [trim, hdrop, rdropWhile_eq_self_iff]
  intro hne
  have hlast := h.2 (s.getLast hne) (by simp [getLast?_eq_some_getLast hne])
  simpa using hlast

theorem tight_trim (s : Str) : Tight (trim s) := by
  constructor
  · intro c hc
    have hpre := rdropWhile_prefix isSpace (s.dropWhile isSpace)
    rcases hdrop : s.dropWhile isSpace with _ | ⟨d, rest⟩
    · rw [trim, hdrop] at hc
      simp at hc
    have hd : isSpace d = false := by
      have hhead := head?_dropWhile_not isSpace s
      rw [hdrop] at hhead
      simpa using hhead
    rw [hdrop] at hpre
    obtain ⟨tail, htail⟩ := hpre
    rw [trim, hdrop] at hc
    rcases hr : rdropWhile isSpace (d :: rest) with _ | ⟨a, as⟩
    · rw [hr] at hc
      simp at hc
    rw [hr, cons_append, cons.injEq] at htail
    rw [hr] at hc
    simp only [head?_cons, Option.mem_def, Option.some.injEq] at hc
    rw [← hc, htail.1]
    exact hd
  · intro c hc
    by_cases hne : trim s = []
    · rw [hne] at hc
      simp at hc
    have hlast := rdropWhile_last_not isSpace (s.dropWhile isSpace) hne
    rw [getLast?_eq_some_getLast hne] at hc
    simp only [Option.mem_def, Option.some.injEq] at hc
    rw [← hc]
    exact Bool.eq_false_iff.mpr hlast

theorem trim_trim (s : Str) : trim (trim s) = trim s := trim_of_tight (tight_trim s)

/-! ## Numeric literals -/

/-- The class `[\d.eE+-]`. -/
def isNumberChar (c : Char) : Bool :=
  c.isDigit || c == '.' || c == 'e' || c == 'E' || c == '+' || c == '-'

/-- `\d+`. -/
def isDigits (s : Str) : Bool := !s.isEmpty && s.all Char.isDigit

/-- `[+-]?\d+`. -/
def isSignedDigits : Str → Bool
  | '+' :: digits => isDigits digits
  | '-' :: digits => isDigits digits
  | digits => isDigits digits

/-- `(?:[eE][+-]?\d+)?`. -/
def isExponent : Str → Bool
  | [] => true
  | c :: s => (c == 'e' || c == 'E') && isSignedDigits s

/-- `(?:\d+\.?\d*|\.\d+)(?:[eE][+-]?\d+)?`. -/
def isUnsignedLiteral (s : Str) : Bool :=
  match s.takeWhile Char.isDigit, s.dropWhile Char.isDigit with
  | [], '.' :: rest => !(rest.takeWhile Char.isDigit).isEmpty && isExponent (rest.dropWhile Char.isDigit)
  | [], _ => false
  | _ :: _, '.' :: rest => isExponent (rest.dropWhile Char.isDigit)
  | _ :: _, rest => isExponent rest

def isNumericLiteral (s : Str) : Bool :=
  match s with
  | '-' :: rest => isUnsignedLiteral rest
  | rest => isUnsignedLiteral rest

variable {c : Char}

theorem isNumberChar_of_isDigit (h : c.isDigit = true) : isNumberChar c = true := by
  simp [isNumberChar, h]

theorem isNumberChar_of_isDigits (h : isDigits s = true) : ∀ c ∈ s, isNumberChar c = true := by
  rw [isDigits, Bool.and_eq_true, all_eq_true] at h
  exact fun c hc => isNumberChar_of_isDigit (h.2 c hc)

theorem isNumberChar_of_isExponent (h : isExponent s = true) : ∀ c ∈ s, isNumberChar c = true := by
  rcases s with _ | ⟨e, s⟩
  · intro c hc
    cases hc
  rw [isExponent, Bool.and_eq_true] at h
  obtain ⟨he, hs⟩ := h
  have htail : ∀ c ∈ s, isNumberChar c = true := by
    unfold isSignedDigits at hs
    split at hs
    · intro c hc
      rcases mem_cons.mp hc with rfl | hc
      · decide
      · exact isNumberChar_of_isDigits hs c hc
    · intro c hc
      rcases mem_cons.mp hc with rfl | hc
      · decide
      · exact isNumberChar_of_isDigits hs c hc
    · exact isNumberChar_of_isDigits hs
  intro c hc
  rcases mem_cons.mp hc with rfl | hc
  · rw [Bool.or_eq_true, beq_iff_eq, beq_iff_eq] at he
    rcases he with rfl | rfl <;> decide
  · exact htail c hc

theorem isNumberChar_of_isUnsignedLiteral (h : isUnsignedLiteral s = true) :
    s ≠ [] ∧ ∀ c ∈ s, isNumberChar c = true := by
  have hdigits : ∀ l : Str, ∀ c ∈ l.takeWhile Char.isDigit, isNumberChar c = true := fun l c hc =>
    isNumberChar_of_isDigit (mem_takeWhile_imp hc)
  -- a text of digits and a rest of number characters
  have hsplit : ∀ l : Str, (∀ c ∈ l.dropWhile Char.isDigit, isNumberChar c = true) →
      ∀ c ∈ l, isNumberChar c = true := by
    intro l hrest c hc
    rw [← takeWhile_append_dropWhile (p := Char.isDigit) (l := l)] at hc
    rcases mem_append.mp hc with hc | hc
    · exact hdigits l c hc
    · exact hrest c hc
  have hdot : ∀ rest : Str, isExponent (rest.dropWhile Char.isDigit) = true →
      ∀ c ∈ '.' :: rest, isNumberChar c = true := by
    intro rest hexp c hc
    rcases mem_cons.mp hc with rfl | hc
    · decide
    · exact hsplit rest (isNumberChar_of_isExponent hexp) c hc
  have hne : s ≠ [] := by
    rintro rfl
    simp [isUnsignedLiteral] at h
  refine ⟨hne, hsplit s ?_⟩
  unfold isUnsignedLiteral at h
  split at h
  · rename_i hdrop
    rw [hdrop]
    rw [Bool.and_eq_true] at h
    exact hdot _ h.2
  · cases h
  · rename_i hdrop
    rw [hdrop]
    exact hdot _ h
  · exact isNumberChar_of_isExponent h

theorem isNumberChar_of_isNumericLiteral (h : isNumericLiteral s = true) :
    s ≠ [] ∧ ∀ c ∈ s, isNumberChar c = true := by
  unfold isNumericLiteral at h
  split at h
  · obtain ⟨_, hall⟩ := isNumberChar_of_isUnsignedLiteral h
    refine ⟨by simp, fun c hc => ?_⟩
    rcases mem_cons.mp hc with rfl | hc
    · decide
    · exact hall c hc
  · exact isNumberChar_of_isUnsignedLiteral h

/-! ## JSON strings -/

def hexDigit (n : Nat) : Char := "0123456789abcdef".toList.getD n '0'

def hexValue (c : Char) : Option Nat :=
  if c.isDigit then some (c.toNat - 48)
  else if 'a' ≤ c ∧ c ≤ 'f' then some (c.toNat - 87)
  else if 'A' ≤ c ∧ c ≤ 'F' then some (c.toNat - 55)
  else none

/-- A character inside a string literal of `JSON.stringify`. -/
def escape (c : Char) : Str :=
  if c = '"' then ['\\', '"']
  else if c = '\\' then ['\\', '\\']
  else if c = '\x08' then ['\\', 'b']
  else if c = '\x0c' then ['\\', 'f']
  else if c = '\n' then ['\\', 'n']
  else if c = '\r' then ['\\', 'r']
  else if c = '\t' then ['\\', 't']
  else if c.toNat < 0x20 then ['\\', 'u', '0', '0', hexDigit (c.toNat / 16), hexDigit (c.toNat % 16)]
  else [c]

/-- `stringify` writes the character as it is. -/
def isPlain (c : Char) : Bool := !(c == '"' || c == '\\' || decide (c.toNat < 0x20))

theorem isPlain_iff (c : Char) : isPlain c = true ↔ ¬ (c = '"' ∨ c = '\\' ∨ c.toNat < 0x20) := by
  simp [isPlain, and_assoc]

theorem escape_of_isPlain (h : isPlain c = true) : escape c = [c] := by
  obtain ⟨hquote, hback, hcontrol⟩ : c ≠ '"' ∧ c ≠ '\\' ∧ ¬ c.toNat < 0x20 := by
    simpa only [not_or] using (isPlain_iff c).mp h
  have hne : ∀ d : Char, d.toNat < 0x20 → c ≠ d := by
    rintro d hd rfl
    exact hcontrol hd
  rw [escape, if_neg hquote, if_neg hback, if_neg (hne _ (by decide)), if_neg (hne _ (by decide)),
    if_neg (hne _ (by decide)), if_neg (hne _ (by decide)), if_neg (hne _ (by decide)), if_neg hcontrol]

theorem isAlphanum_hexDigit (n : Nat) : (hexDigit n).isAlphanum = true := by
  rcases Nat.lt_or_ge n 16 with hlt | hge
  · exact (by decide : ∀ n < 16, (hexDigit n).isAlphanum = true) n hlt
  have hdefault : hexDigit n = '0' := by
    unfold hexDigit
    rw [getD_eq_default _ _ (by simpa using hge)]
  rw [hdefault]
  decide

theorem escape_of_not_isPlain (h : isPlain c = false) :
    ∃ e rest, escape c = '\\' :: e :: rest ∧ (e = '"' ∧ c = '"' ∨ e = '\\' ∨ e.isAlphanum = true) ∧
      rest.length ≤ 4 ∧ ∀ x ∈ rest, x.isAlphanum = true := by
  have hnil : ∀ x ∈ ([] : Str), x.isAlphanum = true := by simp
  unfold escape
  split
  · rename_i hc
    exact ⟨_, [], rfl, .inl ⟨rfl, hc⟩, by decide, hnil⟩
  split
  · exact ⟨_, [], rfl, .inr (.inl rfl), by decide, hnil⟩
  -- the letters of the short escapes
  iterate 5
    split
    · exact ⟨_, [], rfl, .inr (.inr (by decide)), by decide, hnil⟩
  split
  · refine ⟨_, _, rfl, .inr (.inr (by decide)), le_refl 4, ?_⟩
    intro x hx
    simp only [mem_cons, not_mem_nil, or_false] at hx
    rcases hx with rfl | rfl | rfl | rfl
    · decide
    · decide
    · exact isAlphanum_hexDigit _
    · exact isAlphanum_hexDigit _
  · rename_i hquote hback _ _ _ _ _ hcontrol
    rw [(isPlain_iff c).mpr (not_or.mpr ⟨hquote, not_or.mpr ⟨hback, hcontrol⟩⟩)] at h
    cases h

theorem escape_eq_self_iff (c : Char) : escape c = [c] ↔ isPlain c = true := by
  constructor
  · intro h
    by_contra hnot
    obtain ⟨e, rest, hescape, _⟩ := escape_of_not_isPlain (Bool.eq_false_iff.mpr hnot)
    rw [hescape] at h
    cases h
  · exact escape_of_isPlain

theorem mem_escape {x : Char} (hplain : isPlain c = false) (hquote : c ≠ '"') (hx : x ∈ escape c) :
    x = '\\' ∨ x.isAlphanum = true := by
  obtain ⟨e, rest, hescape, he, _, hrest⟩ := escape_of_not_isPlain hplain
  rw [hescape] at hx
  rcases mem_cons.mp hx with rfl | hx
  · exact .inl rfl
  rcases mem_cons.mp hx with rfl | hx
  · rcases he with ⟨_, hc⟩ | he | he
    · exact absurd hc hquote
    · exact .inl he
    · exact .inr he
  · exact .inr (hrest x hx)

theorem length_escape_le (c : Char) : 0 < (escape c).length ∧ (escape c).length ≤ 6 := by
  by_cases h : isPlain c = true
  · rw [escape_of_isPlain h, length_singleton]
    decide
  obtain ⟨e, rest, hescape, _, hlength, _⟩ := escape_of_not_isPlain (Bool.eq_false_iff.mpr h)
  rw [hescape, length_cons, length_cons]
  omega

/-- `JSON.stringify` of a string. -/
def stringify (s : Str) : Str := '"' :: (s.flatMap escape ++ ['"'])

/-- The number of a `\uXXXX` escape. -/
def hexUnit (a b c d : Char) : Option Nat := do
  let a ← hexValue a
  let b ← hexValue b
  let c ← hexValue c
  let d ← hexValue d
  pure (((a * 16 + b) * 16 + c) * 16 + d)

/-- The escapes of one character. -/
def shortEscape : Char → Option Char
  | '"' => some '"'
  | '\\' => some '\\'
  | '/' => some '/'
  | 'b' => some '\x08'
  | 'f' => some '\x0c'
  | 'n' => some '\n'
  | 'r' => some '\r'
  | 't' => some '\t'
  | _ => none

/-- The rest of a string literal, after its opening quote and up to the end of the text: characters,
and the numbers of `\uXXXX` escapes. -/
def parseUnits : Str → Option (List (Char ⊕ Nat))
  | [] => none
  | '\\' :: 'u' :: a :: b :: c :: d :: s =>
    match hexUnit a b c d, parseUnits s with
    | some n, some rest => some (.inr n :: rest)
    | _, _ => none
  | '\\' :: e :: s =>
    match shortEscape e with
    | some c => (parseUnits s).map (.inl c :: ·)
    | none => none
  | c :: s =>
    if c = '"' then (if s = [] then some [] else none)
    else if c = '\\' ∨ c.toNat < 0x20 then none
    else (parseUnits s).map (.inl c :: ·)

/-- The character of a code unit; a surrogate on its own, which is none, gives the replacement
character. -/
def unitChar (n : Nat) : Char := if 0xd800 ≤ n ∧ n ≤ 0xdfff then '\ufffd' else Char.ofNat n

/-- Two surrogates in a row are one character. -/
def joinUnits : List (Char ⊕ Nat) → Str
  | [] => []
  | .inl c :: us => c :: joinUnits us
  | .inr high :: .inr low :: us =>
    if 0xd800 ≤ high ∧ high < 0xdc00 ∧ 0xdc00 ≤ low ∧ low < 0xe000 then
      Char.ofNat (0x10000 + (high - 0xd800) * 0x400 + (low - 0xdc00)) :: joinUnits us
    else unitChar high :: joinUnits (.inr low :: us)
  | .inr n :: us => unitChar n :: joinUnits us

/-- `JSON.parse` of a text that is a string literal. -/
def parseString : Str → Option Str
  | '"' :: s => (parseUnits s).map joinUnits
  | _ => none

theorem parseUnits_cons (h : c ≠ '\\') (s : Str) : parseUnits (c :: s) =
    if c = '"' then (if s = [] then some [] else none)
    else if c = '\\' ∨ c.toNat < 0x20 then none
    else (parseUnits s).map (.inl c :: ·) := by
  rw [parseUnits]
  · exact fun _ _ _ _ _ hc => absurd hc h
  · exact fun _ _ hc => absurd hc h

theorem parseUnits_plain (h : ¬ (c = '"' ∨ c = '\\' ∨ c.toNat < 0x20)) (s : Str) :
    parseUnits (c :: s) = (parseUnits s).map (.inl c :: ·) := by
  obtain ⟨hquote, hrest⟩ := not_or.mp h
  rw [parseUnits_cons (not_or.mp hrest).1, if_neg hquote, if_neg hrest]

theorem hexUnit_control :
    ∀ n < 0x20, hexUnit '0' '0' (hexDigit (n / 16)) (hexDigit (n % 16)) = some n := by
  decide +kernel

theorem joinUnits_control {n : Nat} (h : n < 0x20) (us : List (Char ⊕ Nat)) :
    joinUnits (.inr n :: us) = Char.ofNat n :: joinUnits us := by
  have hunit : unitChar n = Char.ofNat n := if_neg (by omega)
  rcases us with _ | ⟨c | low, us⟩
  · simp [joinUnits, hunit]
  · simp [joinUnits, hunit]
  · rw [joinUnits, if_neg (by omega), hunit]

theorem parseUnits_escape (c : Char) (s : Str) :
    ∃ u, parseUnits (escape c ++ s) = (parseUnits s).map (u :: ·) ∧
      ∀ us, joinUnits (u :: us) = c :: joinUnits us := by
  unfold escape
  iterate 7
    split
    · rename_i h; subst h; exact ⟨_, rfl, fun _ => rfl⟩
  split
  · rename_i hcontrol
    have hhex := hexUnit_control c.toNat hcontrol
    refine ⟨.inr c.toNat, ?_, fun us => ?_⟩
    · simp only [cons_append, nil_append, parseUnits, hhex]
      cases parseUnits s <;> rfl
    · rw [joinUnits_control hcontrol, Char.ofNat_toNat]
  · exact ⟨.inl c, parseUnits_plain (by tauto) s, fun _ => rfl⟩

theorem parseUnits_flatMap_escape (v s : Str) :
    (parseUnits (v.flatMap escape ++ s)).map joinUnits = (parseUnits s).map fun us => v ++ joinUnits us := by
  induction v with
  | nil => rfl
  | cons c v ih =>
    obtain ⟨u, hu, hjoin⟩ := parseUnits_escape c (v.flatMap escape ++ s)
    rw [flatMap_cons, append_assoc, hu, Option.map_map]
    have hcomp : (joinUnits ∘ fun us => u :: us) = (c :: ·) ∘ joinUnits := funext hjoin
    rw [hcomp, ← Option.map_map, ih, Option.map_map]
    rfl

theorem parseString_stringify (s : Str) : parseString (stringify s) = some s := by
  have h := parseUnits_flatMap_escape s ['"']
  show (parseUnits (s.flatMap escape ++ ['"'])).map joinUnits = some s
  rw [h]
  simp [parseUnits, joinUnits]

theorem parseString_stringify_append {extra : Str} (h : extra ≠ []) :
    parseString (stringify v ++ extra) = none := by
  have hbody := parseUnits_flatMap_escape v ('"' :: extra)
  have hnone : parseUnits ('"' :: extra) = none := by rw [parseUnits_cons (by decide), if_pos rfl, if_neg h]
  rw [hnone] at hbody
  simpa [stringify, parseString] using hbody

/-! ### The shortest literal -/

/-- How long a unit is as `stringify` writes it, at most. -/
def unitCost : Char ⊕ Nat → Nat
  | .inl c => (escape c).length
  | .inr _ => 6

theorem length_escape_joinUnits (us : List (Char ⊕ Nat)) :
    ((joinUnits us).flatMap escape).length ≤ (us.map unitCost).sum := by
  induction us using joinUnits.induct with
  | case1 => exact le_refl _
  | case2 c us ih =>
    rw [joinUnits, flatMap_cons, length_append, map_cons, sum_cons]
    exact Nat.add_le_add_left ih _
  | case3 high low us h ih =>
    rw [joinUnits, if_pos h, flatMap_cons, length_append]
    have hle := (length_escape_le (Char.ofNat (0x10000 + (high - 0xd800) * 0x400 + (low - 0xdc00)))).2
    simp only [map_cons, sum_cons, unitCost]
    omega
  | case4 high low us h ih =>
    rw [joinUnits, if_neg h, flatMap_cons, length_append]
    have hle := (length_escape_le (unitChar high)).2
    simp only [map_cons, sum_cons, unitCost] at ih ⊢
    omega
  | case5 n us hus ih =>
    have hjoin : joinUnits (.inr n :: us) = unitChar n :: joinUnits us := by
      rw [joinUnits]
      exact hus
    rw [hjoin, flatMap_cons, length_append]
    have hle := (length_escape_le (unitChar n)).2
    simp only [map_cons, sum_cons, unitCost]
    omega

theorem parseUnits_cost (s : Str) :
    ∀ us, parseUnits s = some us → (us.map unitCost).sum + 1 ≤ s.length := by
  -- each escape is at least as long as what it stands for
  have hcons : ∀ {u : Char ⊕ Nat} {s : Str} {k : Nat} {us : List (Char ⊕ Nat)},
      (∀ us, parseUnits s = some us → (us.map unitCost).sum + 1 ≤ s.length) → unitCost u ≤ k →
      (parseUnits s).map (u :: ·) = some us → (us.map unitCost).sum + 1 ≤ s.length + k := by
    intro u s k us ih hcost h
    obtain ⟨us', hus', rfl⟩ := Option.map_eq_some_iff.mp h
    have hle := ih us' hus'
    simp only [map_cons, sum_cons]
    omega
  have hshort : ∀ e c, shortEscape e = some c → unitCost (.inl c) ≤ 2 := by
    intro e c h
    unfold shortEscape at h
    split at h <;> cases h <;> decide
  have hplain : ∀ c, ¬ (c = '"' ∨ c = '\\' ∨ c.toNat < 0x20) → unitCost (.inl c) ≤ 1 := by
    intro c h
    rw [unitCost, escape_of_isPlain ((isPlain_iff c).mpr h)]
    rfl
  fun_induction parseUnits s with
  | case1 | case3 | case5 | case7 | case8 =>
    intro us h
    cases h
  | case2 a b c d s n rest hrest hhex ih =>
    intro us h
    cases h
    have hle := ih rest hrest
    simp only [map_cons, sum_cons, unitCost, length_cons]
    omega
  | case4 e s _ c hc ih =>
    intro us h
    have hle := hcons ih (hshort e c hc) h
    simpa using hle
  | case6 =>
    intro us h
    cases h
    decide
  | case9 c s _ _ hquote hrest ih => exact fun us h => hcons ih (hplain c (not_or.mpr ⟨hquote, hrest⟩)) h

theorem length_stringify_le (h : parseString literal = some v) :
    (stringify v).length ≤ literal.length := by
  unfold parseString at h
  split at h
  · obtain ⟨us, hus, rfl⟩ := Option.map_eq_some_iff.mp h
    have hcost := parseUnits_cost _ us hus
    have hjoin := length_escape_joinUnits us
    simp only [stringify, length_cons, length_append, length_nil]
    omega
  · cases h

/-! ### Texts that need no escapes -/

theorem flatMap_escape_eq_self_iff (s : Str) :
    s.flatMap escape = s ↔ ∀ c ∈ s, isPlain c = true := by
  have hpos : ∀ c, 0 < (escape c).length := fun c => (length_escape_le c).1
  have hlen : ∀ s : Str, s.length ≤ (s.flatMap escape).length := by
    intro s
    induction s with
    | nil => exact le_refl _
    | cons c s ih =>
      have := hpos c
      rw [flatMap_cons, length_append, length_cons]
      omega
  induction s with
  | nil => simp
  | cons c s ih =>
    rw [forall_mem_cons, ← escape_eq_self_iff, flatMap_cons]
    constructor
    · intro h
      have hone : (escape c).length = 1 := by
        have hlength := congrArg length h
        rw [length_append, length_cons] at hlength
        have := hlen s
        have := hpos c
        omega
      obtain ⟨d, hd⟩ := length_eq_one_iff.mp hone
      rw [hd, singleton_append, cons.injEq] at h
      exact ⟨by rw [hd, h.1], ih.mp h.2⟩
    · rintro ⟨hc, hs⟩
      rw [hc, ih.mpr hs]
      rfl

theorem not_quote_of_mem_escape (h : ∀ c ∈ s, c ≠ '"') : ∀ c ∈ s.flatMap escape, c ≠ '"' := by
  intro e he
  obtain ⟨c, hc, hmem⟩ := mem_flatMap.mp he
  by_cases hplain : isPlain c = true
  · rw [(escape_eq_self_iff c).mpr hplain, mem_singleton] at hmem
    rw [hmem]
    exact h c hc
  have hin := mem_escape (Bool.eq_false_iff.mpr hplain) (h c hc) hmem
  rintro rfl
  exact absurd hin (by decide)

/-! ## Texts with a common beginning -/

/-- One of the texts is the beginning of the other. -/
def Comparable (a b : Str) : Prop := a <+: b ∨ b <+: a

theorem Comparable.of_prefix (ha : a <+: s) (hb : b <+: s) : Comparable a b :=
  prefix_or_prefix_of_prefix ha hb

theorem comparable_append_iff (p a b : Str) : Comparable (p ++ a) (p ++ b) ↔ Comparable a b := by
  rw [Comparable, Comparable, prefix_append_right_inj, prefix_append_right_inj]

theorem comparable_cons_iff (c d : Char) (a b : Str) :
    Comparable (c :: a) (d :: b) ↔ c = d ∧ Comparable a b := by
  rw [Comparable, Comparable, cons_prefix_cons, cons_prefix_cons, eq_comm (a := d), ← and_or_left]

theorem Comparable.of_append (h : Comparable (a ++ x) (b ++ y)) : Comparable a b := by
  rcases h with h | h
  · exact of_prefix ((prefix_append a x).trans h) (prefix_append b y)
  · exact of_prefix (prefix_append a x) ((prefix_append b y).trans h)

variable {p : Char → Bool}

theorem eq_of_comparable_stopped {d : Char} (ha : ∀ e ∈ a, p e = true)
    (hb : ∀ e ∈ b, p e = true) (hc : p c = false) (hd : p d = false)
    (h : Comparable (a ++ c :: x) (b ++ d :: y)) : a = b := by
  induction a generalizing b with
  | nil =>
    cases b with
    | nil => rfl
    | cons e b =>
      rw [nil_append, cons_append, comparable_cons_iff] at h
      rw [h.1, hb e mem_cons_self] at hc
      cases hc
  | cons e a ih =>
    cases b with
    | nil =>
      rw [nil_append, cons_append, comparable_cons_iff] at h
      rw [← h.1, ha e mem_cons_self] at hd
      cases hd
    | cons f b =>
      rw [cons_append, cons_append, comparable_cons_iff] at h
      rw [h.1, ih (fun e he => ha e (mem_cons_of_mem _ he)) (fun e he => hb e (mem_cons_of_mem _ he)) h.2]

theorem eq_stringify_of_comparable (hparse : parseString literal = some v)
    (h : Comparable literal (stringify v)) : literal = stringify v := by
  have hle := length_stringify_le hparse
  rcases h with hpre | ⟨extra, rfl⟩
  · exact hpre.eq_of_length_le hle
  by_cases hextra : extra = []
  · rw [hextra, append_nil]
  · rw [parseString_stringify_append hextra] at hparse
    cases hparse

/-! ## Pieces of regular expressions -/

/-- A fixed text; what follows it. -/
def expect : Str → Str → Option Str
  | [], s => some s
  | _ :: _, [] => none
  | c :: cs, d :: s => if c = d then expect cs s else none

/-- The longest run of characters of a class, not empty, and what follows it. -/
def run (p : Char → Bool) (s : Str) : Option (Str × Str) :=
  if s.takeWhile p = [] then none else some (s.takeWhile p, s.dropWhile p)

/-- A quoted text, not empty and without quotes, and what follows it. -/
def quoted (s : Str) : Option (Str × Str) :=
  match expect ['"'] s with
  | none => none
  | some s =>
    match run (fun c => decide (c ≠ '"')) s with
    | none => none
    | some (text, s) => (expect ['"'] s).map fun s => (text, s)

@[simp] theorem expect_append (cs s : Str) : expect cs (cs ++ s) = some s := by
  induction cs with
  | nil => rfl
  | cons c cs ih => simp [expect, ih]

theorem expect_eq_some {cs : Str} (h : expect cs s = some rest) : s = cs ++ rest := by
  induction cs generalizing s with
  | nil =>
    cases h
    rfl
  | cons c cs ih =>
    rcases s with _ | ⟨d, s⟩
    · cases h
    simp only [expect] at h
    split at h
    · rename_i hcd
      rw [hcd, ih h]
      rfl
    · cases h

theorem takeWhile_append_of_stop (hl : ∀ c ∈ l, p c = true)
    (hs : ∀ c ∈ s.head?, p c = false) : (l ++ s).takeWhile p = l ∧ (l ++ s).dropWhile p = s := by
  have hstop : s.takeWhile p = [] ∧ s.dropWhile p = s := by
    cases s with
    | nil => exact ⟨rfl, rfl⟩
    | cons c s =>
      have hc := hs c (by simp)
      exact ⟨takeWhile_cons_of_neg (by simp [hc]), dropWhile_cons_of_neg (by simp [hc])⟩
  rw [takeWhile_append_of_pos hl, dropWhile_append_of_pos hl, hstop.1, hstop.2, append_nil]
  exact ⟨rfl, rfl⟩

theorem run_append (hne : l ≠ []) (hl : ∀ c ∈ l, p c = true)
    (hs : ∀ c ∈ s.head?, p c = false) : run p (l ++ s) = some (l, s) := by
  obtain ⟨htake, hdrop⟩ := takeWhile_append_of_stop hl hs
  rw [run, htake, hdrop, if_neg hne]

theorem run_eq_some (h : run p s = some (l, rest)) :
    s = l ++ rest ∧ l ≠ [] ∧ (∀ c ∈ l, p c = true) ∧ ∀ c ∈ rest.head?, p c = false := by
  unfold run at h
  split at h
  · cases h
  rename_i hne
  obtain ⟨rfl, rfl⟩ := h
  refine ⟨takeWhile_append_dropWhile.symm, hne, fun c hc => mem_takeWhile_imp hc, fun c hc => ?_⟩
  have hhead := head?_dropWhile_not p s
  rw [hc] at hhead
  simpa using hhead

theorem quoted_append (hne : text ≠ []) (htext : ∀ c ∈ text, c ≠ '"') :
    quoted ('"' :: (text ++ '"' :: s)) = some (text, s) := by
  have hrun : run (fun c => decide (c ≠ '"')) (text ++ '"' :: s) = some (text, '"' :: s) :=
    run_append hne (fun c hc => by simpa using htext c hc) (by simp)
  simp only [quoted, expect, if_true, hrun]
  rfl

theorem quoted_eq_some (h : quoted s = some (text, rest)) :
    s = '"' :: (text ++ '"' :: rest) ∧ text ≠ [] ∧ ∀ c ∈ text, c ≠ '"' := by
  unfold quoted at h
  split at h
  · cases h
  rename_i s₁ hopen
  split at h
  · cases h
  rename_i text' s₂ hrun
  obtain ⟨s₃, hclose, heq⟩ := Option.map_eq_some_iff.mp h
  cases heq
  obtain ⟨hs₁, hne, htext, _⟩ := run_eq_some hrun
  refine ⟨?_, hne, fun c hc => by simpa using htext c hc⟩
  rw [expect_eq_some hopen, hs₁, expect_eq_some hclose]
  rfl

end NewApi.Js
