import NewApi.Relay.GroupRetry

/-!
# The retry loop (`controller/relay.go`)

`Distribute` finds the first channel of a request. The loop of `Relay` uses it, and selects another
one after each error that is retried. Where a selection starts is kept under `auto_group_index`.

* `relayGroups` — the groups of the upstream attempts of a request, whatever channels and errors it
  meets.
* `remaining` — the attempts a state of the loop leaves, which each selection lowers
  (`select_spec`).
-/

namespace NewApi.Relay

/-- What a request brings to the selection of its channels. -/
structure RelayRequest where
  tokenGroup : String
  userGroup : String
  crossGroupRetry : Bool
  /-- The token names a channel. -/
  specificChannel : Bool
  /-- The groups the channel preferred by affinity, if there is one, serves the model in. -/
  preferred : Option (String → Bool)
  /-- An image request has a `ChannelMeta` before the loop. -/
  isImage : Bool

/-- What one round of the loop meets. -/
structure Round where
  pick : Pick
  /-- `SetupContextForSelectedChannel` finds a key. -/
  setupOk : Bool
  /-- `GetBodyStorage` gives the body. -/
  bodyOk : Bool
  /-- `shouldRetry` on the handler's error, by the retries left; false without an error. -/
  shouldRetry : Int → Bool

/-- The index a selection starts at. -/
def Progress.index (p : Progress) : Nat := p.autoGroupIndex.getD 0

/-- The index of the group just selected: a group whose retries are used up has left its
successor's. -/
def Progress.usedIndex (p : Progress) : Nat := if p.resetNextTry then p.index - 1 else p.index

section Loop

variable (q : SelectSetting) (r : RelayRequest)

/-- A selection; the automatic group it used comes with the new state. -/
def select (pick : Pick) (p : Progress) : Option (Option Nat × Progress) :=
  match cacheGetRandomSatisfiedChannel q r.tokenGroup r.userGroup r.crossGroupRetry pick p with
  | (.ok (some _), p) => some (if r.tokenGroup = "auto" then some p.usedIndex else none, p)
  | _ => none

/-- The group `Distribute` uses the preferred channel in. -/
def preferredGroup : Option (Option Nat) :=
  r.preferred.bind fun enabledFor =>
    if r.tokenGroup = "auto" then ((q.getUserAutoGroup r.userGroup).findIdx? enabledFor).map some
    else if enabledFor r.tokenGroup then some none else none

/-- `Distribute`. The preferred channel's group is stored, its index is not. -/
def firstChannel (pick : Pick) : Option (Option Nat × Progress) :=
  if r.specificChannel then some (none, .start)
  else
    match preferredGroup q r with
    | some group => some (group, .start)
    | none => select q r pick .start

/-- The rounds of `Relay`: the groups of the attempts, `none` when more rounds are needed. `first`
    is the group of the channel that is used without a selection. -/
def relayRounds : Nat → (Nat → Round) → Option (Option Nat) → Progress → Option (List (Option Nat))
  | 0, _, _, _ => none
  | fuel + 1, rounds, first, p =>
    if q.retryTimes < p.retry then some []
    else
      let a := rounds 0
      let channel := match first with
        | some group => some (group, p)
        | none => (select q r a.pick p).filter fun _ => a.setupOk
      match channel with
      | none => some []
      | some (group, p) =>
        if !a.bodyOk then some []
        else if a.shouldRetry (q.retryTimes - p.retry) then
          (relayRounds fuel (fun k => rounds (k + 1)) none p.increaseRetry).map (group :: ·)
        else some [group]

/-- The automatic groups of the upstream attempts of a request. -/
def relayGroups (pick : Pick) (rounds : Nat → Round) (fuel : Nat) : Option (List (Option Nat)) :=
  match firstChannel q r pick with
  | none => some []
  | some (group, p) =>
    relayRounds q r fuel rounds (if r.isImage then none else some group)
      { p with retry := 0, resetNextTry := false }

def maxAttempts : Nat := (q.retryTimes + 1) * max 1 (q.getUserAutoGroup r.userGroup).length

/-! ## The attempts that remain -/

/-- The attempts a state of the loop leaves. -/
def remaining (p : Progress) : Nat :=
  ((if r.tokenGroup = "auto" then (q.getUserAutoGroup r.userGroup).length else 1) - p.index) * (q.retryTimes + 1) -
    p.retry

end Loop

open Progress List

variable {q : SelectSetting} {r : RelayRequest} {pick : Pick} {p p' : Progress} {group : Option Nat}

theorem Progress.index_increaseRetry (p : Progress) : p.increaseRetry.index = p.index := by
  unfold increaseRetry
  split <;> rfl

theorem Progress.increaseRetry_eq (h : p.resetNextTry = false) :
    p.increaseRetry = { p with retry := p.retry + 1 } :=
  if_neg (by rw [h]; exact Bool.false_ne_true)

theorem Progress.usedIndex_le (p : Progress) : p.usedIndex ≤ p.index := by
  unfold usedIndex
  split <;> omega

theorem selectFrom_spec {cross : Bool} {R start i n : Nat} {groups : List String}
    {found : Int × String} (h : selectFrom pick cross R start i groups p = (some found, p'))
    (hn : groups.length = n - i) (hretry : p.retry ≤ R)
    (hmoved : start < i → p.retry = 0) (hreset : p.resetNextTry = false) :
    i ≤ p'.usedIndex ∧ p'.increaseRetry.resetNextTry = false ∧
      (n - p'.index) * (R + 1) - p'.increaseRetry.retry < groups.length * (R + 1) - p.retry := by
  induction groups generalizing i p with
  | nil => cases h
  | cons autoGroup rest ih =>
    have hprio : (if start < i then 0 else p.retry) = p.retry :=
      ite_eq_right_iff.2 fun hlt => (hmoved hlt).symm
    rw [length_cons] at hn
    have hmul := Nat.add_one_mul rest.length (R + 1)
    unfold selectFrom at h
    simp only [hprio] at h
    rw [length_cons]
    split at h
    · obtain ⟨hle, hflag, hless⟩ := ih h (by omega) (Nat.zero_le R) (fun _ => rfl) hreset
      exact ⟨by omega, hflag, by rw [Nat.sub_zero] at hless; omega⟩
    split at h <;> cases h
    · refine ⟨Nat.le_refl i, rfl, ?_⟩
      show (n - (i + 1)) * (R + 1) - 0 < _
      rw [← Nat.sub_sub, ← hn, Nat.add_sub_cancel]
      omega
    · simp only [usedIndex, index, increaseRetry, hreset, Option.getD_some, ← hn,
        Bool.false_eq_true, if_false]
      exact ⟨Nat.le_refl i, trivial, by omega⟩

/-- No reset is pending, and only the group `auto` has an index. -/
def RelayRequest.Settled (r : RelayRequest) (p : Progress) : Prop :=
  p.resetNextTry = false ∧ (r.tokenGroup ≠ "auto" → p.index = 0)

theorem select_spec (h : select q r pick p = some (group, p')) (hretry : p.retry ≤ q.retryTimes)
    (hp : r.Settled p) : p.index ≤ p'.index ∧ (∀ i ∈ group, p.index ≤ i ∧ i ≤ p'.index) ∧
      r.Settled p'.increaseRetry ∧ remaining q r p'.increaseRetry < remaining q r p := by
  obtain ⟨hreset, hplain⟩ := hp
  unfold select at h
  split at h
  case h_2 => cases h
  rename_i hsel
  cases h
  unfold cacheGetRandomSatisfiedChannel at hsel
  simp only [RelayRequest.Settled, remaining, index_increaseRetry]
  by_cases hauto : r.tokenGroup = "auto"
  · simp only [if_pos hauto] at hsel ⊢
    split at hsel
    · cases hsel
    obtain ⟨hfound, rfl⟩ := Prod.mk.inj hsel
    obtain ⟨hle, hflag, hless⟩ :=
      selectFrom_spec (Prod.ext (Except.ok.inj hfound) rfl) length_drop hretry
      (fun hlt => absurd hlt (Nat.lt_irrefl _)) hreset
    rw [length_drop] at hless
    refine ⟨hle.trans (usedIndex_le _), fun i hi => ?_, ⟨hflag, fun hne => absurd hauto hne⟩, hless⟩
    cases hi
    exact ⟨hle, usedIndex_le _⟩
  · simp only [if_neg hauto] at hsel ⊢
    split at hsel
    · cases hsel
    obtain ⟨-, rfl⟩ := Prod.mk.inj hsel
    simp only [increaseRetry_eq hreset, hplain hauto, Nat.sub_zero, Nat.one_mul]
    exact ⟨Nat.le_refl 0, fun i hi => (by cases hi), ⟨hreset, fun _ => trivial⟩, by omega⟩

theorem pairwise_reduceOption_cons {a b : Nat} {groups : List (Option Nat)} (hab : a ≤ b)
    (hgroup : ∀ i ∈ group, a ≤ i ∧ i ≤ b) (h : (b :: groups.reduceOption).Pairwise (· ≤ ·)) :
    (a :: (group :: groups).reduceOption).Pairwise (· ≤ ·) := by
  obtain ⟨hfrom, hsorted⟩ := pairwise_cons.1 h
  rcases group with _ | i
  · exact .cons (fun i hi => hab.trans (hfrom i hi)) hsorted
  obtain ⟨hai, hib⟩ := hgroup i rfl
  refine .cons (fun j hj => ?_) (.cons (fun j hj => hib.trans (hfrom j hj)) hsorted)
  obtain rfl | hj := mem_cons.1 hj
  · exact hai
  · exact hab.trans (hfrom j hj)

theorem relayRounds_spec (fuel : Nat)
    (rounds : Nat → Round) (p : Progress) (hfuel : remaining q r p < fuel)
    (hp : r.Settled p) : ∃ groups, relayRounds q r fuel rounds none p = some groups ∧
      groups.length ≤ remaining q r p ∧ (p.index :: groups.reduceOption).Pairwise (· ≤ ·) := by
  induction fuel generalizing rounds p with
  | zero => cases hfuel
  | succ fuel ih =>
    unfold relayRounds
    split
    · exact ⟨[], rfl, Nat.zero_le _, pairwise_singleton _ _⟩
    rename_i hretry
    simp only
    split
    · exact ⟨[], rfl, Nat.zero_le _, pairwise_singleton _ _⟩
    rename_i group p' hchannel
    obtain ⟨hsel, -⟩ := Option.filter_eq_some_iff.1 hchannel
    obtain ⟨hle, hused, hp', hless⟩ := select_spec hsel (Nat.not_lt.1 hretry) hp
    split
    · exact ⟨[], rfl, Nat.zero_le _, pairwise_singleton _ _⟩
    split
    · obtain ⟨groups, hrun, hlen, hsorted⟩ :=
        ih (fun k => rounds (k + 1)) p'.increaseRetry (by omega) hp'
      rw [index_increaseRetry] at hsorted
      exact ⟨group :: groups, by rw [hrun]; rfl, by rw [length_cons]; omega,
        pairwise_reduceOption_cons hle hused hsorted⟩
    · exact ⟨[group], rfl, by rw [length_singleton]; omega,
        pairwise_reduceOption_cons hle hused (pairwise_singleton _ _)⟩

theorem remaining_le (q : SelectSetting) (r : RelayRequest) (p : Progress) :
    remaining q r p ≤ maxAttempts q r - p.retry := by
  unfold remaining maxAttempts
  rw [Nat.mul_comm]
  refine Nat.sub_le_sub_right (Nat.mul_le_mul_left _ ((Nat.sub_le _ _).trans ?_)) _
  split <;> omega

theorem relayRounds_first (rounds : Nat → Round) (group : Option Nat) (hretry : p.retry = 0) (hp : r.Settled p) :
    ∃ groups, relayRounds q r (maxAttempts q r + 1) rounds (some group) p = some groups ∧
      groups.length ≤ maxAttempts q r ∧
      ((∀ i ∈ group, i ≤ p.index) → groups.reduceOption.Pairwise (· ≤ ·)) := by
  have hpos : 0 < maxAttempts q r := Nat.mul_pos (Nat.succ_pos _) (by omega)
  have hcons {groups : List (Option Nat)} (h : (p.index :: groups.reduceOption).Pairwise (· ≤ ·))
      (hgroup : ∀ i ∈ group, i ≤ p.index) : (group :: groups).reduceOption.Pairwise (· ≤ ·) :=
    (pairwise_reduceOption_cons (Nat.zero_le _) (fun i hi => ⟨Nat.zero_le i, hgroup i hi⟩) h).of_cons
  unfold relayRounds
  rw [if_neg (by omega)]
  simp only
  split
  · exact ⟨[], rfl, Nat.zero_le _, fun _ => .nil⟩
  split
  · have hnext := increaseRetry_eq hp.1
    have hleft := remaining_le q r p.increaseRetry
    have hone : p.increaseRetry.retry = 1 := by rw [hnext, hretry]
    obtain ⟨groups, hrun, hlen, hsorted⟩ := relayRounds_spec (q := q) (r := r) (maxAttempts q r)
      (fun k => rounds (k + 1)) p.increaseRetry (by omega) (by rw [hnext]; exact hp)
    rw [index_increaseRetry] at hsorted
    exact ⟨group :: groups, by rw [hrun]; rfl, by rw [length_cons]; omega, hcons hsorted⟩
  · exact ⟨[group], rfl, hpos, hcons (pairwise_singleton _ _)⟩

theorem firstChannel_spec (h : firstChannel q r pick = some (group, p)) : (r.tokenGroup ≠ "auto" → p.index = 0) ∧
    ∀ i ∈ group, i ≤ p.index ∨ r.specificChannel = false ∧ preferredGroup q r = some group := by
  unfold firstChannel at h
  split at h
  · cases h
    exact ⟨fun _ => rfl, fun i hi => (by cases hi)⟩
  rename_i hspecific
  split at h
  · cases h
    exact ⟨fun _ => rfl, fun i _ => .inr ⟨Bool.eq_false_of_not_eq_true hspecific, ‹_›⟩⟩
  obtain ⟨-, hused, ⟨-, hplain⟩, -⟩ := select_spec h (Nat.zero_le _) ⟨rfl, fun _ => rfl⟩
  rw [index_increaseRetry] at hplain
  exact ⟨hplain, fun i hi => .inl (hused i hi).2⟩

/-- The loop stops within the attempts allowed; its groups never go back, except from a preferred
first channel's. -/
theorem relay_loop_ordered (q : SelectSetting) (r : RelayRequest) (pick : Pick)
    (rounds : Nat → Round) :
    ∃ groups, relayGroups q r pick rounds (maxAttempts q r + 1) = some groups ∧
      groups.length ≤ maxAttempts q r ∧
      ((∀ i, preferredGroup q r = some (some i) → i = 0 ∨ r.specificChannel = true ∨ r.isImage = true) →
        groups.reduceOption.Pairwise (· ≤ ·)) := by
  unfold relayGroups
  split
  · exact ⟨[], rfl, Nat.zero_le _, fun _ => .nil⟩
  rename_i group p hfirst
  obtain ⟨hplain, hgroup⟩ := firstChannel_spec hfirst
  have hp : r.Settled { p with retry := 0, resetNextTry := false } := ⟨rfl, hplain⟩
  split
  · have hleft := remaining_le q r { p with retry := 0, resetNextTry := false }
    obtain ⟨groups, hrun, hlen, hsorted⟩ :=
      relayRounds_spec (q := q) (maxAttempts q r + 1) rounds _ (by omega) hp
    exact ⟨groups, hrun, by omega, fun _ => hsorted.of_cons⟩
  rename_i himage
  obtain ⟨groups, hrun, hlen, hsorted⟩ := relayRounds_first (q := q) rounds group rfl hp
  refine ⟨groups, hrun, hlen, fun hcond => hsorted fun i hi => ?_⟩
  obtain hle | ⟨hspecific, hpref⟩ := hgroup i hi
  · exact hle
  have hzero : i = 0 := by simpa [hspecific, himage] using hcond i (by rw [hpref, hi])
  rw [hzero]
  exact Nat.zero_le _

/-- A channel of the second group is preferred. -/
def affine : RelayRequest := ⟨"auto", "default", true, false, some (· == "premium"), false⟩

/-- Every group has a channel, and errors are retried while retries are left. -/
def failing (_ : Nat) : Round := ⟨fun _ _ => .ok (some 1), true, true, (0 < ·)⟩

/-- A channel of the first group is preferred: the attempts leave its group and do not return. -/
theorem groups_not_left_twice :
    let r : RelayRequest := ⟨"auto", "default", true, false, some (· == "basic"), false⟩
    ∃ groups, relayGroups twoGroups r (failing 0).pick failing (maxAttempts twoGroups r + 1) =
      some groups ∧ some 0 ∈ groups ∧ some 1 ∈ groups ∧ groups.reduceOption.Pairwise (· ≤ ·) := by
  intro r
  obtain ⟨groups, hrun, -, hsorted⟩ := relay_loop_ordered twoGroups r (failing 0).pick failing
  have hgroups : groups = [some 0, some 0, some 1, some 1] := by
    refine Option.some.inj (hrun.symm.trans ?_)
    decide
  refine ⟨groups, hrun, by simp [hgroups], by simp [hgroups], hsorted fun i hi => .inl ?_⟩
  have hfirst : preferredGroup twoGroups r = some (some 0) := by decide
  rw [hfirst] at hi
  cases hi
  rfl

theorem affinity_goes_back : ∃ groups,
    relayGroups twoGroups affine (failing 0).pick failing (maxAttempts twoGroups affine + 1) = some groups ∧
      ¬ groups.reduceOption.Pairwise (· ≤ ·) :=
  ⟨[some 1, some 0, some 1, some 1], by decide, by decide⟩

end NewApi.Relay
