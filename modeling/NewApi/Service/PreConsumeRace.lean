import NewApi.Service.BillingFactory

/-!
# Concurrent wallet sessions (`tryWallet` and `preConsume` of `service/billing_session.go`)

The wallet path of `NewBillingSession`, one statement at a time: the quota is read and checked, the
token is read and checked, the token is charged, the wallet is charged. The two charges are
unconditional.

* `next_alone` — the steps of a call taken back to back are `tryWallet`.
* `Race`, `Race.step` — any number of calls in any interleaving.
-/

namespace NewApi.Billing

open NewApi.Subscription Function

/-! ## One call, step by step -/

/-- Calls of the wallet path for one user and one token. -/
structure Callers (n : Nat) (userId tokenId : Int) where
  info : Fin n → RelayInfo
  quota : Fin n → Int
  env : Fin n → Env
  user : ∀ p, (info p).userId = userId
  token : ∀ p, (info p).tokenId = tokenId

/-- What a read answers: an error, the balance itself, or another value, which a cache holds or a
row that batched updates have not reached. -/
def heard (answer : Except String (Option Int)) (balance : Int) : Except String Int :=
  match answer with
  | .error err => .error err
  | .ok none => .ok balance
  | .ok (some v) => .ok v

/-- The outside of a call with its two reads. -/
def Env.answering (e : Env) (userRead tokenRead : Except String Int) : Env :=
  { e with userRead := userRead, tokenRead := tokenRead }

inductive Move where
  | readQuota (answer : Except String (Option Int))
  | readToken (answer : Except String (Option Int))
  | chargeToken
  | chargeWallet
  | rollback

inductive CallPhase where
  | start
  /-- The wallet check has passed. -/
  | admitted (userQuota : Int)
  /-- The token check has passed. -/
  | tokenChecked (userQuota remain : Int)
  /-- The token is charged, or need not be. -/
  | charged (userQuota tokenConsumed : Int)
  /-- The wallet could not be charged. -/
  | failed (tokenConsumed : Int) (err : String)
  | done (r : Except NewAPIError BillingSession)

namespace Callers

variable {n : Nat} {userId tokenId : Int} (c : Callers n userId tokenId) (p : Fin n)

def session (userQuota : Int) : BillingSession :=
  .fresh { c.info p with userQuota := userQuota } (.wallet ⟨(c.info p).userId, 0⟩)

/-- The amount to pre-consume: nothing for a trusted user. -/
def effectiveQuota (userQuota : Int) : Int :=
  if (c.session p userQuota).shouldTrust (c.env p) then 0 else c.quota p

def chargesToken (userQuota : Int) : Bool :=
  decide (0 < c.effectiveQuota p userQuota) && !(c.info p).tokenUnlimited

def checkQuota : Except String Int → CallPhase
  | .error err => .done (.error (newError err .queryDataError))
  | .ok userQuota =>
    if userQuota ≤ 0 then
      .done (.error (newForbidden ("用户额度不足, 剩余额度: " ++ (c.env p).formatQuota userQuota) .insufficientUserQuota))
    else if userQuota - c.quota p < 0 then
      .done (.error (newForbidden ("预扣费额度失败, 用户剩余额度: " ++ (c.env p).formatQuota userQuota ++
        ", 需要预扣费额度: " ++ (c.env p).formatQuota (c.quota p)) .insufficientUserQuota))
    else .admitted userQuota

def checkToken (userQuota : Int) (tokenRead : Except String Int) : CallPhase :=
  let effectiveQuota := c.effectiveQuota p userQuota
  if c.chargesToken p userQuota then
    if (c.info p).isPlayground then .charged userQuota effectiveQuota
    else
      match tokenRead with
      | .error err => .done (.error (newForbidden err .preConsumeTokenQuotaFailed))
      | .ok remain =>
        if remain < effectiveQuota then
          .done (.error (newForbidden ("token quota is not enough, token remain quota: " ++
            (c.env p).formatQuota remain ++ ", need quota: " ++ (c.env p).formatQuota effectiveQuota)
            .preConsumeTokenQuotaFailed))
        else .tokenChecked userQuota remain
  else .charged userQuota 0

def chargeToken (l : Ledger) (userQuota : Int) : Ledger × CallPhase :=
  match decreaseTokenQuota ((c.env p).fault .tokenWrite) l (c.info p).tokenId (c.effectiveQuota p userQuota) with
  | (l, .error err) => (l, .done (.error (newForbidden err .preConsumeTokenQuotaFailed)))
  | (l, .ok ()) => (l, .charged userQuota (c.effectiveQuota p userQuota))

def chargeWallet (l : Ledger) (userQuota tokenConsumed : Int) : Ledger × CallPhase :=
  match WalletFunding.preConsume (c.env p) l ⟨(c.info p).userId, 0⟩ (c.effectiveQuota p userQuota) with
  | (l, .error err) => (l, .failed tokenConsumed err)
  | (l, .ok w) =>
    (l, .done (.ok ({ c.session p userQuota with
      trusted := (c.session p userQuota).shouldTrust (c.env p)
      tokenConsumed := tokenConsumed
      funding := .wallet w
      preConsumedQuota := c.effectiveQuota p userQuota }).syncRelayInfo))

def rollback (l : Ledger) (tokenConsumed : Int) : Ledger :=
  if 0 < tokenConsumed ∧ (c.info p).isPlayground = false then
    (increaseTokenQuota ((c.env p).fault .tokenRollback) l (c.info p).tokenId tokenConsumed).1
  else l

/-- A move that the phase does not allow changes nothing. -/
def next (x : Ledger × CallPhase) (m : Move) : Ledger × CallPhase :=
  match x.2, m with
  | .start, .readQuota answer => (x.1, c.checkQuota p (heard answer (x.1.userQuota (c.info p).userId)))
  | .admitted userQuota, .readToken answer =>
    (x.1, c.checkToken p userQuota (heard answer (x.1.tokenRemain (c.info p).tokenId)))
  | .tokenChecked userQuota _, .chargeToken => c.chargeToken p x.1 userQuota
  | .charged userQuota tokenConsumed, .chargeWallet => c.chargeWallet p x.1 userQuota tokenConsumed
  | .failed tokenConsumed err, .rollback => (c.rollback p x.1 tokenConsumed, .done (.error (fundingError err)))
  | _, _ => x

/-! ## A call by itself -/

/-- The token's part of `preConsume`. -/
def tokenPart (userQuota : Int) (userRead tokenRead : Except String Int) (l : Ledger) :
    Ledger × Except String Unit :=
  if c.chargesToken p userQuota then
    preConsumeTokenQuota ((c.env p).answering userRead tokenRead) l (c.session p userQuota).relayInfo
      (c.effectiveQuota p userQuota)
  else (l, .ok ())

def tokenConsumed (userQuota : Int) : Int :=
  if c.chargesToken p userQuota then c.effectiveQuota p userQuota else 0

/-- The wallet's part, from the ledger that the token's part has left. -/
def walletPart (userQuota : Int) (l : Ledger) : Ledger × Except NewAPIError BillingSession :=
  match WalletFunding.preConsume (c.env p) l ⟨(c.info p).userId, 0⟩ (c.effectiveQuota p userQuota) with
  | (l, .error err) => (c.rollback p l (c.tokenConsumed p userQuota), .error (fundingError err))
  | (l, .ok w) =>
    (l, .ok ({ c.session p userQuota with
      trusted := (c.session p userQuota).shouldTrust (c.env p)
      tokenConsumed := c.tokenConsumed p userQuota
      funding := .wallet w
      preConsumedQuota := c.effectiveQuota p userQuota }).syncRelayInfo)

section Alone

variable {c p} {l : Ledger} {userRead tokenRead : Except String Int}

open WalletFunding

theorem preConsume_parts (cal : Calendar) (userQuota : Int) :
    (c.session p userQuota).preConsume cal ((c.env p).answering userRead tokenRead) l (c.quota p) =
      match c.tokenPart p userQuota userRead tokenRead l with
      | (l, .error err) => (l, .error (newForbidden err .preConsumeTokenQuotaFailed))
      | (l, .ok ()) => c.walletPart p userQuota l := by
  change (match c.tokenPart p userQuota userRead tokenRead l with
    | (l, .error err) => _
    | (l, .ok ()) => _) = _
  rcases c.tokenPart p userQuota userRead tokenRead l with ⟨l₁, err | ⟨⟩⟩
  · rfl
  have hfunding : (c.session p userQuota).funding = .wallet ⟨(c.info p).userId, 0⟩ := rfl
  have hwallet : preConsume ((c.env p).answering userRead tokenRead) = preConsume (c.env p) := rfl
  have heff : (if (c.session p userQuota).shouldTrust ((c.env p).answering userRead tokenRead) = true then 0
      else c.quota p) = c.effectiveQuota p userQuota := rfl
  simp only [heff, hfunding, FundingSource.preConsume, hwallet, walletPart]
  rcases preConsume (c.env p) l₁ ⟨(c.info p).userId, 0⟩ (c.effectiveQuota p userQuota) with ⟨l₂,
    err | w⟩
  · rfl
  · rfl

variable (userRead) in
theorem next_tokenPart (userQuota : Int) (answer : Except String (Option Int))
    (hread : heard answer (l.tokenRemain (c.info p).tokenId) = tokenRead) :
    c.next p (c.next p (l, .admitted userQuota) (.readToken answer)) .chargeToken =
      match c.tokenPart p userQuota userRead tokenRead l with
      | (l, .error err) => (l, .done (.error (newForbidden err .preConsumeTokenQuotaFailed)))
      | (l, .ok ()) => (l, .charged userQuota (c.tokenConsumed p userQuota)) := by
  simp only [next, checkToken, hread, tokenPart, tokenConsumed]
  by_cases hcharge : c.chargesToken p userQuota = true
  · obtain ⟨hpos, hlimited⟩ : 0 < c.effectiveQuota p userQuota ∧ (c.info p).tokenUnlimited = false := by
      simpa only [chargesToken, Bool.and_eq_true, decide_eq_true_eq,
        Bool.not_eq_true'] using hcharge
    change (c.session p userQuota).relayInfo.tokenUnlimited = false at hlimited
    have hplay : (c.session p userQuota).relayInfo.isPlayground = (c.info p).isPlayground := rfl
    have hid : (c.session p userQuota).relayInfo.tokenId = (c.info p).tokenId := rfl
    have htoken : ((c.env p).answering userRead tokenRead).tokenRead = tokenRead := rfl
    have hfault : ((c.env p).answering userRead tokenRead).fault = (c.env p).fault := rfl
    simp only [hcharge, if_true, preConsumeTokenQuota, if_neg (not_lt.mpr hpos.le), hlimited, hplay,
      hid, htoken, hfault]
    cases (c.info p).isPlayground with
    | true => rfl
    | false =>
      rcases tokenRead with err | remain
      · rfl
      by_cases hlack : remain < c.effectiveQuota p userQuota
      · simp only [if_pos hlack]
        rfl
      simp only [if_neg hlack]
      change c.chargeToken p l userQuota = _
      rw [chargeToken]
      rcases decreaseTokenQuota ((c.env p).fault .tokenWrite) l (c.info p).tokenId (c.effectiveQuota p userQuota) with
        ⟨l₁, err | ⟨⟩⟩
      · rfl
      · rfl
  · simp only [hcharge]
    rfl

theorem next_admitted (cal : Calendar) (userQuota : Int) (answer : Except String (Option Int))
    (hread : heard answer (l.tokenRemain (c.info p).tokenId) = tokenRead) :
    let r := (c.session p userQuota).preConsume cal ((c.env p).answering userRead tokenRead) l (c.quota p)
    [.readToken answer, .chargeToken, .chargeWallet, .rollback].foldl (c.next p) (l, .admitted userQuota) =
      (r.1, .done r.2) := by
  simp only [List.foldl_cons, List.foldl_nil]
  rw [next_tokenPart userRead userQuota answer hread, preConsume_parts]
  rcases c.tokenPart p userQuota userRead tokenRead l with ⟨l₁, err | ⟨⟩⟩
  · rfl
  simp only [next, chargeWallet, walletPart]
  rcases preConsume (c.env p) l₁ ⟨(c.info p).userId, 0⟩ (c.effectiveQuota p userQuota) with ⟨l₂,
    err | w⟩
  · rfl
  · rfl

/-- **The small steps are the source's function**: without interleaving a call does what `tryWallet`
does. -/
theorem next_alone (c : Callers n userId tokenId) (p : Fin n) (cal : Calendar) (l : Ledger)
    (quotaAnswer tokenAnswer : Except String (Option Int)) :
    let e := (c.env p).answering (heard quotaAnswer (l.userQuota (c.info p).userId))
      (heard tokenAnswer (l.tokenRemain (c.info p).tokenId))
    let r := tryWallet cal e l (c.info p) (c.quota p)
    [.readQuota quotaAnswer, .readToken tokenAnswer, .chargeToken, .chargeWallet, .rollback].foldl (c.next p)
      (l, .start) = (r.1, .done r.2.2) := by
  have hfirst : c.next p (l, .start) (.readQuota quotaAnswer) =
      (l, c.checkQuota p (heard quotaAnswer (l.userQuota (c.info p).userId))) := rfl
  rw [List.foldl_cons, hfirst]
  generalize heard quotaAnswer _ = userRead
  generalize htoken : heard tokenAnswer _ = tokenRead
  intro e r
  have hanswer : e.userRead = userRead := rfl
  have hformat : e.formatQuota = (c.env p).formatQuota := rfl
  unfold r tryWallet
  rw [hanswer, hformat]
  rcases userRead with err | userQuota
  · rfl
  simp only [checkQuota]
  by_cases hnone : userQuota ≤ 0
  · simp only [if_pos hnone]
    rfl
  by_cases hlack : userQuota - c.quota p < 0
  · simp only [if_neg hnone, if_pos hlack]
    rfl
  · simp only [if_neg hnone, if_neg hlack]
    exact next_admitted cal userQuota tokenAnswer htoken

end Alone

end Callers

/-! ## Many calls -/

structure Race (n : Nat) where
  ledger : Ledger
  phase : Fin n → CallPhase

section Races

variable {n : Nat} {userId tokenId : Int} (c : Callers n userId tokenId)

def Race.start (l : Ledger) : Race n := ⟨l, fun _ => .start⟩

def Race.set (s : Race n) (p : Fin n) (x : Ledger × CallPhase) : Race n :=
  ⟨x.1, Function.update s.phase p x.2⟩

def Race.step (s : Race n) (a : Fin n × Move) : Race n :=
  s.set a.1 (c.next a.1 (s.ledger, s.phase a.1) a.2)

def Race.run (s : Race n) (acts : List (Fin n × Move)) : Race n := acts.foldl (Race.step c) s

/-- What an opened session has taken from the wallet. -/
def CallPhase.consumed : CallPhase → Int
  | .done (.ok s) =>
    match s.funding with
    | .wallet w => w.consumed
    | .subscription _ => 0
  | _ => 0

/-- What a call has taken from the token, by its own account. -/
def tokenTaken (info : RelayInfo) (tokenConsumed : Int) : Int :=
  if 0 < tokenConsumed ∧ info.isPlayground = false then tokenConsumed else 0

/-- What an opened session has taken from the token. -/
def CallPhase.tokenPaid (info : RelayInfo) : CallPhase → Int
  | .done (.ok s) => tokenTaken info s.tokenConsumed
  | _ => 0

/-- What the calls have pre-consumed is covered by the balances at the start, and a balance that was
not below zero is not below zero now. -/
structure Within (l : Ledger) (s : Race n) : Prop where
  wallet : ∑ p, (s.phase p).consumed ≤ max (l.userQuota userId) 0
  token : ∑ p, (s.phase p).tokenPaid (c.info p) ≤ max (l.tokenRemain tokenId) 0
  walletNonneg : 0 ≤ l.userQuota userId → 0 ≤ s.ledger.userQuota userId
  tokenNonneg : 0 ≤ l.tokenRemain tokenId → 0 ≤ s.ledger.tokenRemain tokenId

/-- A balance covers what is charged to it; a charge of nothing asks for no balance. -/
def covered (s : Race n) (a : Fin n × Move) : Bool :=
  match a.2, s.phase a.1 with
  | .chargeToken, .tokenChecked userQuota _ =>
    decide (c.effectiveQuota a.1 userQuota ≤ max (s.ledger.tokenRemain tokenId) 0)
  | .chargeWallet, .charged userQuota _ =>
    decide (c.effectiveQuota a.1 userQuota ≤ max (s.ledger.userQuota userId) 0)
  | _, _ => true

/-! ## The invariant -/

/-- What a call may still take from the token or has taken. -/
def CallPhase.tokenHeld (info : RelayInfo) : CallPhase → Int
  | .charged _ tokenConsumed => tokenTaken info tokenConsumed
  | .failed tokenConsumed _ => tokenTaken info tokenConsumed
  | x => x.tokenPaid info

/-- A call that is to charge the token charges it. -/
def CallPhase.Checked (p : Fin n) : CallPhase → Prop
  | .tokenChecked userQuota _ => (c.info p).isPlayground = false ∧ 0 < c.effectiveQuota p userQuota
  | _ => True

structure Solvent (l : Ledger) (s : Race n) : Prop where
  wallet : s.ledger.userQuota userId = l.userQuota userId - ∑ p, (s.phase p).consumed
  walletMin : min (l.userQuota userId) 0 ≤ s.ledger.userQuota userId
  /-- A rollback that fails leaves the token with less. -/
  token : s.ledger.tokenRemain tokenId ≤ l.tokenRemain tokenId - ∑ p, (s.phase p).tokenHeld (c.info p)
  tokenMin : min (l.tokenRemain tokenId) 0 ≤ s.ledger.tokenRemain tokenId
  checked : ∀ p, (s.phase p).Checked c p

variable {c} {l : Ledger} {s : Race n}

open Finset

theorem sum_update (f : Fin n → CallPhase → Int) (phase : Fin n → CallPhase) (p : Fin n) (x : CallPhase) :
    ∑ q, f q (Function.update phase p x q) = ∑ q, f q (phase q) - f p (phase p) + f p x := by
  have hrest : ∑ q ∈ univ.erase p, f q (Function.update phase p x q) =
      ∑ q ∈ univ.erase p, f q (phase q) :=
    sum_congr rfl fun q hq => by rw [update_of_ne (ne_of_mem_erase hq)]
  rw [← add_sum_erase univ _ (mem_univ p), update_self, hrest,
    ← add_sum_erase univ (fun q => f q (phase q)) (mem_univ p)]
  omega

open CallPhase

variable {p : Fin n}

/-! ## Moves -/

open Callers

variable {userQuota : Int}

theorem checkQuota_cases (p : Fin n) (read : Except String Int) :
    (∃ err, c.checkQuota p read = .done (.error err)) ∨
      ∃ userQuota, c.checkQuota p read = .admitted userQuota := by
  rcases read with err | userQuota
  · exact .inl ⟨_, rfl⟩
  simp only [checkQuota]
  split
  · exact .inl ⟨_, rfl⟩
  split
  · exact .inl ⟨_, rfl⟩
  · exact .inr ⟨userQuota, rfl⟩

theorem checkToken_cases (p : Fin n) (userQuota : Int) (read : Except String Int) :
    (∃ err, c.checkToken p userQuota read = .done (.error err)) ∨
    (∃ t, c.checkToken p userQuota read = .charged userQuota t ∧ tokenTaken (c.info p) t = 0) ∨
    ∃ remain, c.checkToken p userQuota read = .tokenChecked userQuota remain ∧
      (c.info p).isPlayground = false ∧ 0 < c.effectiveQuota p userQuota := by
  simp only [checkToken]
  split
  · rename_i hcharge
    split
    · rename_i hplay
      exact .inr (.inl ⟨_, rfl, by simp [tokenTaken, hplay]⟩)
    rename_i hplay
    split
    · exact .inl ⟨_, rfl⟩
    split
    · exact .inl ⟨_, rfl⟩
    rename_i remain _
    simp only [chargesToken, Bool.and_eq_true, decide_eq_true_eq] at hcharge
    exact .inr (.inr ⟨remain, rfl, by simpa using hplay, hcharge.1⟩)
  · exact .inr (.inl ⟨0, rfl, by simp [tokenTaken]⟩)

theorem chargeWallet_cases (p : Fin n) (l₀ : Ledger) (userQuota tokenConsumed : Int) :
    (∃ err, c.chargeWallet p l₀ userQuota tokenConsumed = (l₀, .failed tokenConsumed err)) ∨
    ∃ session : BillingSession, ∃ amount, ∃ l₁,
      c.chargeWallet p l₀ userQuota tokenConsumed = (l₁, .done (.ok session)) ∧
      session.tokenConsumed = tokenConsumed ∧ session.funding = .wallet ⟨userId, amount⟩ ∧
      l₁.userQuota userId = l₀.userQuota userId - amount ∧ l₁.tokenRemain = l₀.tokenRemain ∧
      amount ≤ max (c.effectiveQuota p userQuota) 0 ∧ 0 ≤ amount := by
  unfold chargeWallet
  by_cases hpos : c.effectiveQuota p userQuota ≤ 0
  · rw [WalletFunding.preConsume, if_pos hpos]
    refine .inr ⟨_, 0, l₀, rfl, ?_, ?_, by omega, rfl, by omega, le_rfl⟩
    · exact (syncRelayInfo_fields _).2.2.1
    · rw [(syncRelayInfo_fields _).1, c.user p]
  rcases hw : WalletFunding.preConsume (c.env p) l₀ ⟨(c.info p).userId,
    0⟩ (c.effectiveQuota p userQuota) with ⟨l₁, r⟩
  rcases walletPreConsume_cases (by omega) hw with ⟨hl, err, hr⟩ | ⟨hr, hl⟩
  · subst hl hr
    exact .inl ⟨err, rfl⟩
  subst hl hr
  refine .inr ⟨_, c.effectiveQuota p userQuota, _, rfl, ?_, ?_, ?_, rfl, by omega, by omega⟩
  · exact (syncRelayInfo_fields _).2.2.1
  · rw [(syncRelayInfo_fields _).1, c.user p]
  · simp only [credit_apply, c.user p, if_pos]
    omega

theorem Race.set_self (p : Fin n) : s.set p (s.ledger, s.phase p) = s := by
  simp [Race.set]

section

variable (h : Solvent c l s)

include h

/-- **One call moves**: what leaves a balance is what the call's phase accounts for. -/
theorem Solvent.set {x : Ledger × CallPhase} {y : CallPhase} (hp : s.phase p = y)
    (hwallet : x.1.userQuota userId = s.ledger.userQuota userId + y.consumed - x.2.consumed)
    (hwalletMin : min (l.userQuota userId) 0 ≤ x.1.userQuota userId)
    (htoken : x.1.tokenRemain tokenId ≤
      s.ledger.tokenRemain tokenId + y.tokenHeld (c.info p) - x.2.tokenHeld (c.info p))
    (htokenMin : min (l.tokenRemain tokenId) 0 ≤ x.1.tokenRemain tokenId)
    (hchecked : x.2.Checked c p) : Solvent c l (s.set p x) := by
  subst hp
  refine ⟨?_, hwalletMin, ?_, htokenMin, fun q => ?_⟩
  · have := sum_update (fun _ => consumed) s.phase p x.2
    have := h.wallet
    simp only [Race.set]
    omega
  · have := sum_update (fun q => tokenHeld (c.info q)) s.phase p x.2
    have := h.token
    simp only [Race.set]
    omega
  simp only [Race.set]
  by_cases hq : q = p
  · subst hq
    rw [update_self]
    exact hchecked
  · rw [update_of_ne hq]
    exact h.checked q

theorem Solvent.quiet {x y : CallPhase} (hp : s.phase p = y)
    (hconsumed : x.consumed = y.consumed) (hheld : x.tokenHeld (c.info p) = y.tokenHeld (c.info p))
    (hchecked : x.Checked c p) : Solvent c l (s.set p (s.ledger, x)) :=
  h.set hp (by simp only [hconsumed]; omega) h.walletMin (by simp only [hheld]; omega) h.tokenMin hchecked

theorem Solvent.readQuota (hp : s.phase p = .start) (read : Except String Int) :
    Solvent c l (s.set p (s.ledger, c.checkQuota p read)) := by
  rcases checkQuota_cases (c := c) p read with ⟨err, hx⟩ | ⟨userQuota, hx⟩
  · rw [hx]
    exact h.quiet hp rfl rfl trivial
  · rw [hx]
    exact h.quiet hp rfl rfl trivial

theorem Solvent.readToken (hp : s.phase p = .admitted userQuota) (read : Except String Int) :
    Solvent c l (s.set p (s.ledger, c.checkToken p userQuota read)) := by
  rcases checkToken_cases (c := c) p userQuota read with ⟨err, hx⟩ | ⟨t, hx, hzero⟩ |
    ⟨remain, hx, hcharges⟩
  · rw [hx]
    exact h.quiet hp rfl rfl trivial
  · rw [hx]
    exact h.quiet hp rfl hzero trivial
  · rw [hx]
    exact h.quiet hp rfl rfl hcharges

theorem Solvent.chargeToken {remain : Int}
    (hp : s.phase p = .tokenChecked userQuota remain)
    (hcovered : c.effectiveQuota p userQuota ≤ max (s.ledger.tokenRemain tokenId) 0) :
    Solvent c l (s.set p (c.chargeToken p s.ledger userQuota)) := by
  obtain ⟨hplay, hpos⟩ : (c.info p).isPlayground = false ∧ 0 < c.effectiveQuota p userQuota := by
    have := h.checked p
    rwa [hp] at this
  unfold Callers.chargeToken
  rcases hw : decreaseTokenQuota ((c.env p).fault .tokenWrite) s.ledger (c.info p).tokenId
    (c.effectiveQuota p userQuota) with ⟨l', r⟩
  rcases write_cases hw with ⟨hl, err, hr⟩ | ⟨hl, hr⟩
  · subst hl hr
    exact h.quiet hp rfl rfl trivial
  subst hl hr
  have hself : credit s.ledger.tokenRemain (c.info p).tokenId (-c.effectiveQuota p userQuota) tokenId =
      s.ledger.tokenRemain tokenId - c.effectiveQuota p userQuota := by
    rw [credit_apply, c.token p, if_pos rfl]
    omega
  have htaken : tokenTaken (c.info p) (c.effectiveQuota p userQuota) = c.effectiveQuota p userQuota :=
    if_pos ⟨hpos, hplay⟩
  refine h.set hp (by simp only [consumed]; omega) h.walletMin ?_ ?_ trivial
  · simp only [hself, tokenHeld, tokenPaid, htaken]
    omega
  · simp only [hself]
    omega

theorem Solvent.chargeWallet {tokenConsumed : Int}
    (hp : s.phase p = .charged userQuota tokenConsumed)
    (hcovered : c.effectiveQuota p userQuota ≤ max (s.ledger.userQuota userId) 0) :
    Solvent c l (s.set p (c.chargeWallet p s.ledger userQuota tokenConsumed)) := by
  rcases chargeWallet_cases (c := c) p s.ledger userQuota tokenConsumed with ⟨err, hx⟩ |
    ⟨session, amount, l₁, hx, htoken, hfunding, hwallet, hremain, hamount, hnonneg⟩
  · rw [hx]
    exact h.quiet hp rfl rfl trivial
  rw [hx]
  have hmin := h.walletMin
  refine h.set hp ?_ ?_ ?_ (by rw [hremain]; exact h.tokenMin) trivial
  · simp only [consumed, hfunding]
    omega
  · simp only [hwallet]
    omega
  simp only [hremain, tokenHeld, tokenPaid, htoken]
  omega

theorem Solvent.rollback {tokenConsumed : Int} {err : String}
    (hp : s.phase p = .failed tokenConsumed err) (e : NewAPIError) :
    Solvent c l (s.set p (c.rollback p s.ledger tokenConsumed, .done (.error e))) := by
  have hmin := h.tokenMin
  unfold Callers.rollback
  split
  · rename_i htaken
    rcases hw : increaseTokenQuota ((c.env p).fault .tokenRollback) s.ledger (c.info p).tokenId tokenConsumed with ⟨l', r⟩
    have hheld : (failed tokenConsumed err).tokenHeld (c.info p) = tokenConsumed := if_pos htaken
    rcases write_cases hw with ⟨rfl, _⟩ | ⟨rfl, _⟩
    · refine h.set hp (by simp only [consumed]; omega) h.walletMin ?_ h.tokenMin trivial
      rw [hheld]
      simp only [tokenHeld, tokenPaid]
      omega
    have hself : credit s.ledger.tokenRemain (c.info p).tokenId tokenConsumed tokenId =
        s.ledger.tokenRemain tokenId + tokenConsumed := by
      rw [credit_apply, c.token p, if_pos rfl]
    refine h.set hp (by simp only [consumed]; omega) h.walletMin ?_ ?_ trivial
    · rw [hheld]
      simp only [hself, tokenHeld, tokenPaid]
      omega
    · simp only [hself]
      omega
  · rename_i htaken
    exact h.quiet hp rfl (if_neg htaken).symm trivial

theorem Solvent.step {a : Fin n × Move} (hok : covered c s a = true) :
    Solvent c l (s.step c a) := by
  obtain ⟨p, m⟩ := a
  have hstay : Solvent c l (s.set p (s.ledger, s.phase p)) := by rwa [Race.set_self]
  simp only [Race.step, next]
  split <;> rename_i hp
  · exact h.readQuota hp _
  · exact h.readToken hp _
  · exact h.chargeToken hp (by simpa only [covered, hp, decide_eq_true_eq] using hok)
  · exact h.chargeWallet hp (by simpa only [covered, hp, decide_eq_true_eq] using hok)
  · exact h.rollback hp _
  · exact hstay

end

theorem Solvent.start (l : Ledger) : Solvent c l (Race.start l) where
  wallet := by simp [Race.start, consumed]
  walletMin := min_le_left _ _
  token := by simp [Race.start, tokenHeld, tokenPaid]
  tokenMin := min_le_left _ _
  checked _ := trivial

theorem tokenTaken_nonneg (info : RelayInfo) (t : Int) : 0 ≤ tokenTaken info t := by
  unfold tokenTaken
  split <;> omega

theorem tokenPaid_le_tokenHeld (info : RelayInfo) (x : CallPhase) :
    x.tokenPaid info ≤ x.tokenHeld info := by
  cases x with
  | charged _ t | failed t _ => exact tokenTaken_nonneg info t
  | _ => exact le_rfl

theorem Solvent.within (h : Solvent c l s) : Within c l s := by
  have hwallet := h.wallet
  have hwalletMin := h.walletMin
  have htoken := h.token
  have htokenMin := h.tokenMin
  have hpaid : ∑ p, (s.phase p).tokenPaid (c.info p) ≤ ∑ p, (s.phase p).tokenHeld (c.info p) :=
    sum_le_sum fun p _ => tokenPaid_le_tokenHeld (c.info p) (s.phase p)
  exact ⟨by omega, by omega, fun _ => by omega, fun _ => by omega⟩

end Races

end NewApi.Billing
