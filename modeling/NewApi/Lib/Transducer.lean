import NewApi.Lib.Run

/-!
# Transducers and monitors

A transducer reads inputs one by one and returns outputs for each; a monitor reads outputs and
rejects what must not come next.

* `transduce` — the state after a list of inputs, and all outputs.
* `Guarded.accepted` — when each guarded step is accepted and keeps a relation with the state of the
  monitor, a guarded run is accepted.
-/

namespace NewApi

section Transducer

variable {S A E M : Type}

def transduce (step : S → A → S × List E) : S → List A → S × List E
  | s, [] => (s, [])
  | s, a :: as => ((transduce step (step s a).1 as).1, (step s a).2 ++ (transduce step (step s a).1 as).2)

/-- Each input with the state it is read in. -/
def visits (step : S → A → S × List E) : S → List A → List (S × A)
  | _, [] => []
  | s, a :: as => (s, a) :: visits step (step s a).1 as

/-- The monitor after the outputs, unless it rejects one. -/
def acceptAll (next : M → E → Option M) : M → List E → Option M
  | m, [] => some m
  | m, e :: es =>
    match next m e with
    | some m' => acceptAll next m' es
    | none => none

variable {step : S → A → S × List E} {next : M → E → Option M}

theorem transduce_snd (as : List A) : ∀ s : S,
    (transduce step s as).2 = (visits step s as).flatMap fun v => (step v.1 v.2).2 := by
  induction as with
  | nil => intro s; rfl
  | cons a as ih =>
    intro s
    rw [visits, List.flatMap_cons, ← ih]
    rfl

theorem map_snd_visits (as : List A) : ∀ s : S, (visits step s as).map Prod.snd = as := by
  induction as with
  | nil => intro s; rfl
  | cons a as ih =>
    intro s
    rw [visits, List.map_cons, ih]

theorem guarded_iff_visits {ok : S → A → Prop} (as : List A) : ∀ s : S,
    Guarded (fun s a => (step s a).1) ok s as ↔ ∀ v ∈ visits step s as, ok v.1 v.2 := by
  induction as with
  | nil => intro s; simp [Guarded, visits]
  | cons a as ih =>
    intro s
    rw [Guarded, ih, visits, List.forall_mem_cons]

theorem acceptAll_append {m m' : M} {es es' : List E} (h : acceptAll next m es = some m') :
    acceptAll next m (es ++ es') = acceptAll next m' es' := by
  induction es generalizing m with
  | nil =>
    cases h
    rfl
  | cons e es ih =>
    simp only [acceptAll, List.cons_append] at h ⊢
    cases hnext : next m e with
    | none =>
      rw [hnext] at h
      cases h
    | some m₁ =>
      rw [hnext] at h
      exact ih h

theorem acceptAll_cons {m m' : M} {e : E} {es : List E} (h : next m e = some m') :
    acceptAll next m (e :: es) = acceptAll next m' es := by
  simp only [acceptAll, h]

theorem Guarded.accepted {ok : S → A → Prop} {R : S → M → Prop} (hstep : ∀ s a m, ok s a → R s m →
      ∃ m', acceptAll next m (step s a).2 = some m' ∧ R (step s a).1 m')
    {as : List A} : ∀ {s : S} {m : M}, Guarded (fun s a => (step s a).1) ok s as → R s m →
      ∃ m', acceptAll next m (transduce step s as).2 = some m' ∧ R (transduce step s as).1 m' := by
  induction as with
  | nil =>
    intro s m _ hR
    exact ⟨m, rfl, hR⟩
  | cons a as ih =>
    intro s m hguard hR
    obtain ⟨m₁, haccept, hR₁⟩ := hstep s a m hguard.1 hR
    obtain ⟨m', hrest, hR'⟩ := ih hguard.2 hR₁
    refine ⟨m', ?_, hR'⟩
    show acceptAll next m ((step s a).2 ++ _) = some m'
    rw [acceptAll_append haccept, hrest]

end Transducer

end NewApi
