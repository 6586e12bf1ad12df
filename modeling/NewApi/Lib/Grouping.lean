import Mathlib

/-!
# Maps built by a loop

Association lists with one entry per key, as a loop over rows builds them: `setKey` is
`m[k] = v`, `pushKey` is `m[k] = append(m[k], v)`. Iteration order is that of first insertion;
results that must not depend on it are stated up to permutation.

* `findKey_setKey` — a lookup after a write; `findKey_eraseKey` — after a deletion.
* `unroll_pushKey`, `unroll_groupKey` — grouping loses and invents nothing.
-/

namespace NewApi

open List

variable {κ ν α : Type} [DecidableEq κ]

def findKey (k : κ) : List (κ × ν) → Option ν
  | [] => none
  | (k', v) :: m => if k' = k then some v else findKey k m

/-- Store `v` under `k`, replacing what was there. -/
def setKey (k : κ) (v : ν) : List (κ × ν) → List (κ × ν)
  | [] => [(k, v)]
  | (k', v') :: m => if k' = k then (k', v) :: m else (k', v') :: setKey k v m

def eraseKey (k : κ) (m : List (κ × ν)) : List (κ × ν) := m.filter fun e => decide (e.1 ≠ k)

/-- Append `v` to the list stored under `k`. -/
def pushKey (k : κ) (v : ν) : List (κ × List ν) → List (κ × List ν)
  | [] => [(k, [v])]
  | (k', vs) :: m => if k' = k then (k', vs ++ [v]) :: m else (k', vs) :: pushKey k v m

/-- Every value with the key it is stored under. -/
def unroll (m : List (κ × List ν)) : List (κ × ν) :=
  m.flatMap (fun e => e.2.map (fun v => (e.1, v)))

/-- Group `as` by `key`. -/
def groupKey (key : α → κ) (as : List α) : List (κ × List α) :=
  as.foldl (fun m a => pushKey (key a) a m) []

theorem findKey_setKey (k k' : κ) (v : ν) (m : List (κ × ν)) :
    findKey k' (setKey k v m) = if k = k' then some v else findKey k' m := by
  induction m with
  | nil => rfl
  | cons e m ih =>
    obtain ⟨j, w⟩ := e
    simp only [setKey]
    by_cases hj : j = k
    · subst hj
      rw [if_pos rfl]
      simp only [findKey]
      split <;> rfl
    rw [if_neg hj]
    simp only [findKey, ih]
    by_cases hjk : j = k'
    · subst hjk
      rw [if_pos rfl, if_neg (fun h => hj h.symm), if_pos rfl]
    · rw [if_neg hjk, if_neg hjk]

variable {m : List (κ × ν)} {k : κ}

theorem setKey_new (h : k ∉ m.map Prod.fst) (v : ν) : setKey k v m = m ++ [(k, v)] := by
  induction m with
  | nil => rfl
  | cons e m ih =>
    rw [map_cons, mem_cons, not_or] at h
    rw [setKey, if_neg (Ne.symm h.1), ih h.2, cons_append]

theorem keys_setKey (k : κ) (v : ν) (m : List (κ × ν)) :
    (setKey k v m).map Prod.fst = if k ∈ m.map Prod.fst then m.map Prod.fst else m.map Prod.fst ++ [k] := by
  induction m with
  | nil => rfl
  | cons e m ih =>
    obtain ⟨j, w⟩ := e
    simp only [setKey]
    by_cases hj : j = k
    · subst hj; simp
    have hk : k ≠ j := fun h => hj h.symm
    rw [if_neg hj]
    simp only [map_cons, ih, mem_cons, hk, false_or]
    split <;> rfl

theorem nodup_setKey (hm : (m.map Prod.fst).Nodup) (k : κ) (v : ν) :
    ((setKey k v m).map Prod.fst).Nodup := by
  rw [keys_setKey]
  split
  · exact hm
  · rename_i hk
    exact concat_eq_append ▸ List.Nodup.concat hk hm

attribute [local simp] eraseKey

theorem findKey_eraseKey (k k' : κ) (m : List (κ × ν)) :
    findKey k' (eraseKey k m) = if k = k' then none else findKey k' m := by
  induction m with
  | nil => simp [findKey]
  | cons e m ih =>
    obtain ⟨j, w⟩ := e
    by_cases hj : j = k
    · subst hj
      have herase : eraseKey j ((j, w) :: m) = eraseKey j m := by simp
      rw [herase, ih]
      simp only [findKey]
      split <;> rfl
    have herase : eraseKey k ((j, w) :: m) = (j, w) :: eraseKey k m := by simp [hj]
    rw [herase]
    simp only [findKey, ih]
    by_cases hjk : j = k'
    · subst hjk
      rw [if_pos rfl, if_neg (fun h => hj h.symm), if_pos rfl]
    · rw [if_neg hjk, if_neg hjk]

theorem pushKey_eq_setKey (k : κ) (v : ν) (m : List (κ × List ν)) :
    pushKey k v m = setKey k ((findKey k m).getD [] ++ [v]) m := by
  induction m with
  | nil => rfl
  | cons e m ih =>
    simp only [pushKey, setKey, findKey, ih]
    split <;> rfl

theorem findKey_pushKey (k k' : κ) (v : ν) (m : List (κ × List ν)) :
    (findKey k' (pushKey k v m)).getD [] =
      (findKey k' m).getD [] ++ if k = k' then [v] else [] := by
  rw [pushKey_eq_setKey, findKey_setKey]
  split
  · next h => rw [h, Option.getD_some]
  · rw [append_nil]

theorem findKey_foldl_pushKey (key : α → κ) (val : α → ν) (k : κ) (as : List α) (m : List (κ × List ν)) :
    (findKey k (as.foldl (fun m a => pushKey (key a) (val a) m) m)).getD [] =
      (findKey k m).getD [] ++ (as.filter fun a => decide (key a = k)).map val := by
  induction as generalizing m with
  | nil => simp
  | cons a as ih =>
    rw [foldl_cons, ih, findKey_pushKey, append_assoc]
    by_cases ha : key a = k <;> simp [ha]

theorem findKey_map {μ : Type} (f : ν → μ) (k : κ) (m : List (κ × ν)) :
    findKey k (m.map fun e => (e.1, f e.2)) = (findKey k m).map f := by
  induction m with
  | nil => rfl
  | cons e m ih =>
    simp only [map_cons, findKey, ih]
    split <;> rfl

theorem mem_of_findKey {v : ν} (h : findKey k m = some v) : (k, v) ∈ m := by
  induction m with
  | nil => cases h
  | cons e m ih =>
    simp only [findKey] at h
    split at h
    · rename_i hj
      cases h
      subst hj
      exact mem_cons_self
    · exact mem_cons_of_mem _ (ih h)

theorem findKey_eq_none (h : findKey k m = none) : k ∉ m.map Prod.fst := by
  induction m with
  | nil => exact not_mem_nil
  | cons e m ih =>
    simp only [findKey] at h
    split at h
    · cases h
    rename_i hj
    rw [map_cons, mem_cons, not_or]
    exact ⟨fun hk => hj hk.symm, ih h⟩

theorem findKey_of_mem (hm : (m.map Prod.fst).Nodup) {v : ν} (h : (k, v) ∈ m) :
    findKey k m = some v := by
  induction m with
  | nil => cases h
  | cons e m ih =>
    obtain ⟨j, w⟩ := e
    simp only [map_cons, nodup_cons] at hm
    simp only [findKey]
    rcases mem_cons.mp h with he | ht
    · cases he
      rw [if_pos rfl]
    have hj : j ≠ k := fun hjk => hm.1 (hjk ▸ mem_map_of_mem ht)
    rw [if_neg hj]
    exact ih hm.2 ht

theorem eraseKey_eq_self (h : k ∉ m.map Prod.fst) : eraseKey k m = m := by
  rw [eraseKey, filter_eq_self]
  intro e he
  have hne : e.1 ≠ k := fun heq => h (heq ▸ mem_map_of_mem he)
  simpa using hne

theorem perm_cons_eraseKey (hm : (m.map Prod.fst).Nodup) {v : ν} (h : (k, v) ∈ m) :
    m.Perm ((k, v) :: eraseKey k m) := by
  induction m with
  | nil => cases h
  | cons e rest ih =>
    rw [map_cons, nodup_cons] at hm
    rcases mem_cons.mp h with rfl | hrest
    · have herase : eraseKey k ((k, v) :: rest) = eraseKey k rest := by simp
      rw [herase, eraseKey_eq_self hm.1]
    have hne : e.1 ≠ k := fun heq => hm.1 (heq ▸ mem_map_of_mem hrest)
    have herase : eraseKey k (e :: rest) = e :: eraseKey k rest := by simp [hne]
    rw [herase]
    exact ((ih hm.2 hrest).cons e).trans (List.Perm.swap _ _ _)

theorem count_values [BEq ν] [LawfulBEq ν] [BEq (κ × ν)] [LawfulBEq (κ × ν)] (es : List (κ × ν))
    (k : κ) (v : ν) :
    ((es.filter fun e => decide (e.1 = k)).map Prod.snd).count v = es.count (k, v) := by
  induction es with
  | nil => rfl
  | cons e es ih =>
    obtain ⟨k', v'⟩ := e
    by_cases hk : k' = k
    · subst hk
      rw [filter_cons_of_pos (by simp), map_cons, count_cons, count_cons, ih]
      congr 1
      by_cases hv : v' = v <;> simp [hv]
    · rw [filter_cons_of_neg (by simpa using hk), ih, count_cons_of_ne]
      simp [hk]

/-! ## Grouping up to permutation -/

theorem unroll_pushKey (k : κ) (v : ν) (m : List (κ × List ν)) :
    (unroll (pushKey k v m)).Perm (unroll m ++ [(k, v)]) := by
  induction m with
  | nil => exact List.Perm.refl _
  | cons e m ih =>
    obtain ⟨j, vs⟩ := e
    simp only [pushKey]
    by_cases hj : j = k
    · subst hj
      rw [if_pos rfl]
      simp only [unroll, flatMap_cons, map_append, append_assoc]
      exact List.Perm.append_left _ perm_append_comm
    · rw [if_neg hj]
      simp only [unroll, flatMap_cons, append_assoc]
      exact List.Perm.append_left _ ih

theorem unroll_foldl_pushKey (key : α → κ) (val : α → ν) (as : List α) (m : List (κ × List ν)) :
    (unroll (as.foldl (fun m a => pushKey (key a) (val a) m) m)).Perm
      (unroll m ++ as.map (fun a => (key a, val a))) := by
  induction as generalizing m with
  | nil => simp
  | cons a as ih =>
    refine (ih _).trans ?_
    rw [map_cons, ← singleton_append, ← append_assoc]
    exact List.Perm.append_right _ (unroll_pushKey (key a) (val a) m)

theorem unroll_groupKey (key : α → κ) (as : List α) :
    (unroll (groupKey key as)).Perm (as.map (fun a => (key a, a))) :=
  unroll_foldl_pushKey key (fun a => a) as []

theorem nodup_pushKey {m : List (κ × List ν)} (hm : (m.map Prod.fst).Nodup) (k : κ) (v : ν) :
    ((pushKey k v m).map Prod.fst).Nodup := by
  rw [pushKey_eq_setKey]
  exact nodup_setKey hm k _

theorem nodup_groupKey (key : α → κ) (as : List α) : ((groupKey key as).map Prod.fst).Nodup := by
  suffices h : ∀ m : List (κ × List α), (m.map Prod.fst).Nodup →
      ((as.foldl (fun m a => pushKey (key a) a m) m).map Prod.fst).Nodup from h [] nodup_nil
  induction as with
  | nil => exact fun m hm => hm
  | cons a as ih => exact fun m hm => ih _ (nodup_pushKey hm (key a) a)

theorem mem_groupKey {key : α → κ} {as : List α} {g : List α}
    (hg : (k, g) ∈ groupKey key as) : g = as.filter (fun a => decide (key a = k)) := by
  have h := findKey_foldl_pushKey key (fun a => a) k as []
  rw [← groupKey, findKey_of_mem (nodup_groupKey key as) hg] at h
  simpa [findKey] using h

end NewApi
