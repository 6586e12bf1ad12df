import Mathlib

/-!
# Keyed tables

A table is a list of rows whose keys are pairwise distinct: what a primary key or a unique
index guarantees. The key function is part of the type, and distinctness is a field, so a
table with two rows of one key cannot be built.

`exec_exec_of_apply_eq` and its companions compare statements by what they make of a row;
`get_save_self`, `get_save_ne`, `save_get`, `get_insert`, `get_exec` say what the operations do to
single rows, `total_save` and `total_insert` what they do to sums.
-/

namespace NewApi

open List Function

/-- Rows with pairwise distinct keys. -/
structure Table (κ α : Type) (key : α → κ) where
  rows : List α
  nodup : (rows.map key).Nodup

namespace Table

variable {κ α : Type} {key : α → κ}

def empty : Table κ α key := ⟨[], List.nodup_nil⟩

variable {t : Table κ α key}

@[ext] theorem ext {u : Table κ α key} (h : t.rows = u.rows) : t = u := by
  cases t; cases u; cases h; rfl

def total {M : Type} [AddCommGroup M] (t : Table κ α key) (f : α → M) : M := (t.rows.map f).sum

variable {row r old a : α}

theorem nodup_concat {rows : List α} (hn : (rows.map key).Nodup)
    (h : key row ∉ rows.map key) : ((rows ++ [row]).map key).Nodup := by
  have := List.Nodup.concat h hn
  rwa [concat_eq_append, ← map_singleton, ← map_append] at this

theorem eq_of_key_eq {x y : α} (hx : x ∈ t.rows) (hy : y ∈ t.rows) (h : key x = key y) : x = y :=
  inj_on_of_nodup_map t.nodup hx hy h

/-- An `UPDATE` statement: the rows its `WHERE` clause matches and what they become. -/
structure Update (key : α → κ) where
  hits : α → Bool
  set : α → α
  keeps : ∀ a, hits a = true → key (set a) = key a

/-- What the statement makes of one row. -/
def Update.apply (u : Update key) (r : α) : α := if u.hits r then u.set r else r

theorem Update.key_apply (u : Update key) (r : α) : key (u.apply r) = key r := by
  unfold Update.apply
  split
  · rename_i h; exact u.keeps r h
  · rfl

def exec (t : Table κ α key) (u : Update key) : Table κ α key where
  rows := t.rows.map u.apply
  nodup := by
    rw [List.map_map]
    exact (List.map_congr_left fun r _ => u.key_apply r) ▸ t.nodup

variable {u v : Update key}

theorem exec_of_apply_eq (h : ∀ r, u.apply r = r) : t.exec u = t := by
  refine Table.ext ?_
  show t.rows.map u.apply = t.rows
  have hid : u.apply = id := funext h
  rw [hid, map_id]

theorem exec_exec_of_apply_eq {w : Update key}
    (h : ∀ r, v.apply (u.apply r) = w.apply r) : (t.exec u).exec v = t.exec w := by
  refine Table.ext ?_
  simp only [exec, map_map]
  exact map_congr_left fun r _ => h r

theorem exec_eq_of_apply_eq (h : ∀ r, u.apply r = v.apply r) : t.exec u = t.exec v := by
  refine Table.ext ?_
  exact map_congr_left fun r _ => h r

/-- `DELETE … WHERE p`. -/
def delete (t : Table κ α key) (p : α → Bool) : Table κ α key where
  rows := t.rows.filter fun r => !p r
  nodup := t.nodup.sublist (List.Sublist.map _ List.filter_sublist)

/-- `SELECT … WHERE p ORDER BY … LIMIT 1`: the row that no other one comes before. -/
def first (t : Table κ α key) (p : α → Bool) (before : α → α → Bool) : Option α :=
  t.rows.find? fun r => p r && t.rows.all fun r' => !(p r' && before r' r)

/-- The affected-row count is positive. -/
def affected (t : Table κ α key) (u : Update key) : Bool := t.rows.any u.hits

variable {p : α → Bool}

theorem mem_delete : r ∈ (t.delete p).rows ↔ r ∈ t.rows ∧ p r = false := by
  simp [delete]

theorem delete_of_forall (h : ∀ r ∈ t.rows, p r = false) : t.delete p = t := by
  refine Table.ext ?_
  exact filter_eq_self.mpr fun r hr => by simp [h r hr]

theorem mem_exec :
    r ∈ (t.exec u).rows ↔ r ∈ t.rows ∧ u.hits r = false ∨ ∃ x ∈ t.rows, u.hits x = true ∧
      r = u.set x := by
  unfold exec
  rw [mem_map]
  constructor
  · rintro ⟨x, hx, rfl⟩
    cases hh : u.hits x with
    | true => exact .inr ⟨x, hx, hh, by simp [Update.apply, hh]⟩
    | false => exact .inl (by simpa [Update.apply, hh] using hx)
  · rintro (⟨hr, hh⟩ | ⟨x, hx, hh, rfl⟩)
    · exact ⟨r, hr, by simp [Update.apply, hh]⟩
    · exact ⟨x, hx, by simp [Update.apply, hh]⟩

variable {before : α → α → Bool}

theorem first_some (h : t.first p before = some r) :
    r ∈ t.rows ∧ p r = true ∧ ∀ r' ∈ t.rows, p r' = true → before r' r = false := by
  have hp := find?_some h
  simp only [Bool.and_eq_true, all_eq_true, Bool.not_eq_true', Bool.and_eq_false_imp] at hp
  exact ⟨mem_of_find?_eq_some h, hp.1, fun r' hr' h' => hp.2 r' hr' h'⟩

theorem first_eq_some (hr : r ∈ t.rows)
    (hp : p r = true)
    (hfirst : ∀ r' ∈ t.rows, p r' = true → r' = r ∨ before r r' = true ∧ before r' r = false)
    (hirr : before r r = false) : t.first p before = some r := by
  cases hf : t.first p before with
  | none =>
    have hnone := find?_eq_none.mp hf r hr
    simp only [hp, Bool.true_and, all_eq_true, Bool.not_eq_true', not_forall] at hnone
    obtain ⟨r', hr', hnot⟩ := hnone
    simp only [Bool.not_eq_false, Bool.and_eq_true] at hnot
    rcases hfirst r' hr' hnot.1 with rfl | ⟨_, hb⟩
    · rw [hirr] at hnot; cases hnot.2
    · rw [hb] at hnot; cases hnot.2
  | some y =>
    obtain ⟨hy, hpy, hbefore⟩ := first_some hf
    rcases hfirst y hy hpy with rfl | ⟨hb, _⟩
    · rfl
    · rw [hbefore r hr hp] at hb; cases hb

variable [DecidableEq κ]

def get (t : Table κ α key) (k : κ) : Option α := t.rows.find? (fun r => decide (key r = k))

theorem map_save_keys (row : α) (rows : List α) :
    (rows.map (fun r => if key r = key row then row else r)).map key = rows.map key := by
  rw [map_map]
  refine map_congr_left fun r _ => ?_
  simp only [comp]
  split
  · rename_i h; exact h.symm
  · rfl

/-- Overwrite the row that has the key of `row`. -/
def save (t : Table κ α key) (row : α) : Table κ α key where
  rows := t.rows.map (fun r => if key r = key row then row else r)
  nodup := by rw [map_save_keys]; exact t.nodup

/-- Append `row`; `none` when its key is taken. -/
def insert (t : Table κ α key) (row : α) : Option (Table κ α key) :=
  if h : key row ∈ t.rows.map key then none else some ⟨t.rows ++ [row], nodup_concat t.nodup h⟩

/-- `INSERT … ON CONFLICT DO NOTHING`. -/
def insertNew (t : Table κ α key) (row : α) : Table κ α key := (t.insert row).getD t

/-! ## Single rows -/

variable {k : κ}

theorem mem_of_get (h : t.get k = some r) : r ∈ t.rows :=
  mem_of_find?_eq_some h

theorem key_of_get (h : t.get k = some r) : key r = k := by
  simpa using find?_some h

theorem get_of_mem (h : r ∈ t.rows) : t.get (key r) = some r := by
  have hex : ∃ x ∈ t.rows, decide (key x = key r) = true := ⟨r, h, by simp⟩
  obtain ⟨x, hx⟩ := Option.isSome_iff_exists.mp (find?_isSome.mpr hex)
  have hxk : key x = key r := by simpa using find?_some hx
  have : x = r := eq_of_key_eq (mem_of_find?_eq_some hx) h hxk
  subst this
  exact hx

theorem mem_save (h : r ∈ (t.save row).rows) : r = row ∨ r ∈ t.rows ∧ key r ≠ key row := by
  obtain ⟨x, hx, rfl⟩ := mem_map.mp h
  split
  · exact .inl rfl
  · rename_i hne; exact .inr ⟨hx, hne⟩

theorem mem_save_of_ne (h : r ∈ t.rows) (hne : key r ≠ key row) : r ∈ (t.save row).rows :=
  mem_map.mpr ⟨r, h, if_neg hne⟩

theorem get_save_self (h : t.get (key row) = some old) : (t.save row).get (key row) = some row := by
  have hm : row ∈ (t.save row).rows :=
    mem_map.mpr ⟨old, mem_of_get h, by rw [if_pos (key_of_get h)]⟩
  exact get_of_mem hm

theorem get_save_of_key (h : t.get k = some old) (hk : key row = k) :
    (t.save row).get k = some row := by
  subst hk; exact get_save_self h

theorem find?_save_ne (h : k ≠ key row) (rows : List α) :
    (rows.map (fun r => if key r = key row then row else r)).find? (fun r => decide (key r = k)) =
      rows.find? (fun r => decide (key r = k)) := by
  induction rows with
  | nil => rfl
  | cons a rows ih =>
    simp only [map_cons, find?_cons]
    by_cases ha : key a = key row
    · have h1 : decide (key row = k) = false := by simpa using fun e => h e.symm
      have h2 : decide (key a = k) = false := by simpa [ha] using fun e => h e.symm
      rw [if_pos ha, h1, h2]; exact ih
    · rw [if_neg ha, ih]

theorem get_save_ne (t : Table κ α key) (h : k ≠ key row) : (t.save row).get k = t.get k :=
  find?_save_ne h t.rows

theorem save_get (h : t.get (key row) = some row) : t.save row = t := by
  apply ext
  conv_rhs => rw [← map_id t.rows]
  refine map_congr_left fun r hr => ?_
  split
  · rename_i hk; exact (eq_of_key_eq hr (mem_of_get h) hk).symm
  · rfl

theorem save_save (t : Table κ α key) {b : α} (h : key a = key b) :
    (t.save a).save b = t.save b := by
  apply ext
  simp only [save, map_map]
  refine map_congr_left fun r _ => ?_
  simp only [comp]
  by_cases hr : key r = key a
  · rw [if_pos hr, if_pos h, if_pos (hr.trans h)]
  · rw [if_neg hr]

theorem insert_some {u : Table κ α key} (h : t.insert row = some u) :
    key row ∉ t.rows.map key ∧ u.rows = t.rows ++ [row] := by
  unfold insert at h
  split at h
  · cases h
  · rename_i hk; cases h; exact ⟨hk, rfl⟩

theorem insert_of_fresh (h : key row ∉ t.rows.map key) :
    (t.insertNew row).rows = t.rows ++ [row] := by
  rw [insertNew, insert, dif_neg h]
  rfl

theorem mem_foldl_insertNew {rows : List α} (hnodup : (rows.map key).Nodup)
    (hfresh : ∀ r ∈ rows, key r ∉ t.rows.map key) :
    a ∈ (rows.foldl insertNew t).rows ↔ a ∈ t.rows ∨ a ∈ rows := by
  induction rows generalizing t with
  | nil => simp
  | cons r rows ih =>
    rw [map_cons, nodup_cons] at hnodup
    have hrows := insert_of_fresh (hfresh r mem_cons_self)
    rw [foldl_cons, ih hnodup.2, hrows]
    · simp only [mem_append, mem_cons, not_mem_nil, or_false]
      tauto
    intro r' hr'
    rw [hrows, map_append, mem_append, not_or]
    refine ⟨hfresh r' (mem_cons_of_mem _ hr'), ?_⟩
    simp only [map_cons, map_nil, mem_singleton]
    exact fun hkey => hnodup.1 (hkey ▸ mem_map_of_mem hr')

theorem get_insert_self {u : Table κ α key} (h : t.insert row = some u) :
    u.get (key row) = some row :=
  get_of_mem (by rw [(insert_some h).2]; simp)

theorem get_insert_ne {u : Table κ α key} (h : t.insert row = some u) (hk : k ≠ key row) :
    u.get k = t.get k := by
  unfold get
  rw [(insert_some h).2, find?_append]
  have : decide (key row = k) = false := by simpa using fun e => hk e.symm
  simp [this]

/-! ## Conditional updates -/

theorem get_exec (t : Table κ α key) (u : Update key) (k : κ) :
    (t.exec u).get k = (t.get k).map u.apply := by
  unfold get exec
  rw [find?_map]
  congr 2
  funext r
  simp [u.key_apply]

theorem filterMap_filter_key {ε : Type} (t : Table κ α key) (f : α → Option ε) (idOf : ε → κ)
    (hf : ∀ r e, f r = some e → idOf e = key r) (k : κ) :
    (t.rows.filterMap f).filter (fun e => decide (idOf e = k)) = ((t.get k).bind f).toList := by
  suffices h : ∀ rows : List α, (rows.map key).Nodup → (rows.filterMap f).filter (fun e => decide (idOf e = k)) =
        ((rows.find? fun r => decide (key r = k)).bind f).toList from h t.rows t.nodup
  intro rows hn
  induction rows with
  | nil => rfl
  | cons a rows ih =>
    simp only [map_cons, nodup_cons] at hn
    have hrest := ih hn.2
    by_cases hk : key a = k
    · have hnone : rows.find? (fun r => decide (key r = k)) = none := by
        rw [find?_eq_none]
        intro r hr he
        exact hn.1 (hk.trans (of_decide_eq_true he).symm ▸ mem_map_of_mem hr)
      rw [hnone] at hrest
      rw [find?_cons_of_pos (by simpa using hk), filterMap_cons]
      cases hfa : f a with
      | none => simpa [hfa] using hrest
      | some e =>
        have he : idOf e = k := (hf a e hfa).trans hk
        simpa [he, hfa] using hrest
    · rw [find?_cons_of_neg (by simpa using hk), filterMap_cons]
      cases hfa : f a with
      | none => exact hrest
      | some e =>
        have he : idOf e ≠ k := fun h => hk ((hf a e hfa).symm.trans h)
        simpa [he] using hrest

theorem affected_iff (hu : ∀ r, u.hits r = true → key r = k) :
    t.affected u = true ↔ ∃ r, t.get k = some r ∧ u.hits r = true := by
  unfold affected
  rw [any_eq_true]
  constructor
  · rintro ⟨r, hr, hh⟩
    exact ⟨r, hu r hh ▸ get_of_mem hr, hh⟩
  · rintro ⟨r, hr, hh⟩
    exact ⟨r, mem_of_get hr, hh⟩

/-! ## Counts -/

/-- `SELECT COUNT(*) … WHERE p`. -/
def count (t : Table κ α key) (p : α → Bool) : Nat := t.rows.countP p

omit [DecidableEq κ] in
theorem count_exec_le (h : ∀ r ∈ t.rows, u.hits r = true → p (u.set r) = true → p r = true) :
    (t.exec u).count p ≤ t.count p := by
  unfold count exec
  rw [countP_map]
  refine countP_mono_left fun r hr hp => ?_
  simp only [comp, Update.apply] at hp
  split at hp
  · rename_i hh; exact h r hr hh hp
  · exact hp

theorem count_insert {u : Table κ α key} (h : t.insert row = some u) (p : α → Bool) :
    u.count p = t.count p + if p row then 1 else 0 := by
  unfold count
  rw [(insert_some h).2, countP_append, countP_singleton]

/-! ## Sums -/

section Sums

variable {M : Type} [AddCommGroup M]

theorem sum_map_save (f : α → M) (row : α) : ∀ {rows : List α}, (rows.map key).Nodup →
    ∀ {old : α}, old ∈ rows → key old = key row →
      ((rows.map (fun r => if key r = key row then row else r)).map f).sum =
        (rows.map f).sum - f old + f row := by
  intro rows
  induction rows with
  | nil => intro _ old h; cases h
  | cons a rows ih =>
    intro hn old hold hk
    simp only [map_cons, nodup_cons, mem_map, not_exists, not_and] at hn
    rcases mem_cons.mp hold with h1 | h1
    · subst h1
      have hrest : rows.map (fun r => if key r = key row then row else r) = rows := by
        conv_rhs => rw [← map_id rows]
        refine map_congr_left fun r hr => ?_
        rw [if_neg (fun e => hn.1 r hr (e.trans hk.symm))]; rfl
      simp only [map_cons, sum_cons, if_pos hk, hrest]
      abel
    · have hne : key a ≠ key row := fun e => hn.1 old h1 (hk.trans e.symm)
      simp only [map_cons, sum_cons, if_neg hne]
      rw [ih hn.2 h1 hk]
      abel

theorem total_save {t : Table κ α key} {row old : α} {k : κ} (h : t.get k = some old)
    (hk : key row = k) (f : α → M) : (t.save row).total f = t.total f - f old + f row :=
  sum_map_save f row t.nodup (mem_of_get h) ((key_of_get h).trans hk.symm)

theorem total_insert {t u : Table κ α key} {row : α} (h : t.insert row = some u) (f : α → M) :
    u.total f = t.total f + f row := by
  unfold total
  rw [(insert_some h).2]; simp

end Sums

end Table

end NewApi
