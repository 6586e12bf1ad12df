import NewApi.Service.TaskSystem

/-!
# One task at a time

Everything the results say about a run is about single tasks, so the system is projected to them.

* `WF`, `VideoOK` — what the parties' copies have to do with the table.
-/

namespace NewApi.Tasks

open NewApi.Billing Table World

/-- What no writer changes. -/
def identity (t : Task) : TaskPlatform × String × String × String :=
  (t.platform, t.taskKind, t.taskId, t.upstreamTaskId)

/-- Out of reach of the polling queries; a video or image task is so in a terminal status only. -/
def isClosed (t : Task) : Bool :=
  if t.platform = .suno then !t.unfinished else t.status.terminal

def Pending.isSave : Pending → Bool
  | .save _ _ => true
  | _ => false

/-- A refund that is still to run, or that has given something back and awaits its save. -/
def Pending.isRefund : Pending → Bool
  | .refund _ _ => true
  | .save _ returned => returned.isSome
  | _ => false

structure View where
  row : Option Task
  history : List Event
  pending : List (Party × Pending)

def World.view (s : World) (id : Int) : View where
  row := s.rows.get id
  history := s.log.filter fun e => decide (e.id = id)
  pending := s.pending.filter fun x => decide (x.2.task.id = id)

/-- The refunds of the task that are under way. -/
def View.refunders (v : View) : List (Party × Pending) := v.pending.filter fun x => x.2.isRefund

def Event.returned : Event → Option Int
  | .moved _ _ _ _ => none
  | .billed _ _ returned => returned

/-- What has been given back for the task so far. -/
def View.returned (v : View) : List Int := v.history.filterMap Event.returned

def View.closed (v : View) : Bool := v.row.any isClosed

/-! ## Guards and steps -/

structure Guard where
  /-- A compare-and-set hits a Suno row. -/
  cas : View → Task → Prop
  /-- A bulk update turns a row into another. -/
  bulk : Task → Task → Prop
  /-- A Suno refund gives quota back while this row is stored. -/
  prepay : View → Task → Prop
  /-- A Suno save replaces a row by a copy, after giving back the amount. -/
  save : Task → Task → Option Int → Prop
  /-- A Suno save fails after giving back the amount. -/
  drop : Option Int → Prop
  /-- Another writer replaces a row. -/
  other : Task → Task → Prop
  /-- The writes of refunds succeed. -/
  refundsSucceed : Bool

/-- What a refund of `b` gives back: all that is due, or nothing when its writes may fail. -/
def Guard.Returns (G : Guard) (cfg : Config) (b : Pending) (returned : Option Int) : Prop :=
  returned = cfg.returns b ∨ G.refundsSucceed = false ∧ returned = none

/-- A change of the row that is none of its status and does not reopen it. -/
structure Edits (old new : Task) : Prop where
  ident : identity new = identity old
  terminal : old.status.terminal = true → new.status = old.status
  live : old.status.terminal = false → new.status.terminal = false
  suno : old.platform = .suno → new.unfinished = old.unfinished

/-- **Everything that can happen to one task.** -/
inductive ViewStep (cfg : Config) (G : Guard) (id : Int) (v : View) : View → Prop
  | stay : ViewStep cfg G id v v
  | cas (p : Party) (body : String) (old new : Task) (b : Option Pending) (hrow : v.row = some old)
      (hlive : old.status.terminal = false) (hident : identity new = identity old)
      (hbill : ∀ x, b = some x → new.status.terminal = true ∧ x.isSave = false)
      (hdue : p.isLoop = true → cfg.due new body = true → ∃ x, b = some x ∧ cfg.returns x = some new.quota)
      (hG : old.platform = .suno → new.status.terminal = true ∧ G.cas v old) :
      ViewStep cfg G id v ⟨some new, v.history ++ (move cfg p body old new).toList,
        v.pending ++ (b.map fun x => (p, x)).toList⟩
  | bulk (p : Party) (old new : Task) (hrow : v.row = some old) (hident : identity new = identity old)
      (hnew : new.status = .failure ∧ new.progress = "100%") (hG : G.bulk old new) :
      ViewStep cfg G id v ⟨some new, v.history ++ (move cfg p "" old new).toList, v.pending⟩
  | edit (old new : Task) (hrow : v.row = some old) (hedit : Edits old new) :
      ViewStep cfg G id v ⟨some new, v.history, v.pending⟩
  | prepay (p : Party) (t old : Task) (called : Bool) (returned : Option Int)
      (hrow : v.row = some old) (hident : identity t = identity old) (hsuno : t.platform = .suno)
      (hskip : called = false → returned = none ∧ t.status ≠ .failure)
      (hcall : called = true → G.Returns cfg (.refund t t.failReason) returned ∧ t.unfinished = false)
      (hG : returned ≠ none → G.prepay v old) :
      ViewStep cfg G id v ⟨v.row, v.history ++ (if called then [.billed p id returned] else []),
        v.pending ++ [(p, .save t returned)]⟩
  | save (p : Party) (t old : Task) (returned : Option Int) (now : Int) (hmem : (p, .save t returned) ∈ v.pending)
      (hone : ∀ x ∈ v.pending, x.1 = p → x = (p, .save t returned))
      (hrow : v.row = some old) (hident : identity t = identity old) (hsuno : t.platform = .suno)
      (hG : G.save old t returned) :
      ViewStep cfg G id v ⟨some { t with updatedAt := now },
        v.history ++ (move cfg p "" old { t with updatedAt := now }).toList,
        v.pending.filter fun x => decide (x.1 ≠ p)⟩
  | drop (p : Party) (t : Task) (returned : Option Int) (hmem : (p, .save t returned) ∈ v.pending)
      (hone : ∀ x ∈ v.pending, x.1 = p → x = (p, .save t returned)) (hG : G.drop returned) :
      ViewStep cfg G id v ⟨v.row, v.history, v.pending.filter fun x => decide (x.1 ≠ p)⟩
  | bill (p : Party) (b : Pending) (returned : Option Int) (old new : Task) (hmem : (p, b) ∈ v.pending)
      (hone : ∀ x ∈ v.pending, x.1 = p → x = (p, b)) (hb : b.isSave = false)
      (hret : G.Returns cfg b returned) (hrow : v.row = some old) (hedit : Edits old new) :
      ViewStep cfg G id v ⟨some new, v.history ++ [.billed p id returned], v.pending.filter fun x => decide (x.1 ≠ p)⟩
  | other (old new : Task) (hrow : v.row = some old) (hident : identity new = identity old) (hG : G.other old new) :
      ViewStep cfg G id v ⟨some new, v.history ++ (move cfg .other "" old new).toList, v.pending⟩

/-! ## What a statement does to a view -/

section Views

variable {cfg : Config} {s : World} {p : Party} {body : String} {u : TaskUpdate} {id : Int}

theorem move_id {old new : Task} {e : Event} (h : move cfg p body old new = some e) :
    e.id = new.id := by
  unfold move at h
  split at h
  · cases h; rfl
  · cases h

theorem move_same {old new : Task} (h : old.status = new.status) :
    move cfg p body old new = none := by
  unfold move
  rw [if_neg (fun hc => hc.1 h)]

theorem move_live {old new : Task} (ho : old.status.terminal = false)
    (hn : new.status.terminal = false) : move cfg p body old new = none := by
  unfold move
  rw [if_neg]
  rintro ⟨_, h | h⟩
  · rw [ho] at h; cases h
  · rw [hn] at h; cases h

theorem log_exec :
    (s.rows.rows.filterMap fun r => if u.hits r then move cfg p body r (u.set r) else none).filter
      (fun e => decide (e.id = id)) =
    ((s.rows.get id).bind fun r => if u.hits r then move cfg p body r (u.set r) else none).toList := by
  refine filterMap_filter_key s.rows _ Event.id ?_ id
  intro r e he
  split at he
  · rename_i hr
    rw [move_id he]
    exact u.keeps r hr
  · cases he

theorem view_exec_hit {old : Task} (hrow : s.rows.get id = some old) (hh : u.hits old = true) :
    (s.exec cfg p u body).view id = ⟨some (u.set old),
      (s.view id).history ++ (move cfg p body old (u.set old)).toList, (s.view id).pending⟩ := by
  simp [World.view, World.exec, log_exec, get_exec, hrow, Table.Update.apply, hh]

theorem view_exec_miss (hmiss : ∀ old, s.rows.get id = some old → u.hits old = false) :
    (s.exec cfg p u body).view id = s.view id := by
  cases hrow : s.rows.get id with
  | none => simp [World.view, World.exec, log_exec, get_exec, hrow]
  | some old => simp [World.view, World.exec, log_exec, get_exec, hrow, Table.Update.apply, hmiss old hrow]

theorem view_hold {b : Option Pending} (hb : ∀ x, b = some x → x.task.id = id) :
    (s.hold p b).view id = { s.view id with
      pending := (s.view id).pending ++ (b.map fun x => (p, x)).toList } := by
  cases b with
  | none => simp [hold]
  | some x => simp [view, hold, hb x rfl]

theorem view_hold_ne {b : Option Pending} (hb : ∀ x, b = some x → x.task.id ≠ id) :
    (s.hold p b).view id = s.view id := by
  cases b with
  | none => simp [hold]
  | some x => simp [view, hold, hb x rfl]

end Views

end NewApi.Tasks
