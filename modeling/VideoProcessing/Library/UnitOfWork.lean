import Mathlib.Logic.Function.Basic

/-!
# The unit of work of an object-relational mapper

A session keeps, for every mapped object, the column values it last loaded or flushed next to the
attribute values the program has set since. A flush writes the columns whose value differs from the
loaded one and no others, so a session holding an old copy leaves alone the columns it did not
change. `dirty` is the entry of one column in the `SET` clause and `put` its effect on the stored
value.
-/

namespace UnitOfWork

variable {α : Type*}

/-- A mapped object in a session. -/
structure Tracked (α : Type*) where
  /-- the row as the session last loaded or flushed it -/
  loaded : α
  /-- the attributes as the program sees them now -/
  current : α
deriving DecidableEq

/-- A mapped object whose attributes `rollback()` expires. -/
structure Persistent (α : Type*) where
  object : Tracked α
  expired : Bool
deriving DecidableEq

/-- An object just loaded from its row. -/
def Tracked.fresh (row : α) : Tracked α := ⟨row, row⟩

/-- Change the attributes of an object. -/
def Tracked.modify (t : Tracked α) (f : α → α) : Tracked α := { t with current := f t.current }

/-- Both copies seen through `f`. -/
def Tracked.map {β : Type*} (f : α → β) (t : Tracked α) : Tracked β := ⟨f t.loaded, f t.current⟩

/-- After a flush the session takes the attribute values for the stored ones. -/
def Tracked.flushed (t : Tracked α) : Tracked α := ⟨t.current, t.current⟩

/-- After `rollback()` every attribute has to be loaded again. -/
def Persistent.rollback (x : Persistent α) : Persistent α := { x with expired := true }

/-- An attribute access outside an awaited call: `none` where it would have to load the row. -/
def Persistent.read (x : Persistent α) : Option α :=
  if x.expired then none else some x.object.current

/-- The entry of a column in the `SET` clause: `none` leaves the column out. -/
def dirty [DecidableEq α] (loaded current : α) : Option α :=
  if current = loaded then none else some current

/-- The stored value of a column after the `UPDATE`. -/
def put (set : Option α) (stored : α) : α := set.getD stored

@[simp] theorem Tracked.fresh_loaded (row : α) : (Tracked.fresh row).loaded = row := rfl

@[simp] theorem Tracked.fresh_current (row : α) : (Tracked.fresh row).current = row := rfl

@[simp] theorem Tracked.modify_loaded (t : Tracked α) (f : α → α) :
    (t.modify f).loaded = t.loaded := rfl

@[simp] theorem Tracked.modify_current (t : Tracked α) (f : α → α) :
    (t.modify f).current = f t.current := rfl

@[simp] theorem Tracked.flushed_loaded (t : Tracked α) : t.flushed.loaded = t.current := rfl

@[simp] theorem Tracked.flushed_current (t : Tracked α) : t.flushed.current = t.current := rfl

/-- An object without changes is as good as just loaded. -/
theorem Tracked.eq_fresh {t : Tracked α} (h : t.current = t.loaded) : t = .fresh t.loaded := by
  obtain ⟨_, _⟩ := t
  exact congrArg _ h

@[simp] theorem put_none (stored : α) : put none stored = stored := rfl

@[simp] theorem put_some (a stored : α) : put (some a) stored = a := rfl

/-- Two statements on one column: the later one wins. -/
theorem put_or (set set' : Option α) (stored : α) :
    put (set.or set') stored = put set (put set' stored) := by
  cases set <;> rfl

variable [DecidableEq α]

@[simp] theorem dirty_self (a : α) : dirty a a = none := by simp [dirty]

/-- A value that was changed is written. -/
theorem dirty_of_ne {loaded current : α} (h : current ≠ loaded) :
    dirty loaded current = some current := by simp [dirty, h]

/-- What is written was changed. -/
theorem dirty_eq_some {loaded current a : α} :
    dirty loaded current = some a ↔ current = a ∧ a ≠ loaded := by
  by_cases h : current = loaded
  · simp only [dirty, if_pos h, reduceCtorEq, false_iff, not_and, not_not]
    rintro rfl
    exact h
  · simp only [dirty, if_neg h, Option.some.injEq]
    exact ⟨fun ha => ⟨ha, ha ▸ h⟩, And.left⟩

/-- What was not changed is not written. -/
theorem dirty_eq_none {loaded current : α} : dirty loaded current = none ↔ current = loaded := by
  simp [dirty]

/-- Writing back over an unchanged column gives the session's value; over a column that others have
changed since, it gives the session's value only where the session changed it too. -/
theorem put_dirty (loaded current stored : α) :
    put (dirty loaded current) stored = if current = loaded then stored else current := by
  by_cases h : current = loaded <;> simp [dirty, h]

/-- What holds of the attribute holds of the stored column, if it has not been lost there since the
row was loaded. -/
theorem put_dirty_of {P : α → Prop} {loaded current stored : α} (hcurrent : P current)
    (hstored : P loaded → P stored) : P (put (dirty loaded current) stored) := by
  rw [put_dirty]
  split
  · rename_i heq
    exact hstored (heq ▸ hcurrent)
  · exact hcurrent

end UnitOfWork
