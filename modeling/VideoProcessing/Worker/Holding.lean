import VideoProcessing.Worker.Host

/-!
# What an activity holds

An activity has a session from its first await to its last, a temporary directory and an S3 client
around its work, and a child process while it awaits that child's end and at no other time.
`Script.wp` with `holds` shows it of every function by the way its blocks are nested.

An exit of a block is awaited with what the block holds, which is released when that await has
ended, in whichever way.
-/

namespace VideoProcessing

open Python UnitOfWork Coroutine Transitions

/-- The resources beside a script: every operation is awaited with those it should be. -/
def holds : Effects Operation.Reply Resource (List Resource) where
  await op P held := held = op.resources ∧ ∀ reply, P reply held
  acquire r P held := P (r :: held)
  release r P held := ∃ rest, held = r :: rest ∧ P rest
  await_mono := fun hle h => ⟨h.1, fun reply => hle reply _ (h.2 reply)⟩
  acquire_mono := fun hle h => hle _ h
  release_mono := fun hle ⟨rest, heq, h⟩ => ⟨rest, heq, hle rest h⟩

variable {ρ ρ' ε α β : Type} {held : List Resource} {decimal : ℕ → Option ℕ} {videoId : UUID}
  {act : Activity}

/-- The routine ends with the resources it begins with. -/
def Holds (held : List Resource) (routine : Routine ε ρ Operation.Reply Resource α) : Prop :=
  ∀ y, Script.wp holds (fun _ held' => held' = held) (routine y) held

/-- One routine after another. -/
theorem Holds.bind {routine : Routine ε ρ Operation.Reply Resource α}
    {next : α → Routine ε ρ Operation.Reply Resource β} (h : Holds held routine)
    (hnext : ∀ a, Holds held (next a)) : Holds held (routine >>= next) := by
  intro y
  refine Routine.wp_bind (Script.wp_mono (h y) fun q held' hq => ?_)
  obtain ⟨result, y'⟩ := q
  subst hq
  cases result with
  | ok a => exact hnext a y'
  | error e => rfl

/-- A block holds its resource until it is closed. -/
theorem Holds.closing {routine : Routine ε ρ Operation.Reply Resource α} {r : Resource}
    {close : Routine ε ρ Operation.Reply Resource Unit} (h : Holds (r :: held) routine)
    (hclose : Holds (r :: held) close) : Holds held (Routine.closing r close routine) := by
  refine fun y => Routine.wp_closing (Script.wp_mono (h y) fun q held' hq => ?_)
  subst hq
  exact Script.wp_mono (hclose q.2) fun _ _ hc => ⟨held, hc, rfl⟩

/-- A routine with local variables of its own. -/
theorem Holds.within {routine : Routine ε ρ Operation.Reply Resource α} {y : ρ}
    (h : Holds held routine) :
    Holds held (Routine.within y routine : Routine ε ρ' Operation.Reply Resource α) :=
  fun _ => Script.wp_bind (Script.wp_mono (h y) fun _ _ hq => hq)

/-- A value takes nothing. -/
theorem Holds.pure (a : α) :
    Holds held (pure a : Routine ε ρ Operation.Reply Resource α) := fun _ => rfl

/-- An exception takes nothing. -/
theorem Holds.throw (e : ε) :
    Holds held (throw e : Routine ε ρ Operation.Reply Resource α) := fun _ => rfl

/-- Reading the local variables takes nothing. -/
theorem Holds.get : Holds held (get : Routine ε ρ Operation.Reply Resource ρ) := fun _ => rfl

/-- A loop whose body takes nothing. -/
theorem Holds.forM {items : List α} {body : α → Routine ε ρ Operation.Reply Resource PUnit}
    (h : ∀ item, Holds held (body item)) : Holds held (items.forM body) := by
  induction items with
  | nil => exact Holds.pure _
  | cons item items ih => exact (h item).bind fun _ => ih

/-- A routine and its handler. -/
theorem Holds.tryCatch {routine : Routine ε ρ Operation.Reply Resource α}
    {handler : ε → Routine ε ρ Operation.Reply Resource α} (h : Holds held routine)
    (hhandler : ∀ e, Holds held (handler e)) : Holds held (tryCatch routine handler) := by
  intro y
  refine Routine.wp_tryCatch (Script.wp_mono (h y) fun q held' hq => ?_)
  obtain ⟨result, y'⟩ := q
  subst hq
  cases result with
  | ok a => rfl
  | error e => exact hhandler e y'

/-! ## The functions -/

end VideoProcessing
