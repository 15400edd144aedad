import VideoProcessing.Library.Transitions
import VideoProcessing.Worker.Activities

/-!
# Attempts running side by side

Any number of activity attempts on one video, each with its own session, interleaved at their
awaits. Nothing keeps two attempts of one activity apart here: an attempt Temporal has given up on
may still be running. A statement waits while another transaction holds a lock on its rows.
-/

namespace VideoProcessing

open Python

/-- One execution of an activity function. -/
structure Attempt where
  activity : Activity
  phase : Phase
deriving DecidableEq

structure Pool where
  videoId : UUID
  store : Store
  attempts : List Attempt

inductive PoolLabel where
  /-- a worker starts an attempt -/
  | begin (act : Activity)
  /-- the await of attempt `i` ends -/
  | resume (i : ℕ) (ans : Answer)
  /-- attempt `i` is killed or cancelled -/
  | vanish (i : ℕ)
deriving DecidableEq

/-- The committed rows. -/
abbrev Pool.rows (p : Pool) : VideoRows := p.store.rows

/-- A video just created, without attempts. -/
def Pool.created (videoId : UUID) (filename originalObjectKey : Str) : Pool where
  videoId := videoId
  store := ⟨.new (.new filename originalObjectKey), []⟩
  attempts := []

/-- A video `clip.mp4`, just created. -/
def Pool.clip : Pool :=
  .created ⟨7⟩ (str "clip.mp4") (str "uploads/00000000-0000-0000-0000-000000000007/original.mp4")

/-- Another attempt's open transaction holds a lock that attempt `i`'s statement needs. -/
def Pool.blocked (p : Pool) (i : ℕ) (wanted : List RowLock) : Bool :=
  (p.attempts.eraseIdx i).any fun b =>
    (b.phase.held b.activity.jobType).any fun lock => wanted.contains lock

/-- Attempt `i` runs to its next await. -/
def Pool.resume (p : Pool) (i : ℕ) (ans : Answer) : Option Pool :=
  p.attempts[i]?.bind fun a =>
    if ans ≠ .error ∧ p.blocked i (a.phase.wanted a.activity.jobType) then none
    else (a.phase.step p.videoId a.activity p.store ans).map fun (st, ph) =>
      { p with store := st, attempts := p.attempts.set i { a with phase := ph } }

def Pool.begin (p : Pool) (act : Activity) : Pool :=
  { p with attempts := p.attempts ++ [⟨act, .loadVideo⟩] }

def Pool.vanish (p : Pool) (i : ℕ) : Option Pool :=
  p.attempts[i]?.map fun a => { p with attempts := p.attempts.set i { a with phase := .vanished } }

def Pool.step (p : Pool) : PoolLabel → Option Pool
  | .begin act => some (p.begin act)
  | .resume i ans => p.resume i ans
  | .vanish i => p.vanish i

/-- The attempts run on; no other begins. -/
def Pool.proceed (p : Pool) (l : ℕ × Answer) : Option Pool := p.resume l.1 l.2

end VideoProcessing
