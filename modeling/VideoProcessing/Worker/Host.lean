import VideoProcessing.Worker.Pool
import VideoProcessing.Worker.Scripts

/-!
# Workers running the scripts

Any number of activity functions on one video, as scripts suspended at their awaits, over the rows
and objects of the video. An await ends as the database, S3 or the child process answers, or by a
cancellation of the activity; a killed worker takes its activities and their children with it.

The operations of a script are all a worker sees of it, so every interleaving of their ends is a run
of the host. Row locks are as in the pool of phases.
-/

namespace VideoProcessing

open Python Coroutine

/-- How an await ends. -/
inductive Event where
  | ok (now : Time)
  /-- a child process ends -/
  | exited (returncode : ℤ) (stdout : Str) (now : Time)
  | error
  /-- no database connection could be had -/
  | noConnection
  /-- the activity is cancelled -/
  | cancelled
  /-- the activity is cancelled when its child's exit has been seen already -/
  | cancelledLate
deriving DecidableEq

/-- The await ends because what it waits for has happened. -/
def Event.waits : Event → Bool
  | .error | .cancelled | .cancelledLate => false
  | _ => true

/-- How a call ends, and what it does to the rows and the objects. -/
def Awaitable.respond (st : Store) : (c : Awaitable) → Event → Option (Store × CallEnd c.Value)
  -- no await, so no cancellation arrives
  | .makeDir, .cancelled | .removeDir, .cancelled => none
  | _, .cancelled => some (st, .cancelled)
  | .getVideo, .ok now => some (st, .ok (some st.rows.video) now)
  | .selectJob t, .ok now => some (st, .ok (st.rows.jobs t) now)
  | .insertJob t, .ok now =>
    match st.rows.jobs t with
    | none =>
      let jobs := Function.update st.rows.jobs t (some ProcessingJob.new)
      some ({ st with rows := { st.rows with jobs := jobs } }, .ok true now)
    | some _ => some (st, .ok false now)
  | .commit t f, .ok now =>
    if f.tx = .broken then some (st, .raised .pendingRollback false)
    else if f.accepted st.rows then some ({ st with rows := f.commit t st.rows }, .ok () now)
    else none
  | .commit _ f, .error => if f.tx = .broken then none else some (st, .raised .database true)
  | .upload _ key, .ok now => some ({ st with objects := key :: st.objects }, .ok () now)
  | .makeDir, .ok now | .removeDir, .ok now | .openClient, .ok now | .closeClient, .ok now
  | .download _, .ok now | .spawn _, .ok now | .closeSession, .ok now => some (st, .ok () now)
  | .makeDir, .error | .removeDir, .error | .openClient, .error | .closeClient, .error
  | .download _, .error | .spawn _, .error | .upload .., .error => some (st, .raised .io false)
  | .closeSession, .error => some (st, .raised .database false)
  | .selectAsset _ a, .ok now => some (st, .ok (st.rows.assets a) now)
  | .selectAsset tx _, .noConnection =>
    if tx = .idle then some (st, .raised .database false) else none
  | .flush _ f, .ok now => if f.accepted st.rows then some (st, .ok () now) else none
  | .countCompleted t f, .ok now =>
    some (st, .ok (allJobsCompleted (f.flushed.apply t st.rows)) now)
  | .getVideo, .error | .selectJob _, .error | .insertJob _, .error | .selectAsset .., .error
  | .flush .., .error | .countCompleted .., .error => some (st, .raised .database true)
  | _, _ => none

/-- ffprobe's output is in the model: no exception, and dimensions that are integers, or an
exception. -/
def readable (decimal : ℕ → Option ℕ) (stdout : Str) : Bool :=
  (extractMetadata decimal stdout).toOption.all fun e => e.metadata?.isSome

def Operation.respond (decimal : ℕ → Option ℕ) (st : Store) :
    (op : Operation) → Event → Option (Store × op.Reply)
  | .call c, ev => c.respond st ev
  | .communicate _, .cancelled => some (st, .cancelled false)
  | .communicate _, .cancelledLate => some (st, .cancelled true)
  | .communicate command, .exited returncode stdout now =>
    if command = .ffprobe ∧ returncode = 0 ∧ ¬ readable decimal stdout then none
    else some (st, .exited returncode stdout now)
  | .communicate _, _ => none
  | .wait, _ => some (st, ())

/-! ## Row locks -/

/-- The locks the awaited statement needs. -/
def Operation.wanted : Operation → List RowLock
  | .call (.commit t f) => if f.tx = .broken then [] else f.pending.locks t
  | .call (.flush t f) => f.pending.locks t
  | _ => []

/-- The locks its transaction holds. -/
def Operation.locks : Operation → List RowLock
  | .call (.commit t f) => if f.tx = .broken then [] else f.flushed.locks t
  | .call (.countCompleted t f) => f.flushed.locks t
  | _ => []

/-! ## The host -/

/-- The script of an activity function. -/
abbrev ActivityScript : Type :=
  Script Operation.Reply Resource (Except Interrupt (Option VideoMetadata) × Time)

/-- An activity function that has been started. -/
structure Fiber where
  activity : Activity
  code : ActivityScript
  held : List Resource

/-- Run a script to its next await. -/
def Fiber.goOn (activity : Activity) (code : ActivityScript) (held : List Resource) : Fiber :=
  ⟨activity, (code.settle held).1, (code.settle held).2⟩

def Fiber.locks (fiber : Fiber) : List RowLock :=
  match fiber.code with
  | .await op _ => op.locks
  | _ => []

structure Host where
  videoId : UUID
  store : Store
  fibers : List Fiber

inductive HostLabel where
  /-- a worker starts an activity function -/
  | begin (act : Activity)
  /-- the await of fiber `i` ends -/
  | resume (i : ℕ) (ev : Event)
  /-- the worker of fiber `i` is killed -/
  | kill (i : ℕ)
deriving DecidableEq

/-- A video just created, without activities. -/
def Host.created (videoId : UUID) (filename originalObjectKey : Str) : Host where
  videoId := videoId
  store := ⟨.new (.new filename originalObjectKey), []⟩
  fibers := []

variable (decimal : ℕ → Option ℕ)

/-- Another fiber's open transaction holds a lock that fiber `i`'s statement needs. -/
def Host.blocked (h : Host) (i : ℕ) (wanted : List RowLock) : Bool :=
  (h.fibers.eraseIdx i).any fun b => b.locks.any fun lock => wanted.contains lock

def Host.begin (h : Host) (act : Activity) : Host :=
  { h with fibers := h.fibers ++ [.goOn act (act.script decimal h.videoId 0) []] }

def Host.resume (h : Host) (i : ℕ) (ev : Event) : Option Host :=
  h.fibers[i]?.bind fun fiber =>
    match fiber.code with
    | .await op rest =>
      if ev.waits ∧ h.blocked i op.wanted then none
      else (op.respond decimal h.store ev).map fun (st, reply) =>
        { h with
          store := st
          fibers := h.fibers.set i (.goOn fiber.activity (rest reply) fiber.held) }
    | _ => none

def Host.kill (h : Host) (i : ℕ) : Option Host :=
  h.fibers[i]?.map fun fiber =>
    { h with fibers := h.fibers.set i ⟨fiber.activity, .done (.error .cancelled, 0), []⟩ }

def Host.step (h : Host) : HostLabel → Option Host
  | .begin act => some (h.begin decimal act)
  | .resume i ev => h.resume decimal i ev
  | .kill i => h.kill i

end VideoProcessing
