import VideoProcessing.Worker.Pool
import VideoProcessing.Worker.Workflow

/-!
# The platform around one video

The database rows and activity attempts of one video, its workflow executions, the messages on the
queue that name it with their deliveries to the shim, and the requests to `POST /videos/{id}/retry`.
`State.step` interleaves all of them.
-/

namespace VideoProcessing

open Python UnitOfWork

/-! ## The queue and the shim -/

/-- How `_start_processing` returned. -/
inductive StartOutcome where
  | started
  | alreadyStarted
deriving DecidableEq, Repr

/-- Who put a message on the queue. -/
inductive Origin where
  /-- S3, for the upload -/
  | upload
  /-- `retry_video`, in this request -/
  | retry (request : ℕ)
deriving DecidableEq, Repr

structure Message where
  origin : Origin
  /-- how the start went before the shim deleted the message; `none` while it is on the queue -/
  deleted : Option StartOutcome
deriving DecidableEq, Repr

/-- One delivery of a message, handled by `_handle_message`. -/
inductive DeliveryPhase where
  | starting
  | deleting (outcome : StartOutcome)
  | over
deriving DecidableEq, Repr

structure Delivery where
  message : ℕ
  phase : DeliveryPhase
deriving DecidableEq, Repr

/-- How the call of `start_workflow` ends. -/
inductive StartReply where
  | received
  /-- the server has acted, but the call raises -/
  | lost
  /-- the call raises and the server has not acted -/
  | failed
deriving DecidableEq, Repr

/-! ## `retry_video` -/

/-- The await a request to retry is suspended in. -/
inductive RetryPhase where
  | read
  | send (video : Tracked Video)
  | commit (video : Tracked Video)
  | returned
  /-- `VideoNotFailedError`, answered 409 -/
  | notFailed
  | raised
deriving DecidableEq

structure State where
  pool : Pool
  temporal : Temporal
  messages : List Message
  deliveries : List Delivery
  requests : List RetryPhase

/-- The platform after `create_video`, before S3 has notified anyone of the upload. -/
def State.created (videoId : UUID) (filename originalObjectKey : Str) : State where
  pool := .created videoId filename originalObjectKey
  temporal := ⟨[], none⟩
  messages := []
  deliveries := []
  requests := []

abbrev State.rows (s : State) : VideoRows := s.pool.store.rows

/-- `videos.status`. -/
abbrev State.status (s : State) : VideoStatus := s.rows.video.status

def State.withVideo (s : State) (video : Video) : State :=
  { s with pool := { s.pool with
      store := { s.pool.store with rows := { s.rows with video := video } } } }

/-- Run request `r` to its next await; with `ok = false` the awaited call raises. -/
def State.retryStep (s : State) (r : ℕ) (ok : Bool) : Option State :=
  match s.requests[r]?, ok with
  | some .read, true =>
    let video := Tracked.fresh s.rows.video
    if video.current.status ≠ .failed then
      some { s with requests := s.requests.set r .notFailed }
    else some { s with requests := s.requests.set r (.send video) }
  | some (.send video), true =>
    some { s with
      messages := s.messages ++ [⟨.retry r, none⟩]
      requests := s.requests.set r (.commit (video.modify ({ · with status := .processing }))) }
  | some (.commit video), true =>
    if s.pool.blocked s.pool.attempts.length [.video] then none
    else
      let s' := s.withVideo ((dirtyVideo video).apply s.rows.video)
      some { s' with requests := s.requests.set r .returned }
  | some .read, false | some (.send _), false | some (.commit _), false =>
    some { s with requests := s.requests.set r .raised }
  | _, _ => none

/-- A request arrives. -/
def State.retryBegin (s : State) : State := { s with requests := s.requests ++ [.read] }

/-- A whole request at one moment: read, send, commit. -/
def State.retryVideo (s : State) : Option State :=
  let r := s.requests.length
  (s.retryBegin.retryStep r true).bind fun s₁ =>
    if s₁.requests[r]? = some .notFailed then some s₁
    else (s₁.retryStep r true).bind fun s₂ => s₂.retryStep r true

/-! ## The steps -/

inductive Label where
  /-- an attempt runs to its next await -/
  | resume (i : ℕ) (ans : Answer)
  /-- an attempt is killed or cancelled -/
  | vanish (i : ℕ)
  /-- the server hands the next attempt of an activity to a worker -/
  | dispatch (t : JobType)
  /-- the running attempt of an activity reports how it ended -/
  | report (t : JobType)
  /-- the running attempt has exceeded `start_to_close_timeout`; it may still be alive -/
  | timeOut (t : JobType)
  /-- the workflow takes its next step -/
  | decide
  /-- S3 puts a notification of the upload on the queue -/
  | notify
  /-- the shim receives a message -/
  | receive (m : ℕ)
  | start (d : ℕ) (reply : StartReply)
  | delete (d : ℕ) (ok : Bool)
  | retryBegin
  | retryStep (r : ℕ) (ok : Bool)
  /-- a request to retry taken as one step -/
  | retryVideo
deriving DecidableEq

/-- Replace the state of a scheduled activity. -/
def Temporal.setTask (tp : Temporal) (t : JobType) (tasks : Tasks) (task : Task)
    (state : TaskState) : Temporal :=
  { tp with current := some (Function.update tasks t (some { task with state := state })) }

/-- The current execution and its activity of type `t`. -/
def Temporal.task? (tp : Temporal) (t : JobType) : Option (Tasks × Task) :=
  tp.current.bind fun tasks => (tasks t).map (tasks, ·)

def State.dispatch (s : State) (t : JobType) : Option State :=
  (s.temporal.task? t).bind fun (tasks, task) =>
    match task.state with
    | .waiting failures => some { s with
        temporal := s.temporal.setTask t tasks task (.running failures s.pool.attempts.length)
        pool := s.pool.begin task.activity }
    | _ => none

def State.report (s : State) (t : JobType) : Option State :=
  (s.temporal.task? t).bind fun (tasks, task) =>
    match task.state with
    | .running failures i =>
      match s.pool.attempts[i]?.map Attempt.phase with
      | some (.returned result) =>
        some { s with temporal := s.temporal.setTask t tasks task (.succeeded result) }
      | some (.raised error) =>
        some { s with temporal := s.temporal.setTask t tasks task (.fail failures error) }
      | _ => none
    | _ => none

def State.timeOut (s : State) (t : JobType) : Option State :=
  (s.temporal.task? t).bind fun (tasks, task) =>
    match task.state with
    | .running failures _ =>
      some { s with temporal := s.temporal.setTask t tasks task (.fail failures .timedOut) }
    | _ => none

def State.receive (s : State) (m : ℕ) : Option State :=
  s.messages[m]?.bind fun message =>
    if message.deleted = none then some { s with deliveries := s.deliveries ++ [⟨m, .starting⟩] }
    else none

def State.start (s : State) (d : ℕ) (reply : StartReply) : Option State :=
  s.deliveries[d]?.bind fun delivery =>
    if delivery.phase ≠ .starting then none
    else
      let set (phase : DeliveryPhase) : State :=
        { s with deliveries := s.deliveries.set d { delivery with phase := phase } }
      match reply, s.temporal.startWorkflow with
      | .received, some tp => some { set (.deleting .started) with temporal := tp }
      | .received, none => some (set (.deleting .alreadyStarted))
      | .lost, some tp => some { set .over with temporal := tp }
      | .lost, none => some (set .over)
      | .failed, _ => some (set .over)

def State.delete (s : State) (d : ℕ) (ok : Bool) : Option State :=
  s.deliveries[d]?.bind fun delivery =>
    match delivery.phase with
    | .deleting outcome =>
      let s' := { s with deliveries := s.deliveries.set d { delivery with phase := .over } }
      if ok then
        some { s' with
          messages := s.messages.modify delivery.message fun message =>
            { message with deleted := message.deleted.or (some outcome) } }
      else some s'
    | _ => none

def State.step (s : State) : Label → Option State
  | .resume i ans => (s.pool.resume i ans).map fun pool => { s with pool := pool }
  | .vanish i => (s.pool.vanish i).map fun pool => { s with pool := pool }
  | .dispatch t => s.dispatch t
  | .report t => s.report t
  | .timeOut t => s.timeOut t
  | .decide => s.temporal.decide.map fun tp => { s with temporal := tp }
  | .notify => some { s with messages := s.messages ++ [⟨.upload, none⟩] }
  | .receive m => s.receive m
  | .start d reply => s.start d reply
  | .delete d ok => s.delete d ok
  | .retryBegin => some s.retryBegin
  | .retryStep r ok => s.retryStep r ok
  | .retryVideo => s.retryVideo

end VideoProcessing
