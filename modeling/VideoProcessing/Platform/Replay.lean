import VideoProcessing.Library.Replay
import VideoProcessing.Platform.Progress

/-!
# The workflow as replayed code

`VideoProcessingWorkflow.run` as the code it is, executed again from its beginning on every workflow
task, against the activities the server has recorded. In every reachable state it asks for what the
server did ask workers for, and goes on with the command the platform carries out.

The history of an execution determines what the replayed code awaits. It is enough to follow the
code through the histories that occur: no result, one, both siblings', and the transcode's.
-/

namespace VideoProcessing

open Python UnitOfWork Transitions

/-- What an awaited activity gives the workflow: its result, or the exception it raises. -/
abbrev ActivityOutcome := Except ActivityError (Option VideoMetadata)

def ActivityOutcome.exception? : ActivityOutcome → Option ActivityError
  | .ok _ => none
  | .error error => some error

/-- Workflow code that returns nothing or raises. -/
abbrev WorkflowCode := Durable.Workflow Activity ActivityOutcome (Except ActivityError Unit)

/-- The workflow ends with the first exception among the results, or goes on. -/
def raiseFirst (results : List ActivityOutcome) (next : WorkflowCode) : WorkflowCode :=
  match results.findSome? ActivityOutcome.exception? with
  | some error => .done (.error error)
  | none => next

/-- `VideoProcessingWorkflow.run` after its `asyncio.gather`. -/
def VideoProcessingWorkflow.afterGather (results : List ActivityOutcome) : WorkflowCode :=
  raiseFirst results <|
    match results.head? with
    | some (.ok (some metadata)) =>
      .await [.transcode metadata.height] fun results => raiseFirst results (.done (.ok ()))
    -- `metadata.height` on None
    | _ => .fault

/-- `VideoProcessingWorkflow.run`. -/
def VideoProcessingWorkflow.code : WorkflowCode :=
  -- `asyncio.gather(..., return_exceptions=True)`
  .await [.extractMetadata, .generateThumbnail] VideoProcessingWorkflow.afterGather

/-- A scheduled activity as the server has recorded it. -/
def Task.record (task : Task) : Activity × Option ActivityOutcome := (task.activity, task.result?)

/-- The activities of an execution in the order they were scheduled. -/
def Tasks.history (tasks : Tasks) : Durable.History Activity ActivityOutcome :=
  JobType.members.filterMap fun t => (tasks t).map Task.record

/-- What executing the code comes to when the platform carries out this command. -/
def Command.replay : Command → Durable.Replay Activity (Except ActivityError Unit)
  | .wait => .blocked []
  | .executeTranscode sourceHeight => .blocked [.transcode sourceHeight]
  | .complete => .finished (.ok ())
  | .fail error => .finished (.error error)

/-- How the server closes an execution whose code has ended this way. -/
def closedAs : Except ActivityError Unit → ExecutionStatus
  | .ok _ => .completed
  | .error _ => .failed

variable {s s' : State} {l : Label} {tasks : Tasks} {task : Task} {t : JobType}

/-! ## The record -/

/-- Only a transcode has an argument of its own. -/
theorem Activity.eq_of_jobType {act act' : Activity} (h : act.jobType = act'.jobType)
    (ht : act'.jobType ≠ .transcode) : act = act' := by
  cases act' with
  | transcode => exact absurd rfl ht
  | extractMetadata | generateThumbnail =>
    cases act <;> first | rfl | cases h

/-- The history of the two activities and what came after them. -/
theorem Tasks.history_eq {metadata thumbnail : Task} (hmetadata : tasks .metadata = some metadata)
    (hthumbnail : tasks .thumbnail = some thumbnail) : tasks.history =
      metadata.record :: thumbnail.record :: ((tasks .transcode).map Task.record).toList := by
  simp only [Tasks.history, JobType.members, List.filterMap_cons, List.filterMap_nil, hmetadata,
    hthumbnail, Option.map_some]
  cases tasks .transcode <;> rfl

/-- Both activities the workflow begins with are recorded, the transcode where it is scheduled. -/
theorem State.Paid.history (h : s.Paid) (hcurrent : s.temporal.current = some tasks) :
    tasks.history = (.extractMetadata, tasks.result? .metadata) ::
      (.generateThumbnail, tasks.result? .thumbnail) ::
        ((tasks .transcode).map Task.record).toList := by
  have hboth := (h.tasks tasks hcurrent).both
  obtain ⟨metadata, hmetadata⟩ := Option.ne_none_iff_exists'.mp (hboth .metadata (by decide))
  obtain ⟨thumbnail, hthumbnail⟩ := Option.ne_none_iff_exists'.mp (hboth .thumbnail (by decide))
  have hfaithful := (h.faithful.tasks tasks hcurrent).activity
  have hact : metadata.activity = .extractMetadata :=
    Activity.eq_of_jobType (hfaithful _ _ hmetadata).1 (by decide)
  have hact' : thumbnail.activity = .generateThumbnail :=
    Activity.eq_of_jobType (hfaithful _ _ hthumbnail).1 (by decide)
  rw [Tasks.history_eq hmetadata hthumbnail, Task.record, Task.record, hact, hact', Tasks.result?,
    Tasks.result?, hmetadata, hthumbnail, Option.bind_some, Option.bind_some]

/-! ## Replaying it -/

variable {metadata thumbnail : Option ActivityOutcome}
  {rest : Durable.History Activity ActivityOutcome}

/-- While one of the first two activities is under way the code waits. -/
theorem replay_code_pending (h : metadata = none ∨ thumbnail = none) :
    VideoProcessingWorkflow.code.replay
        ((.extractMetadata, metadata) :: (.generateThumbnail, thumbnail) :: rest) =
      if rest.isEmpty then .blocked [] else .nondeterministic := by
  rcases h with rfl | rfl
  · rfl
  · cases metadata <;> rfl

/-- The code goes on once both have an outcome. -/
theorem replay_code_settled (metadata thumbnail : ActivityOutcome) :
    VideoProcessingWorkflow.code.replay
        ((.extractMetadata, some metadata) :: (.generateThumbnail, some thumbnail) :: rest) =
      (VideoProcessingWorkflow.afterGather [metadata, thumbnail]).replay rest := rfl

/-- The code after the two activities, with the transcode's record. -/
theorem replay_transcode {m : VideoMetadata} {result : Option VideoMetadata} {task : Task}
    (hne : (VideoProcessingWorkflow.afterGather [.ok (some m), .ok result]).replay [task.record] ≠
      .nondeterministic) :
    (VideoProcessingWorkflow.afterGather [.ok (some m), .ok result]).replay [task.record] =
      match task.result? with
      | none => .blocked []
      | some (.ok _) => .finished (.ok ())
      | some (.error error) => .finished (.error error) := by
  have hgather : VideoProcessingWorkflow.afterGather [.ok (some m), .ok result] =
      .await [.transcode m.height] fun results => raiseFirst results (.done (.ok ())) := rfl
  rw [hgather, Task.record] at hne ⊢
  by_cases hact : task.activity = .transcode m.height
  · have hcalls : [(Activity.transcode m.height, task.result?)].map Prod.fst =
        [.transcode m.height] := rfl
    rw [hact, ← List.append_nil [(Activity.transcode m.height, task.result?)],
      Durable.Workflow.replay_await _ _ hcalls]
    cases task.result? with
    | none => rfl
    | some outcome => cases outcome <;> rfl
  · refine absurd ?_ hne
    simp [Durable.Workflow.replay, hact]

/-- The code waits for both activities, and so does the platform. -/
theorem replay_pending (h : metadata = none ∨ thumbnail = none)
    (hne : VideoProcessingWorkflow.code.replay
      ((.extractMetadata, metadata) :: (.generateThumbnail, thumbnail) :: rest) ≠
        .nondeterministic) :
    VideoProcessingWorkflow.code.replay
      ((.extractMetadata, metadata) :: (.generateThumbnail, thumbnail) :: rest) = .blocked [] := by
  rw [replay_code_pending h] at hne ⊢
  split
  · rfl
  · rename_i hrest
    exact absurd (if_neg hrest) hne

/-- The workflow waits for both. -/
theorem run_of_pending (h : tasks.result? .metadata = none ∨ tasks.result? .thumbnail = none) :
    VideoProcessingWorkflow.run tasks = .wait := by
  rcases h with h | h
  · simp only [VideoProcessingWorkflow.run, h]
  · cases hmetadata : tasks.result? .metadata <;>
      simp only [VideoProcessingWorkflow.run, hmetadata, h]

/-- Once both are settled, the code raises the first exception among them, or goes on to the
transcode. -/
theorem replay_settled {metadata thumbnail : ActivityOutcome}
    (hmetadata : tasks.result? .metadata = some metadata)
    (hthumbnail : tasks.result? .thumbnail = some thumbnail)
    (hne : (VideoProcessingWorkflow.afterGather [metadata, thumbnail]).replay
      ((tasks .transcode).map Task.record).toList ≠ .nondeterministic)
    (hvalue : metadata ≠ .ok none) :
    (VideoProcessingWorkflow.afterGather [metadata, thumbnail]).replay
        ((tasks .transcode).map Task.record).toList =
      (VideoProcessingWorkflow.run tasks).replay := by
  cases metadata with
  | error error =>
    -- gather raises the first error, whatever the other activity did
    have hgather : VideoProcessingWorkflow.afterGather [.error error, thumbnail] =
        .done (.error error) := rfl
    rw [hgather] at hne ⊢
    rw [Durable.Workflow.replay_done hne]
    simp only [VideoProcessingWorkflow.run, hmetadata, hthumbnail, Command.replay]
  | ok metadata =>
    cases thumbnail with
    | error error =>
      have hgather : VideoProcessingWorkflow.afterGather [.ok metadata, .error error] =
          .done (.error error) := rfl
      rw [hgather] at hne ⊢
      rw [Durable.Workflow.replay_done hne]
      simp only [VideoProcessingWorkflow.run, hmetadata, hthumbnail, Command.replay]
    | ok result =>
      cases metadata with
      | none => exact absurd rfl hvalue
      | some m =>
        cases htranscode : tasks .transcode with
        | none =>
          simp only [VideoProcessingWorkflow.run, hmetadata, hthumbnail, htranscode]
          rfl
        | some task =>
          rw [htranscode] at hne
          have hreplay := replay_transcode hne
          rw [Option.map_some, Option.toList_some, hreplay]
          simp only [VideoProcessingWorkflow.run, hmetadata, hthumbnail, htranscode]
          cases task.result? with
          | none => rfl
          | some outcome => cases outcome <;> rfl

/-- An execution of the code against the record comes to the command the platform carries out. -/
theorem State.Paid.replay (h : s.Paid) (hcurrent : s.temporal.current = some tasks)
    (hleaves : VideoProcessingWorkflow.code.Leaves tasks.history) :
    VideoProcessingWorkflow.code.replay tasks.history =
      (VideoProcessingWorkflow.run tasks).replay := by
  have hne := hleaves.replay_ne
  rw [h.history hcurrent] at hne ⊢
  cases hmetadata : tasks.result? .metadata with
  | none =>
    rw [hmetadata] at hne
    rw [replay_pending (.inl rfl) hne, run_of_pending (.inl hmetadata)]
    rfl
  | some metadata =>
    cases hthumbnail : tasks.result? .thumbnail with
    | none =>
      rw [hmetadata, hthumbnail] at hne
      rw [replay_pending (.inr rfl) hne, run_of_pending (.inr hthumbnail)]
      rfl
    | some thumbnail =>
      rw [hmetadata, hthumbnail, replay_code_settled] at hne
      rw [replay_code_settled]
      refine replay_settled hmetadata hthumbnail hne ?_
      rintro rfl
      obtain ⟨task, htask, hstate⟩ := Tasks.result?_eq_ok.mp hmetadata
      exact absurd rfl ((h.tasks tasks hcurrent).result task none htask hstate)

/-! ## The platform carries the code out -/

/-- The place of an activity in the record. -/
def JobType.position : JobType → ℕ
  | .metadata => 0
  | .thumbnail => 1
  | .transcode => 2

/-- An activity that has not settled is replaced by one that may have. -/
theorem Tasks.Scheduled.history_update (h : tasks.Scheduled) (htask : tasks t = some task)
    {task' : Task} (hact : task'.activity = task.activity) (hnone : task.result? = none) :
    tasks.history[t.position]? = some (task.activity, none) ∧
      Tasks.history (Function.update tasks t (some task')) =
        tasks.history.set t.position (task.activity, task'.result?) := by
  obtain ⟨metadata, hmetadata⟩ := Option.ne_none_iff_exists'.mp (h.both .metadata (by decide))
  obtain ⟨thumbnail, hthumbnail⟩ := Option.ne_none_iff_exists'.mp (h.both .thumbnail (by decide))
  have hrecord : task.record = (task.activity, none) := by rw [Task.record, hnone]
  have hrecord' : task'.record = (task.activity, task'.result?) := by rw [Task.record, hact]
  have hself : Function.update tasks t (some task') t = some task' := Function.update_self ..
  have hne {t' : JobType} (ht : t' ≠ t) : Function.update tasks t (some task') t' = tasks t' :=
    Function.update_of_ne ht ..
  -- the history has the two siblings first and the transcode after them
  rw [Tasks.history_eq hmetadata hthumbnail]
  cases t with
  | metadata =>
    obtain rfl := Option.some.inj (htask.symm.trans hmetadata)
    refine ⟨congrArg some hrecord, ?_⟩
    rw [Tasks.history_eq hself ((hne (by decide)).trans hthumbnail), hne (by decide), hrecord']
    rfl
  | thumbnail =>
    obtain rfl := Option.some.inj (htask.symm.trans hthumbnail)
    refine ⟨congrArg some hrecord, ?_⟩
    rw [Tasks.history_eq ((hne (by decide)).trans hmetadata) hself, hne (by decide), hrecord']
    rfl
  | transcode =>
    rw [htask]
    refine ⟨congrArg some hrecord, ?_⟩
    rw [Tasks.history_eq ((hne (by decide)).trans hmetadata) ((hne (by decide)).trans hthumbnail),
      hself, Option.map_some, hrecord']
    rfl

/-- The record of the open execution is one a run of the code has left. -/
structure State.Replays (s : State) : Prop where
  paid : s.Paid
  reached : ∀ tasks, s.temporal.current = some tasks →
    Reaches VideoProcessingWorkflow.code.step .initial ⟨tasks.history, none⟩

/-- The history is one the code leaves. -/
theorem State.Replays.leaves (h : s.Replays) (hcurrent : s.temporal.current = some tasks) :
    VideoProcessingWorkflow.code.Leaves tasks.history := by
  obtain ⟨ms, hms⟩ := h.reached tasks hcurrent
  exact Durable.Workflow.leaves_of_exec hms

/-- The code's next execution is a step of the server. -/
theorem State.Replays.execute (h : s.Replays) (hcurrent : s.temporal.current = some tasks)
    {commands : List Activity}
    (hrun : (VideoProcessingWorkflow.run tasks).replay = .blocked commands) :
    VideoProcessingWorkflow.code.step ⟨tasks.history, none⟩ .task =
      some ⟨tasks.history ++ commands.map fun call => (call, none), none⟩ := by
  have hreplay := (h.paid.replay hcurrent (h.leaves hcurrent)).trans hrun
  simp only [Durable.Workflow.step, hreplay]

/-- Every step adds to the history what the code does. -/
theorem State.Replays.step (h : s.Replays) (hstep : s.step l = some s') : s'.Replays := by
  have hpaid := h.paid.step hstep
  -- a settled or still running task is one step of the history, or none
  have hset {t : JobType} {tasks tasks' : Tasks} {task : Task} {state : TaskState}
      (hcurrent : s.temporal.current = some tasks) (htask : tasks t = some task)
      (hnone : task.result? = none)
      (htasks' : (s.temporal.setTask t tasks task state).current = some tasks') :
      Reaches VideoProcessingWorkflow.code.step .initial ⟨tasks'.history, none⟩ := by
    obtain rfl := Option.some.inj htasks'
    obtain ⟨hget, hhistory⟩ := (h.paid.tasks tasks hcurrent).history_update htask
      (show Task.activity { task with state := state } = task.activity from rfl) hnone
    rw [hhistory]
    exact (h.reached tasks hcurrent).trans (Durable.Workflow.reaches_settle _ hget _)
  have hrunning {task : Task} {failures i : ℕ} (hstate : task.state = .running failures i) :
      task.result? = none := by rw [Task.result?, hstate]
  cases State.step_moves hstep with
  | dispatch hcurrent htask hstate =>
    exact ⟨hpaid, fun tasks' => hset hcurrent htask (by rw [Task.result?, hstate])⟩
  | reportReturned hcurrent htask hstate | reportRaised hcurrent htask hstate
  | timeOut hcurrent htask hstate =>
    exact ⟨hpaid, fun tasks' => hset hcurrent htask (hrunning hstate)⟩
  | decide hdecides =>
    refine ⟨hpaid, fun tasks' htasks' => ?_⟩
    cases hdecides with
    | @schedule tasks sourceHeight hcurrent hrun =>
      obtain rfl := Option.some.inj htasks'
      obtain ⟨-, -, -, -, hnone, -⟩ := run_eq_executeTranscode hrun
      have htask := h.execute hcurrent (congrArg Command.replay hrun)
      -- the transcode activity is the third entry of the history
      have hschedule : Tasks.history (Function.update tasks .transcode
          (some ⟨.transcode sourceHeight, .waiting 0⟩)) =
            tasks.history ++ [(.transcode sourceHeight, none)] := by
        obtain ⟨metadata, hmetadata⟩ :=
          Option.ne_none_iff_exists'.mp ((h.paid.tasks tasks hcurrent).both .metadata (by decide))
        obtain ⟨thumbnail, hthumbnail⟩ :=
          Option.ne_none_iff_exists'.mp ((h.paid.tasks tasks hcurrent).both .thumbnail (by decide))
        rw [Tasks.history_eq hmetadata hthumbnail, hnone]
        exact Tasks.history_eq hmetadata hthumbnail
      rw [hschedule]
      exact (h.reached tasks hcurrent).trans (.step htask)
    | complete | fail => cases htasks'
  | start hd hstart =>
    obtain ⟨-, -, rfl⟩ := Temporal.startWorkflow_eq_some.mp hstart
    refine ⟨hpaid, fun tasks' htasks' => ?_⟩
    obtain rfl := Option.some.inj htasks'
    -- the first workflow task schedules the two siblings
    have hfirst : VideoProcessingWorkflow.code.step .initial .task =
        some ⟨Tasks.initial.history, none⟩ := rfl
    exact .step hfirst
  | resume hpool =>
    obtain ⟨_, _, _, -, -, rfl⟩ := Pool.resume_eq_some hpool
    exact ⟨hpaid, h.reached⟩
  | vanish hpool =>
    obtain ⟨_, -, rfl⟩ := Pool.vanish_eq_some hpool
    exact ⟨hpaid, h.reached⟩
  | _ => exact ⟨hpaid, h.reached⟩

/-- So does every run. -/
theorem State.exec_replays {videoId : UUID} {filename key : Str} {ls : List Label}
    (hrun : exec State.step (.created videoId filename key) ls = some s) : s.Replays := by
  refine exec_invariant (fun _ _ _ hq hstep => State.Replays.step hq hstep) ⟨?_, ?_⟩ hrun
  · exact State.paid_created videoId filename key
  · exact fun tasks htasks => by cases htasks

/-- **The platform runs the workflow's code.** In every reachable state with an open execution the
activities the server has recorded are those of a run of the code, which therefore agrees with them
when it is executed again from its beginning, and comes to the command the platform carries out. An
execution closes as executing the code once on the recorded outcomes ends. -/
theorem workflow_replays {videoId : UUID} {filename key : Str} {ls : List Label} {s : State}
    {tasks : Tasks} (hrun : exec State.step (.created videoId filename key) ls = some s)
    (hcurrent : s.temporal.current = some tasks) :
    (∃ ms, exec VideoProcessingWorkflow.code.step .initial ms = some ⟨tasks.history, none⟩) ∧
    VideoProcessingWorkflow.code.replay tasks.history =
      (VideoProcessingWorkflow.run tasks).replay ∧
    ∀ s' answer, s.step .decide = some s' → s'.temporal.current = none →
      Durable.Answers answer 0 tasks.history →
      ∃ result, VideoProcessingWorkflow.code.direct answer 0 = some result ∧
        s'.temporal.closed = closedAs result :: s.temporal.closed := by
  have h := State.exec_replays hrun
  have hreplay := h.paid.replay hcurrent (h.leaves hcurrent)
  obtain ⟨ms, hms⟩ := h.reached tasks hcurrent
  refine ⟨⟨ms, hms⟩, hreplay, fun s' answer hdecide hclosed hanswers => ?_⟩
  -- the execution that ends the workflow is one more step of the server
  have hends {result : Except ActivityError Unit}
      (hrun : (VideoProcessingWorkflow.run tasks).replay = .finished result) :
      VideoProcessingWorkflow.code.direct answer 0 = some result := by
    have hstep : VideoProcessingWorkflow.code.step ⟨tasks.history, none⟩ .task =
        some ⟨tasks.history, some result⟩ := by
      simp only [Durable.Workflow.step, hreplay, hrun]
    have hexec : exec VideoProcessingWorkflow.code.step .initial (ms ++ [.task]) =
        some ⟨tasks.history, some result⟩ := by
      rw [exec_append, hms, Option.bind_some, exec_cons, hstep, Option.bind_some, exec_nil]
    exact Durable.Workflow.exec_direct hexec rfl hanswers
  cases State.step_moves hdecide with
  | decide hdecides =>
    cases hdecides with
    | schedule => cases hclosed
    | complete hopen hrun =>
      obtain rfl := Option.some.inj (hcurrent.symm.trans hopen)
      exact ⟨.ok (), hends (congrArg Command.replay hrun), rfl⟩
    | fail hopen hrun =>
      obtain rfl := Option.some.inj (hcurrent.symm.trans hopen)
      exact ⟨.error _, hends (congrArg Command.replay hrun), rfl⟩

/-- An execution that is about to close. -/
theorem workflow_replays_clip : ∃ s tasks,
    exec State.step State.clip State.processing.dropLast = some s ∧
    s.temporal.current = some tasks ∧
    (∃ ms, exec VideoProcessingWorkflow.code.step .initial ms = some ⟨tasks.history, none⟩) ∧
    VideoProcessingWorkflow.code.replay tasks.history =
      (VideoProcessingWorkflow.run tasks).replay ∧
    ∀ s' answer, s.step .decide = some s' → s'.temporal.current = none →
      Durable.Answers answer 0 tasks.history →
      ∃ result, VideoProcessingWorkflow.code.direct answer 0 = some result ∧
        s'.temporal.closed = closedAs result :: s.temporal.closed := by
  have hruns : (exec State.step State.clip State.processing.dropLast).any fun s =>
      s.temporal.current.isSome := by decide +kernel
  obtain ⟨s, hrun, hopen⟩ := (Option.any_eq_true _ _).mp hruns
  obtain ⟨tasks, hcurrent⟩ := Option.isSome_iff_exists.mp hopen
  exact ⟨s, tasks, hrun, hcurrent, workflow_replays hrun hcurrent⟩

end VideoProcessing
