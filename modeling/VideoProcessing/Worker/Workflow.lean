import VideoProcessing.Common.Temporal
import VideoProcessing.Worker.Activities

/-!
# The workflow

`worker/workflows.py` as a function of what its activities have reported, which is how Temporal
replays it, and the server's side: the state of each scheduled activity, its bounded attempts, and
the executions of the video's workflow ID.
-/

namespace VideoProcessing

/-- `_RETRY_POLICY.maximum_attempts`. -/
def maximumAttempts : ℕ := 3

/-- What the server knows of a scheduled activity. -/
inductive TaskState where
  /-- to be dispatched, after so many failed attempts -/
  | waiting (failures : ℕ)
  /-- dispatched as this attempt of the pool -/
  | running (failures : ℕ) (attempt : ℕ)
  | succeeded (result : Option VideoMetadata)
  | failed (error : ActivityError)
deriving DecidableEq

structure Task where
  activity : Activity
  state : TaskState
deriving DecidableEq

/-- The scheduled activities of an execution. -/
abbrev Tasks := JobType → Option Task

/-- A failed attempt: another one follows unless the budget is spent or the error forbids it. -/
def TaskState.fail (failures : ℕ) (error : ActivityError) : TaskState :=
  if error.nonRetryable ∨ maximumAttempts ≤ failures + 1 then .failed error
  else .waiting (failures + 1)

/-- The result an awaited `execute_activity` has by now. -/
def Task.result? (task : Task) : Option (Except ActivityError (Option VideoMetadata)) :=
  match task.state with
  | .succeeded result => some (.ok result)
  | .failed error => some (.error error)
  | _ => none

def Tasks.result? (tasks : Tasks) (t : JobType) :
    Option (Except ActivityError (Option VideoMetadata)) :=
  (tasks t).bind Task.result?

/-- What the workflow does next. -/
inductive Command where
  | wait
  | executeTranscode (sourceHeight : ℤ)
  | complete
  | fail (error : ActivityError)
deriving DecidableEq

/-- `VideoProcessingWorkflow.run`: metadata and thumbnail are gathered, the first error is raised
once both have settled, then the transcode is awaited. -/
def VideoProcessingWorkflow.run (tasks : Tasks) : Command :=
  match tasks.result? .metadata, tasks.result? .thumbnail with
  | some metadata, some thumbnail =>
    match metadata, thumbnail with
    | .error e, _ => .fail e
    | .ok _, .error e => .fail e
    -- `metadata.height` on None fails the workflow task, which Temporal repeats
    | .ok none, .ok _ => .wait
    | .ok (some m), .ok _ =>
      match tasks .transcode with
      | none => .executeTranscode m.height
      | some transcode =>
        match transcode.result? with
        | none => .wait
        | some (.ok _) => .complete
        | some (.error e) => .fail e
  | _, _ => .wait

/-- The activities the workflow schedules at once. -/
def Tasks.initial : Tasks
  | .metadata => some ⟨.extractMetadata, .waiting 0⟩
  | .thumbnail => some ⟨.generateThumbnail, .waiting 0⟩
  | .transcode => none

/-- The executions of one workflow ID. -/
structure Temporal where
  /-- how the closed ones ended, newest first -/
  closed : List ExecutionStatus
  /-- the open one -/
  current : Option Tasks

/-- The executions as the ID policies see them. -/
def Temporal.executions (tp : Temporal) : List ExecutionStatus :=
  (if tp.current.isSome then [.running] else []) ++ tp.closed

/-- `start_workflow` for the video; `none` is `WorkflowAlreadyStartedError`. -/
def Temporal.startWorkflow (tp : Temporal) : Option Temporal :=
  if startAccepted tp.executions then some { tp with current := some Tasks.initial } else none

/-- The execution carries out the workflow's next command. -/
def Temporal.decide (tp : Temporal) : Option Temporal :=
  tp.current.bind fun tasks =>
    match VideoProcessingWorkflow.run tasks with
    | .wait => none
    | .executeTranscode sourceHeight =>
      let task : Task := ⟨.transcode sourceHeight, .waiting 0⟩
      some { tp with current := some (Function.update tasks .transcode (some task)) }
    | .complete => some ⟨.completed :: tp.closed, none⟩
    | .fail _ => some ⟨.failed :: tp.closed, none⟩

/-! ## The workflow's commands -/

variable {tasks : Tasks} {t : JobType}

/-- The activity has succeeded. -/
theorem Tasks.result?_eq_ok {result : Option VideoMetadata} :
    tasks.result? t = some (.ok result) ↔
      ∃ task, tasks t = some task ∧ task.state = .succeeded result := by
  simp only [Tasks.result?, Option.bind_eq_some_iff, Task.result?]
  refine exists_congr fun task => and_congr_right fun _ => ?_
  cases task.state <;> simp

/-- The activity has failed. -/
theorem Tasks.result?_eq_error {error : ActivityError} :
    tasks.result? t = some (.error error) ↔
      ∃ task, tasks t = some task ∧ task.state = .failed error := by
  simp only [Tasks.result?, Option.bind_eq_some_iff, Task.result?]
  refine exists_congr fun task => and_congr_right fun _ => ?_
  cases task.state <;> simp

/-- The transcode is scheduled once both other activities have succeeded, with the height the
metadata activity returned. -/
theorem run_eq_executeTranscode {sourceHeight : ℤ}
    (h : VideoProcessingWorkflow.run tasks = .executeTranscode sourceHeight) :
    ∃ m result, tasks.result? .metadata = some (.ok (some m)) ∧
      tasks.result? .thumbnail = some (.ok result) ∧ tasks .transcode = none ∧
      sourceHeight = m.height := by
  simp only [VideoProcessingWorkflow.run] at h
  split at h
  · rename_i metadata thumbnail hmetadata hthumbnail
    split at h
    · exact nomatch h
    · exact nomatch h
    · exact nomatch h
    · rename_i m result
      split at h
      · rename_i hnone
        exact ⟨m, result, hmetadata, hthumbnail, hnone, (Command.executeTranscode.inj h).symm⟩
      · split at h <;> exact nomatch h
  · exact nomatch h

/-- The execution completes once the transcode has succeeded. -/
theorem run_eq_complete (h : VideoProcessingWorkflow.run tasks = .complete) :
    ∃ result, tasks.result? .transcode = some (.ok result) := by
  simp only [VideoProcessingWorkflow.run] at h
  split at h
  · split at h
    · exact nomatch h
    · exact nomatch h
    · exact nomatch h
    · split at h
      · exact nomatch h
      · rename_i transcode htranscode
        split at h
        · exact nomatch h
        · rename_i result hresult
          exact ⟨result, by rw [Tasks.result?, htranscode, Option.bind_some, hresult]⟩
        · exact nomatch h
  · exact nomatch h

/-- The execution fails with the error of an activity. -/
theorem run_eq_fail {error : ActivityError} (h : VideoProcessingWorkflow.run tasks = .fail error) :
    ∃ t, tasks.result? t = some (.error error) := by
  simp only [VideoProcessingWorkflow.run] at h
  split at h
  · rename_i metadata thumbnail hmetadata hthumbnail
    split at h
    · exact ⟨.metadata, Command.fail.inj h ▸ hmetadata⟩
    · exact ⟨.thumbnail, Command.fail.inj h ▸ hthumbnail⟩
    · exact nomatch h
    · split at h
      · exact nomatch h
      · rename_i transcode htranscode
        split at h
        · exact nomatch h
        · exact nomatch h
        · rename_i e hresult
          refine ⟨.transcode, ?_⟩
          rw [Tasks.result?, htranscode, Option.bind_some, hresult, Command.fail.inj h]
  · exact nomatch h

end VideoProcessing
