import Mathlib.Data.List.Basic
import VideoProcessing.Library.Python

/-!
# The workflow ID policies

What `start_workflow` does with `ALLOW_DUPLICATE_FAILED_ONLY` and conflict policy `FAIL`, as the
Temporal server documents it: an open execution of the same ID and one that closed as Completed
both refuse the start. So whatever is started and closed, only the newest execution of an ID can be
open or Completed.
-/

namespace VideoProcessing

open Python

inductive ExecutionStatus where
  | running
  | completed
  | failed
deriving DecidableEq, Repr

/-- The start is accepted, given the executions of the workflow ID, newest first. `false` is
`WorkflowAlreadyStartedError`. -/
def startAccepted : List ExecutionStatus → Bool
  | [] => true
  | latest :: _ => latest = .failed

/-! ## The executions of many IDs -/

/-- An execution of `VideoProcessingWorkflow`, with its argument. -/
structure Execution where
  workflowId : Str
  videoId : UUID
  status : ExecutionStatus
deriving DecidableEq

/-- The executions of a workflow ID. -/
def statuses (executions : List Execution) (workflowId : Str) : List ExecutionStatus :=
  (executions.filter (·.workflowId = workflowId)).map Execution.status

/-- The server starts an execution; `none` is `WorkflowAlreadyStartedError`. -/
def startWorkflow (executions : List Execution) (workflowId : Str) (videoId : UUID) :
    Option (List Execution) :=
  if startAccepted (statuses executions workflowId) then
    some (⟨workflowId, videoId, .running⟩ :: executions)
  else none

/-- An execution, once the open one of a workflow ID has closed. -/
def Execution.close (workflowId : Str) (status : ExecutionStatus) (e : Execution) : Execution :=
  { e with status := if e.workflowId = workflowId ∧ e.status = .running then status else e.status }

/-- The open execution of a workflow ID closes. -/
def closeWorkflow (executions : List Execution) (workflowId : Str) (status : ExecutionStatus) :
    List Execution := executions.map (.close workflowId status)

/-- Every execution but the newest of its ID has failed. -/
def Exclusive (executions : List Execution) : Prop :=
  ∀ workflowId, ∀ status ∈ (statuses executions workflowId).tail, status = .failed

/-- The statuses of an ID, one execution at a time. -/
theorem statuses_cons (e : Execution) (executions : List Execution) (workflowId : Str) :
    statuses (e :: executions) workflowId =
      if e.workflowId = workflowId then e.status :: statuses executions workflowId
      else statuses executions workflowId := by
  by_cases h : e.workflowId = workflowId <;> simp [statuses, h]

/-- An execution of the ID has the status. -/
theorem mem_statuses {executions : List Execution} {workflowId : Str} {status : ExecutionStatus} :
    status ∈ statuses executions workflowId ↔
      ∃ e ∈ executions, e.workflowId = workflowId ∧ e.status = status := by
  simp [statuses, and_assoc]

/-- Closing an execution closes the open one of its ID. -/
theorem statuses_closeWorkflow (executions : List Execution) (workflowId workflowId' : Str)
    (status : ExecutionStatus) : statuses (closeWorkflow executions workflowId status) workflowId' =
      (statuses executions workflowId').map fun s =>
        if workflowId' = workflowId ∧ s = .running then status else s := by
  induction executions with
  | nil => rfl
  | cons e executions ih =>
    rw [closeWorkflow, List.map_cons, ← closeWorkflow, statuses_cons, statuses_cons, ih]
    change (if e.workflowId = workflowId' then _ else _) = _
    split
    · rename_i hid
      rw [List.map_cons, ← hid]
      rfl
    · rfl

/-- A server without executions. -/
theorem Exclusive.nil : Exclusive [] := fun _ _ h => nomatch h

/-- A start that is accepted keeps the executions of an ID apart. -/
theorem Exclusive.start {executions executions' : List Execution} {workflowId : Str}
    {videoId : UUID} (h : Exclusive executions)
    (hstart : startWorkflow executions workflowId videoId = some executions') :
    Exclusive executions' := by
  unfold startWorkflow at hstart
  split at hstart
  · rename_i haccepted
    obtain rfl := Option.some.inj hstart
    intro workflowId' status hmem
    rw [statuses_cons] at hmem
    split at hmem
    · rename_i hid
      obtain rfl : workflowId = workflowId' := hid
      rw [List.tail_cons] at hmem
      have htail := h workflowId status
      -- the one that was the newest has failed too, or the start would have been refused
      cases hall : statuses executions workflowId with
      | nil =>
        rw [hall] at hmem
        exact nomatch hmem
      | cons latest older =>
        rw [hall] at hmem haccepted htail
        rcases List.mem_cons.mp hmem with rfl | hmem
        · exact of_decide_eq_true haccepted
        · exact htail hmem
    · exact h workflowId' status hmem
  · exact nomatch hstart

/-- So does closing one. -/
theorem Exclusive.close {executions : List Execution} (h : Exclusive executions) (workflowId : Str)
    (status : ExecutionStatus) : Exclusive (closeWorkflow executions workflowId status) := by
  intro workflowId' status' hmem
  rw [statuses_closeWorkflow, ← List.map_tail] at hmem
  obtain ⟨s, hs, rfl⟩ := List.mem_map.mp hmem
  obtain rfl := h workflowId' s hs
  simp

/-! ## The executions of one video -/

/-- The workflow ID is the video ID. -/
def Identified (executions : List Execution) : Prop :=
  ∀ e ∈ executions, e.workflowId = e.videoId.str

/-- No video has two executions open. -/
def OpenOnce (executions : List Execution) : Prop :=
  ∀ videoId, (executions.countP fun e => e.videoId = videoId ∧ e.status = .running) ≤ 1

/-- No execution of a video was started after one that closed Completed. -/
def CompletedLast (executions : List Execution) : Prop :=
  ∀ newer e older, executions = newer ++ e :: older → e.status = .completed →
    ∀ e' ∈ newer, e'.videoId ≠ e.videoId

/-- A video has at most one open execution. -/
theorem Exclusive.openOnce {executions : List Execution} (h : Exclusive executions)
    (hids : Identified executions) : OpenOnce executions := by
  intro videoId
  have hcount : (executions.countP fun e => e.videoId = videoId ∧ e.status = .running) =
      (statuses executions videoId.str).count .running := by
    rw [statuses, List.count_eq_countP, List.countP_map, List.countP_filter]
    refine List.countP_congr fun e he => ?_
    have hid : e.videoId = videoId ↔ e.workflowId = videoId.str := by
      rw [hids e he]
      exact UUID.str_injective.eq_iff.symm
    simp [hid, and_comm]
  rw [hcount]
  have htail := h videoId.str
  cases hall : statuses executions videoId.str with
  | nil => exact Nat.zero_le _
  | cons latest older =>
    rw [hall, List.tail_cons] at htail
    have hnone : older.count .running = 0 :=
      List.count_eq_zero.mpr fun hmem => nomatch htail _ hmem
    rw [List.count_cons, hnone]
    split <;> decide

/-- Nothing is started after an execution that completed. -/
theorem Exclusive.completedLast {executions : List Execution} (h : Exclusive executions)
    (hids : Identified executions) : CompletedLast executions := by
  rintro newer e older rfl hcompleted e' he' hvideo
  have hid : e'.workflowId = e.workflowId := by
    rw [hids e' (List.mem_append_left _ he'), hvideo,
      ← hids e (List.mem_append_right _ List.mem_cons_self)]
  -- an execution of the same ID is newer
  have hnewer : statuses newer e.workflowId ≠ [] :=
    List.ne_nil_of_mem (mem_statuses.mpr ⟨e', he', hid, rfl⟩)
  have hmem : e.status ∈ (statuses (newer ++ e :: older) e.workflowId).tail := by
    have hall : statuses (newer ++ e :: older) e.workflowId =
        statuses newer e.workflowId ++ statuses (e :: older) e.workflowId := by
      simp only [statuses, List.filter_append, List.map_append]
    rw [hall, List.tail_append_of_ne_nil hnewer, statuses_cons, if_pos rfl]
    exact List.mem_append_right _ List.mem_cons_self
  exact nomatch hcompleted.symm.trans (h e.workflowId e.status hmem)

end VideoProcessing
