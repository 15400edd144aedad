import VideoProcessing.Platform.Readers
import VideoProcessing.Worker.Ordered

/-!
# Histories of executions

Any number of executions of one video, with failures, kills and time-outs at any await, duplicate
deliveries and retries taken as one step, but one live attempt per activity at a time and an
original that does not change. Once an execution has closed Completed the rows are those of an
execution in which nothing failed.

The invariant says of each activity what its attempts, its task and its job row have to do with each
other, and is kept by each of the steps a history allows. The executions before the last one matter
only by the rows they leave.
-/

namespace VideoProcessing

open Python UnitOfWork Transitions

/-- An attempt is only handed out when none of its activity is alive. -/
def State.sequential (s : State) : Label → Bool
  | .dispatch t => s.pool.idle t
  | _ => true

/-- Requests to retry are taken as one step. -/
def Label.atomic : Label → Bool
  | .retryBegin | .retryStep _ _ => false
  | _ => true

/-- No request to retry commits over a completed video. -/
def State.spares (s : State) : Label → Bool
  | .retryStep r true =>
    match s.requests[r]? with
    | some (.commit _) => s.status ≠ .completed
    | _ => true
  | _ => true

/-- The steps of a history. -/
abbrev State.Historic (M : VideoMetadata) (s : State) (l : Label) : Prop :=
  l.probes M = true ∧ s.sequential l = true ∧ l.atomic = true

/-- A step at which nothing fails and nobody asks for a retry. -/
def Label.smooth : Label → Bool
  | .resume _ (.ok _) | .resume _ (.probed _ _) => true
  | .dispatch _ | .report _ | .decide | .notify | .receive _ | .start _ .received
  | .delete _ true => true
  | _ => false

abbrev State.Smooth (M : VideoMetadata) (s : State) (l : Label) : Prop :=
  State.Historic M s l ∧ l.smooth = true

/-! ## The invariant -/

/-- The scheduled activities keep the order of the jobs. -/
structure Tasks.Ordered (rows : VideoRows) (tasks : Tasks) : Prop where
  succeeded : ∀ t result, tasks.result? t = some (.ok result) → rows.Completed t
  last : tasks .transcode ≠ none → rows.Completed .metadata ∧ rows.Completed .thumbnail

structure State.Ordered (R : Readings) (s : State) : Prop where
  faithful : s.Faithful R
  pool : s.pool.Ordered
  tasks : ∀ tasks, s.temporal.current = some tasks → tasks.Ordered s.rows
  closed : .completed ∈ s.temporal.closed → s.rows.Completed .transcode

variable {R : Readings} {M : VideoMetadata} {s s' : State} {l : Label} {rows rows' : VideoRows}
  {tasks : Tasks} {t : JobType} {task : Task}

/-- Completed jobs stay in order. -/
theorem Tasks.Ordered.mono (h : tasks.Ordered rows)
    (hmono : ∀ t, rows.Completed t → rows'.Completed t) : tasks.Ordered rows' :=
  ⟨fun t result ht => hmono t (h.succeeded t result ht),
    fun ht => ⟨hmono _ (h.last ht).1, hmono _ (h.last ht).2⟩⟩

/-- An execution begins in order. -/
theorem Tasks.ordered_initial (rows : VideoRows) : Tasks.initial.Ordered rows := by
  refine ⟨fun t result ht => ?_, fun ht => absurd rfl ht⟩
  cases t <;> exact nomatch ht

/-- Another state of an activity that has not succeeded, or whose job is completed. -/
theorem Tasks.Ordered.setTask (h : tasks.Ordered rows) (htask : tasks t = some task)
    {state : TaskState} (hstate : ∀ result, state = .succeeded result → rows.Completed t) :
    Tasks.Ordered rows (Function.update tasks t (some { task with state := state })) where
  succeeded := fun t' result ht' => by
    obtain ⟨task', htask', hstate'⟩ := Tasks.result?_eq_ok.mp ht'
    by_cases heq : t' = t
    · subst heq
      rw [Function.update_self] at htask'
      obtain rfl := Option.some.inj htask'
      exact hstate result hstate'
    · rw [Function.update_of_ne heq] at htask'
      exact h.succeeded t' result (Tasks.result?_eq_ok.mpr ⟨task', htask', hstate'⟩)
  last := fun ht' => h.last fun hnone => ht' (by
    have hne : JobType.transcode ≠ t := by
      rintro rfl
      exact nomatch hnone.symm.trans htask
    rwa [Function.update_of_ne hne])

/-- An activity that has failed, or waits for its next attempt, has no result. -/
theorem Tasks.Ordered.setFailed (h : tasks.Ordered rows) (htask : tasks t = some task)
    (failures : ℕ) (error : ActivityError) : Tasks.Ordered rows
      (Function.update tasks t (some { task with state := .fail failures error })) :=
  h.setTask htask fun _ hresult => absurd hresult TaskState.fail_ne_succeeded

/-- `transcode` is scheduled when the other two have succeeded. -/
theorem Tasks.Ordered.schedule (h : tasks.Ordered rows) {sourceHeight : ℤ}
    (hrun : VideoProcessingWorkflow.run tasks = .executeTranscode sourceHeight) :
    Tasks.Ordered rows
      (Function.update tasks .transcode (some ⟨.transcode sourceHeight, .waiting 0⟩)) := by
  obtain ⟨m, result, hmetadata, hthumbnail, -, -⟩ := run_eq_executeTranscode hrun
  refine ⟨fun t result' ht => ?_, fun _ =>
    ⟨h.succeeded _ _ hmetadata, h.succeeded _ _ hthumbnail⟩⟩
  by_cases heq : t = .transcode
  · subst heq
    obtain ⟨task, htask, hstate⟩ := Tasks.result?_eq_ok.mp ht
    rw [Function.update_self] at htask
    obtain rfl := Option.some.inj htask
    cases hstate
  · rw [Tasks.result?, Function.update_of_ne heq] at ht
    exact h.succeeded t result' ht

/-- No step of a history takes a completed job back. -/
theorem State.Ordered.completed (h : s.Ordered R) (hstep : s.step l = some s')
    (ht : s.rows.Completed t) : s'.rows.Completed t := by
  cases State.step_moves hstep with
  | resume hpool => exact h.pool.alone.completed hpool ht
  | vanish hpool =>
    obtain ⟨_, -, rfl⟩ := Pool.vanish_eq_some hpool
    exact ht
  | retryCommit | retryVideo => exact (completed_congr (by rfl)).mpr ht
  | _ => exact ht

/-- Sequential attempts and retries that spare a completed video keep the order. -/
theorem State.Ordered.step (h : s.Ordered R) (hl : R.Reports l) (hseq : s.sequential l = true)
    (hspares : s.spares l = true) (hstep : s.step l = some s') : s'.Ordered R := by
  have hfaithful := (h.faithful.step hl hstep).1
  have hmono (t : JobType) : s.rows.Completed t → s'.rows.Completed t :=
    h.completed hstep
  have hclosed (hbefore : .completed ∈ s.temporal.closed) : s'.rows.Completed .transcode :=
    hmono _ (h.closed hbefore)
  have htasks (tasks : Tasks) (ht : s.temporal.current = some tasks) : tasks.Ordered s'.rows :=
    (h.tasks tasks ht).mono hmono
  cases State.step_moves hstep with
  | resume hpool => exact ⟨hfaithful, h.pool.resume hpool, htasks, hclosed⟩
  | vanish hpool => exact ⟨hfaithful, h.pool.vanish hpool, htasks, hclosed⟩
  | @dispatch t tasks task failures hcurrent htask hstate =>
    obtain ⟨ht, -⟩ := (h.faithful.tasks tasks hcurrent).activity t task htask
    refine ⟨hfaithful, h.pool.begin (by rwa [ht]) fun htranscode => ?_, fun tasks' htasks' => ?_,
      hclosed⟩
    · refine (h.tasks tasks hcurrent).last ?_
      rw [← htranscode, ht, htask]
      exact Option.some_ne_none _
    · obtain rfl := Option.some.inj htasks'
      exact (h.tasks tasks hcurrent).setTask htask (by simp)
  | @reportReturned t tasks task failures i a result hcurrent htask hstate ha hphase =>
    refine ⟨hfaithful, h.pool, fun tasks' htasks' => ?_, hclosed⟩
    obtain rfl := Option.some.inj htasks'
    refine (h.tasks tasks hcurrent).setTask htask fun _ _ => ?_
    have hord := (h.pool.attempts i a ha).phase
    rw [hphase, h.faithful.attempt_jobType hcurrent htask hstate ha] at hord
    exact hord
  | @reportRaised t tasks task failures i a error hcurrent htask =>
    refine ⟨hfaithful, h.pool, fun tasks' htasks' => ?_, hclosed⟩
    obtain rfl := Option.some.inj htasks'
    exact (h.tasks tasks hcurrent).setFailed htask failures error
  | @timeOut t tasks task failures i hcurrent htask =>
    refine ⟨hfaithful, h.pool, fun tasks' htasks' => ?_, hclosed⟩
    obtain rfl := Option.some.inj htasks'
    exact (h.tasks tasks hcurrent).setFailed htask failures .timedOut
  | decide hdecides =>
    cases hdecides with
    | @schedule tasks sourceHeight hcurrent hrun =>
      refine ⟨hfaithful, h.pool, fun tasks' htasks' => ?_, hclosed⟩
      obtain rfl := Option.some.inj htasks'
      exact (h.tasks tasks hcurrent).schedule hrun
    | @complete tasks hcurrent hrun =>
      obtain ⟨result, hresult⟩ := run_eq_complete hrun
      exact ⟨hfaithful, h.pool, by simp, fun _ => (h.tasks tasks hcurrent).succeeded _ _ hresult⟩
    | fail =>
      exact ⟨hfaithful, h.pool, by simp, fun hmem => hclosed (by simpa using hmem)⟩
  | start hd hstart =>
    obtain ⟨-, -, rfl⟩ := Temporal.startWorkflow_eq_some.mp hstart
    refine ⟨hfaithful, h.pool, fun tasks' htasks' => ?_, hclosed⟩
    obtain rfl := Option.some.inj htasks'
    exact Tasks.ordered_initial _
  | notify | receive | refuse | delete | deleteFails | retryBegin | retryRead | retryRefused
  | retrySend | retryRaises | retryVideoRefused =>
    exact ⟨hfaithful, h.pool, htasks, hclosed⟩
  | @retryCommit r video hr =>
    -- a retry that commits finds a video that is not completed
    have hbefore : s.status ≠ .completed := by simpa [State.spares, hr] using hspares
    have hshaped : (RetryPhase.commit video).Shaped :=
      h.faithful.requests _ (List.mem_of_getElem? hr)
    refine ⟨hfaithful, h.pool.setRows ?_ hbefore ?_, htasks, hclosed⟩
    exacts [fun _ => rfl, hshaped.status_ne hbefore]
  | retryVideo hstatus =>
    have hbefore : s.status ≠ .completed := by simp [hstatus]
    refine ⟨hfaithful, h.pool.setRows ?_ hbefore ?_, htasks, hclosed⟩
    exacts [fun _ => rfl, by simp]

/-- A new video is in order. -/
theorem State.ordered_created (R : Readings) (videoId : UUID) (filename key : Str) :
    (State.created videoId filename key).Ordered R where
  faithful := State.faithful_created R videoId filename key
  pool := Pool.ordered_created videoId filename key
  tasks := nofun
  closed := nofun

/-! ## What a history leaves -/

/-- The rows apart from attempts and timestamps. -/
structure Outcome where
  status : VideoStatus
  metadata : Option ℤ × Option ℤ × Option ℤ
  jobs : JobType → Option JobStatus
  assets : AssetType → Option Str

def VideoRows.outcome (rows : VideoRows) : Outcome where
  status := rows.video.status
  metadata := rows.video.metadata
  jobs := rows.jobStatus
  assets := rows.assets

/-- Everything completed, with the metadata and the assets of the original. -/
def Outcome.complete (M : VideoMetadata) (videoId : UUID) : Outcome where
  status := .completed
  metadata := M.columns
  jobs := fun _ => some .completed
  assets := fun a => if a ∈ expectedAssets M.height then some (assetKey videoId a) else none

/-- After an execution has closed Completed. -/
theorem State.Ordered.outcome (h : s.Ordered (Readings.of M))
    (hclosed : .completed ∈ s.temporal.closed) :
    s.rows.outcome = .complete M s.pool.videoId := by
  have htranscode := h.closed hclosed
  have hall := h.pool.rows.all htranscode
  have hrows := h.faithful.pool.rows
  have hfull : s.rows.Full M s.pool.videoId := fun t => hrows.stored t (hall t)
  have hjobs : s.rows.jobStatus = fun _ => some .completed := funext hall
  have hassets : s.rows.assets = fun a =>
      if a ∈ expectedAssets M.height then some (assetKey s.pool.videoId a) else none :=
    funext (hfull.assets_eq hrows)
  rw [VideoRows.outcome, (h.pool.rows.transcoded htranscode).2.2, hfull.metadata hrows, hjobs,
    hassets]
  rfl

/-- A retry taken as one step reads what it writes over. -/
theorem State.spares_of_atomic (h : l.atomic = true) : s.spares l = true := by
  cases l with
  | retryStep => exact nomatch h
  | _ => rfl

/-- A history keeps the order. -/
theorem State.Ordered.exec {ls : List Label} (h : s.Ordered (Readings.of M))
    (hrun : exec (restrict (State.Historic M) State.step) s ls = some s') :
    s'.Ordered (Readings.of M) := by
  refine exec_invariant (fun q l q' hq hstep => ?_) h hrun
  obtain ⟨⟨hprobes, hseq, hatomic⟩, hstep⟩ := restrict_eq_some.mp hstep
  exact hq.step (Label.Probes.reports (s := q) hprobes) hseq (State.spares_of_atomic hatomic) hstep

/-- Whatever a history went through, once an execution has closed Completed the video's rows are
those an execution in which nothing failed leaves on the video when it is new. -/
theorem history_outcome {videoId : UUID} {filename key : Str} {M : VideoMetadata} {s s' : State}
    {ls ls' : List Label}
    (hrun : exec (restrict (State.Historic M) State.step) (.created videoId filename key) ls =
      some s)
    (hclosed : .completed ∈ s.temporal.closed)
    (hsmooth : exec (restrict (State.Smooth M) State.step) (.created videoId filename key) ls' =
      some s')
    (hclosed' : s'.temporal.closed = [.completed]) :
    s.rows.outcome = s'.rows.outcome ∧ s.rows.outcome = .complete M videoId := by
  have hrun' := exec_restrict_mono (fun _ _ h => h.1) hsmooth
  have hcreated := State.ordered_created (Readings.of M) videoId filename key
  have hs := (hcreated.exec hrun).outcome hclosed
  have hs' := (hcreated.exec hrun').outcome (by rw [hclosed']; exact List.mem_cons_self)
  rw [State.exec_videoId (exec_of_restrict hrun)] at hs
  rw [State.exec_videoId (exec_of_restrict hrun')] at hs'
  exact ⟨hs.trans hs'.symm, hs⟩

/-- The metadata activity fails, is killed and fails again while the thumbnail completes; a retry
finishes the rest. -/
def State.interrupted : List Label := List.flatten [
  [.notify, .receive 0, .start 0 .received, .delete 0 true, .dispatch .metadata,
    .dispatch .thumbnail],
  Label.resumes 0 4, [.resume 0 .error, .resume 0 (.ok 0), .report .metadata],
  Label.resumes 1 11, [.report .thumbnail, .dispatch .metadata],
  Label.resumes 2 3, [.vanish 2, .timeOut .metadata, .dispatch .metadata],
  Label.resumes 3 3, [.resume 3 .error, .resume 3 (.ok 0), .report .metadata, .decide],
  [.retryVideo, .receive 1, .start 1 .received, .delete 1 true, .dispatch .metadata,
    .dispatch .thumbnail],
  Label.resumes 4 4, [.resume 4 (.probed ⟨1000, 1280, 720⟩ 0)], Label.resumes 4 3,
  Label.resumes 5 2, [.report .metadata, .report .thumbnail, .decide, .dispatch .transcode],
  Label.resumes 6 11, [.report .transcode, .decide]]

/-- A history with a failure, a kill and a retry, and an execution without. -/
theorem history_outcome_clip : ∃ s s',
    exec (restrict (State.Historic ⟨1000, 1280, 720⟩) State.step) State.clip State.interrupted =
      some s ∧
    exec (restrict (State.Smooth ⟨1000, 1280, 720⟩) State.step) State.clip State.processing =
      some s' ∧
    s.rows.outcome = s'.rows.outcome ∧ s.rows.outcome = .complete ⟨1000, 1280, 720⟩ ⟨7⟩ := by
  have hrun : (exec (restrict (State.Historic ⟨1000, 1280, 720⟩) State.step) State.clip
      State.interrupted).any fun s => decide (.completed ∈ s.temporal.closed) := by decide +kernel
  have hsmooth : (exec (restrict (State.Smooth ⟨1000, 1280, 720⟩) State.step) State.clip
      State.processing).any fun s => decide (s.temporal.closed = [.completed]) := by decide +kernel
  obtain ⟨s, hrun, hclosed⟩ := (Option.any_eq_true _ _).mp hrun
  obtain ⟨s', hsmooth, hclosed'⟩ := (Option.any_eq_true _ _).mp hsmooth
  exact ⟨s, s', hrun, hsmooth, history_outcome hrun (of_decide_eq_true hclosed) hsmooth
    (of_decide_eq_true hclosed')⟩

end VideoProcessing
