import VideoProcessing.Platform.Readers
import VideoProcessing.Platform.Undisturbed

/-!
# A failed video and its execution

`failed` is meant to say that nothing drives the video, so that a retry starts a fresh execution.
The status is written by each attempt that fails, and an execution stays open through the attempts
that follow; it is also left alone by a start. The two conditions of `State.rests` are exactly what
keeps `failed` true to its meaning.

A status is committed, an execution starts and an execution closes in steps of their own, so it is
enough to see what each of the three needs for a failed video to be at rest after it.
-/

namespace VideoProcessing

open Python UnitOfWork Transitions

/-- A request to retry that reads and sends now, and the shim's start for its message, open an
execution. -/
def State.RetryStarts (s : State) : Prop :=
  ∃ s', exec State.step s [.retryBegin, .retryStep s.requests.length true,
      .retryStep s.requests.length true, .receive s.messages.length,
      .start s.deliveries.length .received] = some s' ∧
    s'.deliveries[s.deliveries.length]? = some ⟨s.messages.length, .deleting .started⟩ ∧
    s'.temporal.current = some Tasks.initial

/-- If the video is failed, no execution is open and a retry starts one. -/
def State.IdleIfFailed (s : State) : Prop :=
  s.status = .failed → s.temporal.current = none ∧ s.RetryStarts

/-- `fail_job` commits only when no execution is open and none has completed last, and no
execution is started while the video is failed. -/
def State.rests (s : State) : Label → Bool
  | .resume i (.ok _) => s.pool.attempts[i]?.all fun a =>
    match a.phase with
    | .failJob f _ => f.tx = .broken || s.temporal.startWorkflow.isSome
    | _ => true
  | .start _ reply => reply = .failed || s.status ≠ .failed || s.temporal.startWorkflow.isNone
  | _ => true

abbrev State.Rests (s : State) (l : Label) : Prop := s.rests l = true

variable {act : Activity} {rows rows' : VideoRows} {ph : Phase} {s s' : State} {l : Label}

/-- Only `fail_job` makes a video failed. -/
theorem RowChange.failed_cases (h : RowChange act rows ph rows')
    (hstatus : rows'.video.status = .failed) :
    rows.video.status = .failed ∨ ∃ f error, ph = .failJob f error ∧ f.tx ≠ .broken := by
  cases h with
  | same | insert => exact .inl hstatus
  | claim hf =>
    rw [hf.commit_eq, Writes.apply_status] at hstatus
    rcases hf.pending_status with hp | hp <;> rw [hp] at hstatus
    · exact .inl hstatus
    · cases hstatus
  | complete hf =>
    rw [hf.commit_status] at hstatus
    rcases hf.pending_status with hp | hp <;> rw [hp] at hstatus
    · exact .inl hstatus
    · cases hstatus
  | fail htx => exact .inr ⟨_, _, rfl, htx⟩

/-- No commit of a request to retry makes a video failed. -/
theorem RetryPhase.Shaped.failed {video : Tracked Video} (h : (RetryPhase.commit video).Shaped)
    {row : Video} (hstatus : ((dirtyVideo video).apply row).status = .failed) :
    row.status = .failed := by
  have h : video.current = { video.loaded with status := .processing } := h
  simp only [VideoSet.apply, dirtyVideo, h] at hstatus
  by_cases heq : VideoStatus.processing = video.loaded.status
  · rwa [dirty_eq_none.mpr heq] at hstatus
  · rw [dirty_of_ne heq] at hstatus
    cases hstatus

/-! ## A retry of a failed video -/

/-- On a failed video a request reads and sends, and its message is delivered. -/
theorem State.exec_retry (hstatus : s.status = .failed) :
    exec State.step s [.retryBegin, .retryStep s.requests.length true,
      .retryStep s.requests.length true, .receive s.messages.length] = some { s with
        requests := s.requests ++
          [.commit ((Tracked.fresh s.rows.video).modify ({ · with status := .processing }))]
        messages := s.messages ++ [⟨.retry s.requests.length, none⟩]
        deliveries := s.deliveries ++ [⟨s.messages.length, .starting⟩] } := by
  simp only [State.status, State.rows] at hstatus ⊢
  simp [State.step, State.retryBegin, State.retryStep, State.receive, State.rows, hstatus]

/-- The retry of a failed video starts an execution when the server accepts a start. -/
theorem State.retryStarts_iff (hstatus : s.status = .failed) :
    s.RetryStarts ↔ s.temporal.startWorkflow.isSome = true := by
  have hlabels : ([.retryBegin, .retryStep s.requests.length true,
      .retryStep s.requests.length true, .receive s.messages.length,
      .start s.deliveries.length .received] : List Label) =
    [.retryBegin, .retryStep s.requests.length true, .retryStep s.requests.length true,
      .receive s.messages.length] ++ [.start s.deliveries.length .received] := rfl
  rw [State.RetryStarts, hlabels, exec_append, State.exec_retry hstatus, Option.bind_some]
  cases htp : s.temporal.startWorkflow with
  | none => simp [State.step, State.start, htp]
  | some tp =>
    obtain ⟨-, -, rfl⟩ := Temporal.startWorkflow_eq_some.mp htp
    simp [State.step, State.start, htp]

/-- A failed video is idle when the server accepts a start. -/
theorem State.idleIfFailed_iff :
    s.IdleIfFailed ↔ (s.status = .failed → s.temporal.startWorkflow.isSome = true) := by
  refine forall_congr' fun hstatus => ?_
  rw [State.retryStarts_iff hstatus, and_iff_right_iff_imp]
  intro haccepted
  obtain ⟨tp, htp⟩ := Option.isSome_iff_exists.mp haccepted
  exact (Temporal.startWorkflow_eq_some.mp htp).1

/-- While an execution is open only a video that is not failed is idle. -/
theorem State.idleIfFailed_iff_of_open {tasks : Tasks}
    (hcurrent : s.temporal.current = some tasks) : s.IdleIfFailed ↔ s.status ≠ .failed := by
  have hrefused : s.temporal.startWorkflow = none :=
    Temporal.startWorkflow_eq_none.mpr (.inl (by rw [hcurrent]; exact Option.some_ne_none tasks))
  rw [State.idleIfFailed_iff, hrefused]
  exact ⟨fun h hstatus => absurd (h hstatus) Bool.false_ne_true, fun h hstatus => absurd hstatus h⟩

/-! ## Steps -/

/-- A step that makes no video failed and leaves the executions alone keeps a failed video idle. -/
theorem State.IdleIfFailed.of_eq (h : s.IdleIfFailed) (htemporal : s'.temporal = s.temporal)
    (hstatus : s'.status = .failed → s.status = .failed) : s'.IdleIfFailed := by
  rw [State.idleIfFailed_iff] at h ⊢
  rw [htemporal]
  exact fun hfailed => h (hstatus hfailed)

/-- A step of an open execution leaves the video as it is. -/
theorem State.IdleIfFailed.of_open (h : s.IdleIfFailed) {tasks : Tasks}
    (hcurrent : s.temporal.current = some tasks) (hstatus : s'.status = s.status) :
    s'.IdleIfFailed := by
  rw [State.idleIfFailed_iff_of_open hcurrent] at h
  exact fun hfailed => absurd (hstatus.symm.trans hfailed) h

/-- An await that keeps a failed video idle. -/
theorem State.IdleIfFailed.resume (h : s.IdleIfFailed) (hsound : s.pool.Sound) {i : ℕ}
    {ans : Answer} {pool : Pool} (hpool : s.pool.resume i ans = some pool) :
    State.IdleIfFailed { s with pool := pool } ↔ s.rests (.resume i ans) = true := by
  obtain ⟨a, st, ph, ha, hres, rfl⟩ := Pool.resume_eq_some hpool
  obtain ⟨act, ph₀⟩ := a
  have hshaped := (hsound i _ ha).shaped
  have hkeep (hnot : st.rows.video.status = .failed → s.status = .failed) :
      State.IdleIfFailed { s with pool := { s.pool with
        store := st, attempts := s.pool.attempts.set i ⟨act, ph⟩ } } := h.of_eq rfl hnot
  have hchange := hres.rowChange hshaped
  -- only the commit of `fail_job` makes the video failed
  by_cases hfail : ∃ f error now, ph₀ = .failJob f error ∧ f.tx ≠ .broken ∧ ans = .ok now
  · obtain ⟨f, error, now, rfl, htx, rfl⟩ := hfail
    have hrests : s.rests (.resume i (.ok now)) = s.temporal.startWorkflow.isSome := by
      simp [State.rests, ha, htx]
    have hfailed : st.rows.video.status = .failed := by
      cases hres with
      | failJobBroken hbroken => exact absurd hbroken htx
      | failJob => exact (hshaped htx).commit_status
    rw [State.idleIfFailed_iff, hrests]
    exact ⟨fun hidle => hidle hfailed, fun hidle _ => hidle⟩
  · refine iff_of_true (hkeep fun hstatus => ?_) ?_
    · rcases hchange.failed_cases hstatus with hfailed | ⟨f, error, rfl, htx⟩
      · exact hfailed
      · cases hres with
        | failJobBroken hbroken => exact absurd hbroken htx
        | failJob => exact absurd ⟨f, error, _, rfl, htx, rfl⟩ hfail
        | failJobFails => exact hstatus
        | completionFails hph => cases hph
        | giveUp hph => cases hph
    · cases ans with
      | ok now =>
        simp only [State.rests, ha, Option.all_some]
        cases ph₀ with
        | failJob f error =>
          have htx : f.tx = .broken := by
            by_contra htx
            exact hfail ⟨f, error, now, rfl, htx, rfl⟩
          simp [htx]
        | _ => rfl
      | probed | error | noConnection => rfl

/-- What the answer of the server to a start comes to. -/
theorem State.start_eq {d : ℕ} {reply : StartReply} (h : s.start d reply = some s') :
    s'.status = s.status ∧ s'.temporal =
      if reply = .failed then s.temporal else s.temporal.startWorkflow.getD s.temporal := by
  obtain ⟨⟨m, phase⟩, hd, h⟩ := Option.bind_eq_some_iff.mp h
  rw [Option.ite_none_left_eq_some] at h
  obtain ⟨-, h⟩ := h
  cases htp : s.temporal.startWorkflow <;> cases reply <;>
    simp only [htp, Option.some.injEq] at h <;> subst h <;> exact ⟨rfl, rfl⟩

/-- A start does if the server would not accept it. -/
theorem State.IdleIfFailed.start (h : s.IdleIfFailed) {d : ℕ} {reply : StartReply}
    (hstart : s.start d reply = some s') :
    s'.IdleIfFailed ↔ s.rests (.start d reply) = true := by
  obtain ⟨hstatus, htemporal⟩ := State.start_eq hstart
  simp only [State.rests, Bool.or_eq_true, decide_eq_true_iff]
  cases htp : s.temporal.startWorkflow with
  | none =>
    refine iff_of_true (h.of_eq ?_ fun hfailed => hstatus.symm.trans hfailed) (.inr rfl)
    rw [htemporal, htp]
    split <;> rfl
  | some tp =>
    by_cases hreply : reply = .failed
    · rw [if_pos hreply] at htemporal
      exact iff_of_true (h.of_eq htemporal fun hfailed => hstatus.symm.trans hfailed)
        (.inl (.inl hreply))
    · rw [if_neg hreply, htp, Option.getD_some] at htemporal
      obtain ⟨-, -, rfl⟩ := Temporal.startWorkflow_eq_some.mp htp
      rw [State.idleIfFailed_iff_of_open (congrArg Temporal.current htemporal), hstatus]
      simp [hreply]

/-- A step keeps a failed video idle exactly when it meets the condition. -/
theorem State.IdleIfFailed.step (h : s.IdleIfFailed) (hfaithful : s.Faithful Readings.any)
    (hstep : s.step l = some s') : s'.IdleIfFailed ↔ s.rests l = true := by
  cases State.step_moves hstep with
  | resume hpool => exact h.resume hfaithful.pool.sound hpool
  | start | refuse => exact h.start hstep
  | vanish hpool =>
    obtain ⟨a, -, rfl⟩ := Pool.vanish_eq_some hpool
    exact iff_of_true (h.of_eq rfl id) rfl
  | dispatch hcurrent | reportReturned hcurrent | reportRaised hcurrent | timeOut hcurrent =>
    exact iff_of_true (h.of_open hcurrent rfl) rfl
  | decide hdecides =>
    cases hdecides with
    | schedule hcurrent | complete hcurrent | fail hcurrent =>
      exact iff_of_true (h.of_open hcurrent rfl) rfl
  | retryCommit hr =>
    have hshaped : RetryPhase.Shaped (.commit _) :=
      hfaithful.requests _ (List.mem_of_getElem? hr)
    exact iff_of_true (h.of_eq rfl fun hfailed => hshaped.failed hfailed) rfl
  | retryVideo => exact iff_of_true (h.of_eq rfl fun hfailed => by cases hfailed) rfl
  | notify | receive | delete | deleteFails | retryBegin | retryRead | retryRefused | retrySend
  | retryRaises | retryVideoRefused => exact iff_of_true (h.of_eq rfl id) rfl

/-! ## Runs -/

/-- A failed video is idle throughout a run, and every retry of it starts an execution, exactly
when every step of the run meets the condition. -/
theorem failed_means_idle {videoId : UUID} {filename key : Str} {ls : List Label}
    (hrun : exec State.step (.created videoId filename key) ls = some s) :
    Always State.step State.IdleIfFailed (.created videoId filename key) ls ↔
      exec (restrict State.Rests State.step) (.created videoId filename key) ls = some s := by
  refine always_iff_exec_restrict (I := State.Faithful Readings.any) ?_
    (State.faithful_created _ videoId filename key) (fun hstatus => by cases hstatus) hrun
  intro q l q' hfaithful hidle hstep
  exact ⟨(hfaithful.step (Readings.any_reports l) hstep).1, hidle.step hfaithful hstep⟩

/-- Every attempt at the metadata is given up on, and the first one fails after the execution. -/
def State.givenUp : List Label := List.flatten [
  [.notify, .receive 0, .start 0 .received, .delete 0 true, .dispatch .metadata,
    .dispatch .thumbnail],
  Label.resumes 1 11, Label.resumes 0 4,
  [.timeOut .metadata, .dispatch .metadata, .timeOut .metadata, .dispatch .metadata,
    .timeOut .metadata, .report .thumbnail, .decide, .resume 0 .error, .resume 0 (.ok 0)]]

/-- An execution that is given up as a whole. -/
theorem failed_means_idle_clip : ∃ s, exec State.step State.clip State.givenUp = some s ∧
    s.status = .failed ∧ Always State.step State.IdleIfFailed State.clip State.givenUp := by
  have hrun : (exec (restrict State.Rests State.step) State.clip State.givenUp).any fun s =>
      decide (s.status = .failed) := by decide +kernel
  obtain ⟨s, hs, hstatus⟩ := (Option.any_eq_true _ _).mp hrun
  have hrun := exec_of_restrict hs
  exact ⟨s, hrun, of_decide_eq_true hstatus, (failed_means_idle hrun).mpr hs⟩

/-- The first attempt at the metadata cannot download the original; two more are to follow. -/
def State.firstFailure : List Label := List.flatten [
  [.notify, .receive 0, .start 0 .received, .delete 0 true, .dispatch .metadata],
  Label.resumes 0 4, [.resume 0 .error, .resume 0 (.ok 0)]]

/-- The video says failed, its execution is open, and a retry now starts none. -/
theorem failed_while_open : ∃ s, exec State.step State.clip State.firstFailure = some s ∧
    s.status = .failed ∧ s.temporal.current ≠ none ∧ ¬ s.RetryStarts := by
  have hrun : (exec State.step State.clip State.firstFailure).any fun s =>
      decide (s.status = .failed) && s.temporal.current.isSome := by decide +kernel
  obtain ⟨s, hs, hstatus⟩ := (Option.any_eq_true _ _).mp hrun
  obtain ⟨hstatus, hopen⟩ := Bool.and_eq_true_iff.mp hstatus
  have hstatus : s.status = .failed := of_decide_eq_true hstatus
  obtain ⟨tasks, hcurrent⟩ := Option.isSome_iff_exists.mp hopen
  have hnotIdle : ¬ s.IdleIfFailed := fun h =>
    (State.idleIfFailed_iff_of_open hcurrent).mp h hstatus
  refine ⟨s, hs, hstatus, by rw [hcurrent]; exact Option.some_ne_none tasks, fun hretry => ?_⟩
  exact hnotIdle (State.idleIfFailed_iff.mpr fun _ => (State.retryStarts_iff hstatus).mp hretry)

end VideoProcessing
