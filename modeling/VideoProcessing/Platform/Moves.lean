import VideoProcessing.Platform
import VideoProcessing.Worker.Attempts

/-!
# What one step of the platform can do

`Moves` lists the steps of the platform and `State.step_moves` says that there are no others. A
request to retry whose session has the expected shape only writes the status column, and a request
taken as one step sees and writes the same row.
-/

namespace VideoProcessing

open Python UnitOfWork

/-! ## The server -/

/-- A start is accepted when no execution is open and none has closed, or the last one failed. -/
theorem Temporal.startWorkflow_eq_some {tp tp' : Temporal} :
    tp.startWorkflow = some tp' ↔
      tp.current = none ∧ (∀ status, tp.closed.head? = some status → status = .failed) ∧
        tp' = { tp with current := some Tasks.initial } := by
  obtain ⟨closed, current⟩ := tp
  cases current with
  | some tasks => simp [Temporal.startWorkflow, Temporal.executions, startAccepted]
  | none =>
    cases closed with
    | nil => simp [Temporal.startWorkflow, Temporal.executions, startAccepted, eq_comm]
    | cons status closed =>
      cases status <;>
        simp [Temporal.startWorkflow, Temporal.executions, startAccepted, eq_comm]

/-- A start is refused while one is open, or unless the last one failed. -/
theorem Temporal.startWorkflow_eq_none {tp : Temporal} :
    tp.startWorkflow = none ↔
      tp.current ≠ none ∨ ∃ status, tp.closed.head? = some status ∧ status ≠ .failed := by
  obtain ⟨closed, current⟩ := tp
  cases current with
  | some tasks => simp [Temporal.startWorkflow, Temporal.executions, startAccepted]
  | none =>
    cases closed with
    | nil => simp [Temporal.startWorkflow, Temporal.executions, startAccepted]
    | cons status closed =>
      cases status <;> simp [Temporal.startWorkflow, Temporal.executions, startAccepted]

/-- The activity of the open execution. -/
theorem Temporal.task?_eq_some {tp : Temporal} {t : JobType} {tasks : Tasks} {task : Task} :
    tp.task? t = some (tasks, task) ↔ tp.current = some tasks ∧ tasks t = some task := by
  simp only [Temporal.task?, Option.bind_eq_some_iff, Option.map_eq_some_iff, Prod.mk.injEq]
  constructor
  · rintro ⟨_, hcurrent, _, htask, rfl, rfl⟩
    exact ⟨hcurrent, htask⟩
  · rintro ⟨hcurrent, htask⟩
    exact ⟨tasks, hcurrent, task, htask, rfl, rfl⟩

/-- What the workflow's next command makes of its execution. -/
inductive Temporal.Decides (tp : Temporal) : Temporal → Prop
  | schedule {tasks : Tasks} {sourceHeight : ℤ} (hcurrent : tp.current = some tasks)
      (hrun : VideoProcessingWorkflow.run tasks = .executeTranscode sourceHeight) :
      Temporal.Decides tp { tp with current := some (Function.update tasks .transcode
        (some ⟨.transcode sourceHeight, .waiting 0⟩)) }
  | complete {tasks : Tasks} (hcurrent : tp.current = some tasks)
      (hrun : VideoProcessingWorkflow.run tasks = .complete) :
      Temporal.Decides tp ⟨.completed :: tp.closed, none⟩
  | fail {tasks : Tasks} {error : ActivityError} (hcurrent : tp.current = some tasks)
      (hrun : VideoProcessingWorkflow.run tasks = .fail error) :
      Temporal.Decides tp ⟨.failed :: tp.closed, none⟩

/-- What the workflow decides. -/
theorem Temporal.decide_decides {tp tp' : Temporal} (h : tp.decide = some tp') :
    tp.Decides tp' := by
  obtain ⟨tasks, hcurrent, h⟩ := Option.bind_eq_some_iff.mp h
  cases hrun : VideoProcessingWorkflow.run tasks with
  | wait =>
    simp only [hrun] at h
    exact nomatch h
  | executeTranscode sourceHeight =>
    simp only [hrun, Option.some.injEq] at h
    exact h ▸ .schedule hcurrent hrun
  | complete =>
    simp only [hrun, Option.some.injEq] at h
    exact h ▸ .complete hcurrent hrun
  | fail error =>
    simp only [hrun, Option.some.injEq] at h
    exact h ▸ .fail hcurrent hrun

/-! ## The platform -/

/-- The steps of the platform. -/
inductive Moves (s : State) : Label → State → Prop
  | resume {i : ℕ} {ans : Answer} {pool : Pool} (hpool : s.pool.resume i ans = some pool) :
      Moves s (.resume i ans) { s with pool := pool }
  | vanish {i : ℕ} {pool : Pool} (hpool : s.pool.vanish i = some pool) :
      Moves s (.vanish i) { s with pool := pool }
  | dispatch {t : JobType} {tasks : Tasks} {task : Task} {failures : ℕ}
      (hcurrent : s.temporal.current = some tasks) (htask : tasks t = some task)
      (hstate : task.state = .waiting failures) :
      Moves s (.dispatch t) { s with
        temporal := s.temporal.setTask t tasks task (.running failures s.pool.attempts.length)
        pool := s.pool.begin task.activity }
  | reportReturned {t : JobType} {tasks : Tasks} {task : Task} {failures i : ℕ} {a : Attempt}
      {result : Option VideoMetadata}
      (hcurrent : s.temporal.current = some tasks) (htask : tasks t = some task)
      (hstate : task.state = .running failures i) (ha : s.pool.attempts[i]? = some a)
      (hphase : a.phase = .returned result) :
      Moves s (.report t)
        { s with temporal := s.temporal.setTask t tasks task (.succeeded result) }
  | reportRaised {t : JobType} {tasks : Tasks} {task : Task} {failures i : ℕ} {a : Attempt}
      {error : ActivityError}
      (hcurrent : s.temporal.current = some tasks) (htask : tasks t = some task)
      (hstate : task.state = .running failures i) (ha : s.pool.attempts[i]? = some a)
      (hphase : a.phase = .raised error) :
      Moves s (.report t)
        { s with temporal := s.temporal.setTask t tasks task (.fail failures error) }
  | timeOut {t : JobType} {tasks : Tasks} {task : Task} {failures i : ℕ}
      (hcurrent : s.temporal.current = some tasks) (htask : tasks t = some task)
      (hstate : task.state = .running failures i) :
      Moves s (.timeOut t)
        { s with temporal := s.temporal.setTask t tasks task (.fail failures .timedOut) }
  | decide {tp : Temporal} (hdecides : s.temporal.Decides tp) :
      Moves s .decide { s with temporal := tp }
  | notify : Moves s .notify { s with messages := s.messages ++ [⟨.upload, none⟩] }
  | receive {m : ℕ} {message : Message} (hm : s.messages[m]? = some message)
      (hdeleted : message.deleted = none) :
      Moves s (.receive m) { s with deliveries := s.deliveries ++ [⟨m, .starting⟩] }
  | start {d : ℕ} {reply : StartReply} {m : ℕ} {phase : DeliveryPhase} {tp : Temporal}
      (hd : s.deliveries[d]? = some ⟨m, .starting⟩) (hstart : s.temporal.startWorkflow = some tp)
      (hphase : phase = .deleting .started ∨ phase = .over) :
      Moves s (.start d reply)
        { s with deliveries := s.deliveries.set d ⟨m, phase⟩, temporal := tp }
  | refuse {d : ℕ} {reply : StartReply} {m : ℕ} {phase : DeliveryPhase}
      (hd : s.deliveries[d]? = some ⟨m, .starting⟩)
      (hphase : phase = .over ∨
        phase = .deleting .alreadyStarted ∧ s.temporal.startWorkflow = none) :
      Moves s (.start d reply) { s with deliveries := s.deliveries.set d ⟨m, phase⟩ }
  | delete {d : ℕ} {m : ℕ} {outcome : StartOutcome}
      (hd : s.deliveries[d]? = some ⟨m, .deleting outcome⟩) :
      Moves s (.delete d true) { s with
        deliveries := s.deliveries.set d ⟨m, .over⟩
        messages := s.messages.modify m fun message =>
          { message with deleted := message.deleted.or (some outcome) } }
  | deleteFails {d : ℕ} {m : ℕ} {outcome : StartOutcome}
      (hd : s.deliveries[d]? = some ⟨m, .deleting outcome⟩) :
      Moves s (.delete d false) { s with deliveries := s.deliveries.set d ⟨m, .over⟩ }
  | retryBegin : Moves s .retryBegin s.retryBegin
  | retryRead {r : ℕ} (hr : s.requests[r]? = some .read) (hstatus : s.status = .failed) :
      Moves s (.retryStep r true)
        { s with requests := s.requests.set r (.send (.fresh s.rows.video)) }
  | retryRefused {r : ℕ} (hr : s.requests[r]? = some .read) (hstatus : s.status ≠ .failed) :
      Moves s (.retryStep r true) { s with requests := s.requests.set r .notFailed }
  | retrySend {r : ℕ} {video : Tracked Video} (hr : s.requests[r]? = some (.send video)) :
      Moves s (.retryStep r true) { s with
        messages := s.messages ++ [⟨.retry r, none⟩]
        requests := s.requests.set r (.commit (video.modify ({ · with status := .processing }))) }
  | retryCommit {r : ℕ} {video : Tracked Video} (hr : s.requests[r]? = some (.commit video)) :
      Moves s (.retryStep r true) { s.withVideo ((dirtyVideo video).apply s.rows.video) with
        requests := s.requests.set r .returned }
  | retryRaises {r : ℕ} {phase : RetryPhase} (hr : s.requests[r]? = some phase) :
      Moves s (.retryStep r false) { s with requests := s.requests.set r .raised }
  | retryVideo (hstatus : s.status = .failed) :
      Moves s .retryVideo { s.withVideo { s.rows.video with status := .processing } with
        messages := s.messages ++ [⟨.retry s.requests.length, none⟩]
        requests := s.requests ++ [.returned] }
  | retryVideoRefused (hstatus : s.status ≠ .failed) :
      Moves s .retryVideo { s with requests := s.requests ++ [.notFailed] }

variable {s s' : State} {l : Label}

/-- A step of a request. -/
theorem State.retryStep_moves {r : ℕ} {ok : Bool} (h : s.retryStep r ok = some s') :
    Moves s (.retryStep r ok) s' := by
  simp only [State.retryStep] at h
  split at h
  · rename_i hr
    -- the status that was read decides
    split at h <;> obtain rfl := Option.some.inj h
    · exact .retryRefused hr ‹_›
    · exact .retryRead hr (not_not.mp ‹_›)
  · rename_i hr
    obtain rfl := Option.some.inj h
    exact .retrySend hr
  · rename_i hr
    rw [Option.ite_none_left_eq_some] at h
    obtain rfl := Option.some.inj h.2
    exact .retryCommit hr
  · rename_i hr
    obtain rfl := Option.some.inj h
    exact .retryRaises hr
  · rename_i hr
    obtain rfl := Option.some.inj h
    exact .retryRaises hr
  · rename_i hr
    obtain rfl := Option.some.inj h
    exact .retryRaises hr
  · exact nomatch h

/-- A start of the shim. -/
theorem State.start_moves {d : ℕ} {reply : StartReply} (h : s.start d reply = some s') :
    Moves s (.start d reply) s' := by
  obtain ⟨⟨m, phase⟩, hd, h⟩ := Option.bind_eq_some_iff.mp h
  rw [Option.ite_none_left_eq_some] at h
  obtain ⟨hphase, h⟩ := h
  obtain rfl : phase = .starting := not_not.mp hphase
  cases htp : s.temporal.startWorkflow with
  | none =>
    cases reply <;> simp only [htp, Option.some.injEq] at h <;> subst h
    · exact .refuse hd (.inr ⟨rfl, htp⟩)
    · exact .refuse hd (.inl rfl)
    · exact .refuse hd (.inl rfl)
  | some tp =>
    cases reply <;> simp only [htp, Option.some.injEq] at h <;> subst h
    · exact .start hd htp (.inl rfl)
    · exact .start hd htp (.inr rfl)
    · exact .refuse hd (.inl rfl)

/-- The statement of a request's commit. -/
theorem dirtyVideo_retry (row : Video) (hstatus : row.status = .failed) :
    (dirtyVideo ((Tracked.fresh row).modify ({ · with status := .processing }))).apply row =
      { row with status := .processing } := by
  simp [dirtyVideo, VideoSet.apply, hstatus, dirty_of_ne]

/-- A whole request: its session writes what it read. -/
theorem State.retryVideo_moves (h : s.retryVideo = some s') : Moves s .retryVideo s' := by
  have hlast (y : RetryPhase) : (s.requests ++ [y])[s.requests.length]? = some y := by simp
  have hset (y z : RetryPhase) :
      (s.requests ++ [y]).set s.requests.length z = s.requests ++ [z] := by simp
  obtain ⟨s₁, h₁, h⟩ := Option.bind_eq_some_iff.mp h
  -- the request is the last one, so each step is forced
  cases State.retryStep_moves h₁ with
  | retryRefused hr hstatus =>
    rw [if_pos (by simp [State.retryBegin])] at h
    obtain rfl := Option.some.inj h
    simp only [State.retryBegin, hset]
    exact .retryVideoRefused hstatus
  | retryRead hr hstatus =>
    rw [if_neg (by simp [State.retryBegin])] at h
    obtain ⟨s₂, h₂, h₃⟩ := Option.bind_eq_some_iff.mp h
    cases State.retryStep_moves h₂ with
    | retrySend hr₂ =>
      simp only [State.retryBegin, hset, hlast, Option.some.injEq, RetryPhase.send.injEq] at hr₂
      cases State.retryStep_moves h₃ with
      | retryCommit hr₃ =>
        simp only [State.retryBegin, hset, hlast, Option.some.injEq, RetryPhase.commit.injEq] at hr₃
        subst hr₃ hr₂
        simp only [State.retryBegin, hset, State.withVideo, State.rows]
        rw [dirtyVideo_retry s.pool.store.rows.video hstatus]
        exact .retryVideo hstatus
      | retryRead hr₃ | retryRefused hr₃ | retrySend hr₃ =>
        simp [State.retryBegin] at hr₃
    | retryRead hr₂ | retryRefused hr₂ | retryCommit hr₂ =>
      simp [State.retryBegin] at hr₂
  | retrySend hr | retryCommit hr => simp [State.retryBegin] at hr

/-- The step function does nothing else. -/
theorem State.step_moves (h : s.step l = some s') : Moves s l s' := by
  cases l with
  | resume i ans =>
    obtain ⟨pool, hpool, rfl⟩ := Option.map_eq_some_iff.mp h
    exact .resume hpool
  | vanish i =>
    obtain ⟨pool, hpool, rfl⟩ := Option.map_eq_some_iff.mp h
    exact .vanish hpool
  | dispatch t =>
    obtain ⟨⟨tasks, task⟩, htask, h⟩ := Option.bind_eq_some_iff.mp h
    obtain ⟨hcurrent, htask⟩ := Temporal.task?_eq_some.mp htask
    -- only a task that waits can be handed out
    cases hstate : task.state with
    | waiting failures =>
      simp only [hstate, Option.some.injEq] at h
      exact h ▸ .dispatch hcurrent htask hstate
    | running | succeeded | failed =>
      simp only [hstate] at h
      exact nomatch h
  | report t =>
    obtain ⟨⟨tasks, task⟩, htask, h⟩ := Option.bind_eq_some_iff.mp h
    obtain ⟨hcurrent, htask⟩ := Temporal.task?_eq_some.mp htask
    cases hstate : task.state with
    | running failures i =>
      simp only [hstate] at h
      split at h
      -- an attempt that has returned, or one that has raised
      · rename_i hphase
        obtain ⟨a, ha, hphase⟩ := Option.map_eq_some_iff.mp hphase
        obtain rfl := Option.some.inj h
        exact .reportReturned hcurrent htask hstate ha hphase
      · rename_i hphase
        obtain ⟨a, ha, hphase⟩ := Option.map_eq_some_iff.mp hphase
        obtain rfl := Option.some.inj h
        exact .reportRaised hcurrent htask hstate ha hphase
      · exact nomatch h
    | waiting | succeeded | failed =>
      simp only [hstate] at h
      exact nomatch h
  | timeOut t =>
    obtain ⟨⟨tasks, task⟩, htask, h⟩ := Option.bind_eq_some_iff.mp h
    obtain ⟨hcurrent, htask⟩ := Temporal.task?_eq_some.mp htask
    cases hstate : task.state with
    | running failures i =>
      simp only [hstate, Option.some.injEq] at h
      exact h ▸ .timeOut hcurrent htask hstate
    | waiting | succeeded | failed =>
      simp only [hstate] at h
      exact nomatch h
  | decide =>
    obtain ⟨tp, hdecide, rfl⟩ := Option.map_eq_some_iff.mp h
    exact .decide (Temporal.decide_decides hdecide)
  | notify =>
    obtain rfl := Option.some.inj h
    exact .notify
  | receive m =>
    obtain ⟨message, hm, h⟩ := Option.bind_eq_some_iff.mp h
    rw [Option.ite_none_right_eq_some] at h
    obtain rfl := Option.some.inj h.2
    exact .receive hm h.1
  | start d reply => exact State.start_moves h
  | delete d ok =>
    obtain ⟨⟨m, phase⟩, hd, h⟩ := Option.bind_eq_some_iff.mp h
    cases phase with
    | deleting outcome =>
      cases ok with
      | true =>
        obtain rfl := Option.some.inj h
        exact .delete hd
      | false =>
        obtain rfl := Option.some.inj h
        exact .deleteFails hd
    | _ => exact nomatch h
  | retryBegin =>
    obtain rfl := Option.some.inj h
    exact .retryBegin
  | retryStep r ok => exact State.retryStep_moves h
  | retryVideo => exact State.retryVideo_moves h

end VideoProcessing
