import VideoProcessing.Api.Videos
import VideoProcessing.Platform.Moves
import VideoProcessing.Worker.Stored

/-!
# A completed video is complete for its readers

The invariant of `Worker/Stored` over the whole platform, whatever fails, is killed, times out,
overlaps or is retried: the transcode is given the height of the metadata result, and a retry
changes the status alone. A reader that has seen a completed video then finds its data in any
later snapshot.

The platform adds to the pool only what the server hands out and what a retry writes, so one lemma
about each carries the invariant over.
-/

namespace VideoProcessing

open Python UnitOfWork Transitions

/-- The scheduled activities of an execution have plausible arguments and results. -/
structure Tasks.Faithful (R : Readings) (tasks : Tasks) : Prop where
  activity : ∀ t task, tasks t = some task → task.activity.jobType = t ∧ R.Suits task.activity
  result : ∀ t task m, tasks t = some task → task.state = .succeeded (some m) → R.Admits m

/-- Each activity under way is the attempt it was dispatched as. -/
def Tasks.Placed (tasks : Tasks) (attempts : List Attempt) : Prop :=
  ∀ (t : JobType) (task : Task) (failures i : ℕ), tasks t = some task →
    task.state = .running failures i → attempts[i]?.map Attempt.activity = some task.activity

/-- A request to retry changes the status of its copy, and to processing. -/
def RetryPhase.Shaped : RetryPhase → Prop
  | .send video => video.current = video.loaded
  | .commit video => video.current = { video.loaded with status := .processing }
  | _ => True

/-- The platform holds the data it should. -/
structure State.Faithful (R : Readings) (s : State) : Prop where
  pool : s.pool.Faithful R
  tasks : ∀ tasks, s.temporal.current = some tasks → tasks.Faithful R
  placed : ∀ tasks, s.temporal.current = some tasks → tasks.Placed s.pool.attempts
  requests : ∀ phase ∈ s.requests, phase.Shaped

/-- The label reports only values ffprobe may report. -/
def Readings.Reports (R : Readings) : Label → Prop
  | .resume _ ans => R.Answers ans
  | _ => True

variable {R : Readings} {s s' : State} {l : Label}

/-! ## Tasks -/

/-- The activities an execution begins with. -/
theorem Tasks.faithful_initial (R : Readings) : Tasks.initial.Faithful R where
  activity := by
    rintro (_ | _ | _) task htask
    · obtain rfl := Option.some.inj htask
      exact ⟨rfl, trivial⟩
    · obtain rfl := Option.some.inj htask
      exact ⟨rfl, trivial⟩
    · exact nomatch htask
  result := by
    rintro (_ | _ | _) task m htask hstate
    · obtain rfl := Option.some.inj htask
      exact nomatch hstate
    · obtain rfl := Option.some.inj htask
      exact nomatch hstate
    · exact nomatch htask

/-- An activity is replaced. -/
theorem Tasks.Faithful.update {tasks : Tasks} (h : tasks.Faithful R) {t : JobType} {task : Task}
    (hactivity : task.activity.jobType = t ∧ R.Suits task.activity)
    (hresult : ∀ m, task.state = .succeeded (some m) → R.Admits m) :
    Tasks.Faithful R (Function.update tasks t (some task)) where
  activity := fun t' task' htask => by
    by_cases ht : t' = t
    · subst ht
      rw [Function.update_self] at htask
      exact Option.some.inj htask ▸ hactivity
    · rw [Function.update_of_ne ht] at htask
      exact h.activity t' task' htask
  result := fun t' task' m htask hstate => by
    by_cases ht : t' = t
    · subst ht
      rw [Function.update_self] at htask
      exact hresult m (Option.some.inj htask ▸ hstate)
    · rw [Function.update_of_ne ht] at htask
      exact h.result t' task' m htask hstate

/-- None of them has an attempt. -/
theorem Tasks.placed_initial (attempts : List Attempt) : Tasks.initial.Placed attempts := by
  rintro (_ | _ | _) task failures i htask hstate
  · obtain rfl := Option.some.inj htask
    exact nomatch hstate
  · obtain rfl := Option.some.inj htask
    exact nomatch hstate
  · exact nomatch htask

/-- An activity is replaced by one whose attempt is there. -/
theorem Tasks.Placed.update {tasks : Tasks} {attempts : List Attempt} (h : tasks.Placed attempts)
    (t : JobType) {task : Task} (htask : ∀ failures i, task.state = .running failures i →
      attempts[i]?.map Attempt.activity = some task.activity) :
    Tasks.Placed (Function.update tasks t (some task)) attempts := by
  intro t' task' failures i htask' hstate
  by_cases ht : t' = t
  · subst ht
    rw [Function.update_self] at htask'
    obtain rfl := Option.some.inj htask'
    exact htask failures i hstate
  · rw [Function.update_of_ne ht] at htask'
    exact h t' task' failures i htask' hstate

/-- Attempts keep their place and their activity. -/
theorem Tasks.Placed.mono {tasks : Tasks} {attempts attempts' : List Attempt}
    (h : tasks.Placed attempts)
    (hattempts : ∀ (i : ℕ) act, attempts[i]?.map Attempt.activity = some act →
      attempts'[i]?.map Attempt.activity = some act) : tasks.Placed attempts' :=
  fun t task failures i htask hstate => hattempts i _ (h t task failures i htask hstate)

/-- An attempt that goes on keeps its activity. -/
theorem map_activity_set {attempts : List Attempt} {i : ℕ} {a : Attempt}
    (ha : attempts[i]? = some a) (ph : Phase) (j : ℕ) :
    (attempts.set i { a with phase := ph })[j]?.map Attempt.activity =
      attempts[j]?.map Attempt.activity := by
  by_cases hj : j = i
  · subst hj
    rw [getElem?_set_self_of ha, ha]
    rfl
  · rw [List.getElem?_set_ne (Ne.symm hj)]

/-- So do the attempts before a new one. -/
theorem map_activity_append {attempts : List Attempt} {a : Attempt} {j : ℕ} {act : Activity}
    (h : attempts[j]?.map Attempt.activity = some act) :
    (attempts ++ [a])[j]?.map Attempt.activity = some act := by
  obtain ⟨b, hb, rfl⟩ := Option.map_eq_some_iff.mp h
  rw [List.getElem?_append_left (List.getElem?_eq_some_iff.mp hb).1, hb]
  rfl

/-- A failed attempt is not under way. -/
theorem TaskState.fail_ne_running {failures n i : ℕ} {error : ActivityError} :
    TaskState.fail failures error ≠ .running n i := by
  rw [TaskState.fail]
  split <;> exact nofun

/-- Its activity has failed, or waits for the next one. -/
theorem TaskState.fail_cases (failures : ℕ) (error : ActivityError) :
    TaskState.fail failures error = .failed error ∨
      TaskState.fail failures error = .waiting (failures + 1) := by
  rw [TaskState.fail]
  split
  exacts [.inl rfl, .inr rfl]

/-- It has not succeeded. -/
theorem TaskState.fail_ne_succeeded {failures : ℕ} {error : ActivityError}
    {result : Option VideoMetadata} : TaskState.fail failures error ≠ .succeeded result := by
  rw [TaskState.fail]
  split <;> exact nofun

/-! ## Requests -/

/-- The commit of a request to retry leaves the data alone. -/
theorem RetryPhase.Shaped.sameData {video : Tracked Video}
    (h : (RetryPhase.commit video).Shaped) (rows : VideoRows) :
    rows.SameData { rows with video := (dirtyVideo video).apply rows.video } := by
  have h : video.current = { video.loaded with status := .processing } := h
  refine ⟨fun c => ?_, rfl⟩
  simp only [VideoSet.apply_column, dirtyVideo_column, h, Video.column_status, dirty_self, put_none]

/-- A request completes no video. -/
theorem RetryPhase.Shaped.status {video : Tracked Video} (h : (RetryPhase.commit video).Shaped)
    {row : Video} (hstatus : ((dirtyVideo video).apply row).status = .completed) :
    row.status = .completed := by
  have h : video.current = { video.loaded with status := .processing } := h
  simp only [VideoSet.apply, dirtyVideo, h] at hstatus
  by_cases heq : VideoStatus.processing = video.loaded.status
  · rwa [dirty_eq_none.mpr heq] at hstatus
  · rw [dirty_of_ne heq] at hstatus
    cases hstatus

/-- The commit of a request to retry leaves no video completed that was not. -/
theorem RetryPhase.Shaped.status_ne {video : Tracked Video} (h : (RetryPhase.commit video).Shaped)
    {row : Video} (hstatus : row.status ≠ .completed) :
    ((dirtyVideo video).apply row).status ≠ .completed := fun hs => hstatus (h.status hs)

/-! ## Steps -/

/-- An activity changes its state. -/
theorem State.Faithful.setTask (h : s.Faithful R) {t : JobType} {tasks : Tasks} {task : Task}
    (state : TaskState) {attempts : List Attempt} (hcurrent : s.temporal.current = some tasks)
    (htask : tasks t = some task) (hattempts : tasks.Placed attempts)
    (hresult : ∀ m, state = .succeeded (some m) → R.Admits m)
    (hplaced : ∀ failures i, state = .running failures i →
      attempts[i]?.map Attempt.activity = some task.activity) :
    ∀ tasks', (s.temporal.setTask t tasks task state).current = some tasks' →
      tasks'.Faithful R ∧ tasks'.Placed attempts := by
  intro tasks' htasks'
  obtain rfl := Option.some.inj htasks'
  have htasks := h.tasks tasks hcurrent
  exact ⟨htasks.update (htasks.activity t task htask) hresult, hattempts.update t hplaced⟩

/-- A request goes on. -/
theorem State.Faithful.setRequest (h : s.Faithful R) {r : ℕ} {phase : RetryPhase}
    (hphase : phase.Shaped) : ∀ phase' ∈ s.requests.set r phase, phase'.Shaped := by
  intro phase' hmem
  rcases List.mem_or_eq_of_mem_set hmem with hmem | rfl
  exacts [h.requests phase' hmem, hphase]

/-- A request begins. -/
theorem State.Faithful.appendRequest (h : s.Faithful R) {phase : RetryPhase}
    (hphase : phase.Shaped) : ∀ phase' ∈ s.requests ++ [phase], phase'.Shaped := by
  intro phase' hmem
  rcases List.mem_append.mp hmem with hmem | hmem
  · exact h.requests phase' hmem
  · exact List.mem_singleton.mp hmem ▸ hphase

/-- A change of the video row alone that spares the data. -/
theorem State.Faithful.withVideo (h : s.Faithful R) {video : Video}
    (hdata : s.rows.SameData { s.rows with video := video })
    (hstatus : video.status = .completed → s.status = .completed) :
    (s.withVideo video).pool.Faithful R :=
  h.pool.setRows (h.pool.rows.of_sameData hdata (fun _ ht => ht) hstatus) hdata.keeps fun _ hj => hj

/-- The attempt of an activity under way is of that activity. -/
theorem State.Faithful.attempt_jobType (h : s.Faithful R)
    {tasks : Tasks} {t : JobType} {task : Task}
    (hcurrent : s.temporal.current = some tasks) (htask : tasks t = some task) {failures i : ℕ}
    (hstate : task.state = .running failures i) {a : Attempt} (ha : s.pool.attempts[i]? = some a) :
    a.activity.jobType = t := by
  have hplaced := h.placed tasks hcurrent t task failures i htask hstate
  rw [ha, Option.map_some, Option.some.injEq] at hplaced
  rw [hplaced]
  exact ((h.tasks tasks hcurrent).activity t task htask).1

/-- The reported outcome of an attempt. -/
theorem State.Faithful.settle (h : s.Faithful R) {t : JobType} {tasks : Tasks} {task : Task}
    {state : TaskState} (hcurrent : s.temporal.current = some tasks) (htask : tasks t = some task)
    (hresult : ∀ m, state = .succeeded (some m) → R.Admits m)
    (hrunning : ∀ failures i, state ≠ .running failures i) :
    State.Faithful R { s with temporal := s.temporal.setTask t tasks task state } := by
  have htasks := h.setTask state hcurrent htask (h.placed tasks hcurrent) hresult
    fun failures i hstate => absurd hstate (hrunning failures i)
  exact ⟨h.pool, fun tasks' ht => (htasks tasks' ht).1, fun tasks' ht => (htasks tasks' ht).2,
    h.requests⟩

/-- Every step is faithful, and keeps what is stored. -/
theorem State.Faithful.step (h : s.Faithful R) (hl : R.Reports l) (hstep : s.step l = some s') :
    s'.Faithful R ∧ s.rows.Keeps s'.rows := by
  cases State.step_moves hstep with
  | @resume i ans pool hpool =>
    obtain ⟨a, st, ph, ha, hres, rfl⟩ := Pool.resume_eq_some hpool
    obtain ⟨hsuits, hph⟩ := h.pool.attempts i a ha
    refine ⟨⟨h.pool.resume hl hpool, h.tasks, fun tasks htasks => ?_, h.requests⟩,
      ((hres.rowChange (h.pool.sound i a ha).shaped).faithful h.pool.rows hsuits hph).2⟩
    exact (h.placed tasks htasks).mono fun j act hj => (map_activity_set ha ph j).trans hj
  | vanish hpool =>
    obtain ⟨a, ha, rfl⟩ := Pool.vanish_eq_some hpool
    refine ⟨⟨h.pool.vanish hpool, h.tasks, fun tasks htasks => ?_, h.requests⟩, .refl _⟩
    exact (h.placed tasks htasks).mono fun j act hj => (map_activity_set ha .vanished j).trans hj
  | @dispatch t tasks task failures hcurrent htask hstate =>
    have hsuits := ((h.tasks _ hcurrent).activity _ _ htask).2
    have hattempts := (h.placed tasks hcurrent).mono fun j act =>
      map_activity_append (a := ⟨task.activity, .loadVideo⟩)
    have htasks := h.setTask (.running failures s.pool.attempts.length) hcurrent htask
      hattempts nofun fun n i hrunning => by
        obtain ⟨-, rfl⟩ := TaskState.running.inj hrunning
        simp
    exact ⟨⟨h.pool.begin hsuits, fun tasks' ht => (htasks tasks' ht).1,
      fun tasks' ht => (htasks tasks' ht).2, h.requests⟩, .refl _⟩
  | @reportReturned t tasks task failures i a result hcurrent htask hstate ha hphase =>
    refine ⟨h.settle hcurrent htask (fun m hm => ?_) nofun, .refl _⟩
    have hph := (h.pool.attempts i a ha).phase
    rw [hphase] at hph
    exact hph m (TaskState.succeeded.inj hm)
  | @reportRaised t tasks task failures i a error hcurrent htask hstate ha hphase =>
    exact ⟨h.settle hcurrent htask (fun _ hm => absurd hm TaskState.fail_ne_succeeded)
      fun _ _ => TaskState.fail_ne_running, .refl _⟩
  | @timeOut t tasks task failures i hcurrent htask hstate =>
    exact ⟨h.settle hcurrent htask (fun _ hm => absurd hm TaskState.fail_ne_succeeded)
      fun _ _ => TaskState.fail_ne_running, .refl _⟩
  | decide hdecides =>
    cases hdecides with
    | @schedule tasks sourceHeight hcurrent hrun =>
      have htasks := h.tasks tasks hcurrent
      obtain ⟨m, -, hmetadata, -, -, rfl⟩ := run_eq_executeTranscode hrun
      obtain ⟨task, htask, hstate⟩ := Tasks.result?_eq_ok.mp hmetadata
      -- the height is that of the metadata the first activity has returned
      refine ⟨⟨h.pool, fun tasks' htasks' => ?_, fun tasks' htasks' => ?_, h.requests⟩, .refl _⟩ <;>
        obtain rfl := Option.some.inj htasks'
      · exact htasks.update ⟨rfl, htasks.result .metadata task m htask hstate .height⟩ nofun
      · exact (h.placed tasks hcurrent).update .transcode nofun
    | complete | fail => exact ⟨⟨h.pool, nofun, nofun, h.requests⟩, .refl _⟩
  | start hd hstart =>
    obtain ⟨-, -, rfl⟩ := Temporal.startWorkflow_eq_some.mp hstart
    refine ⟨⟨h.pool, fun tasks' htasks' => ?_, fun tasks' htasks' => ?_, h.requests⟩, .refl _⟩ <;>
      obtain rfl := Option.some.inj htasks'
    exacts [Tasks.faithful_initial R, Tasks.placed_initial _]
  | notify | receive | refuse | delete | deleteFails =>
    exact ⟨⟨h.pool, h.tasks, h.placed, h.requests⟩, .refl _⟩
  | retryBegin => exact ⟨⟨h.pool, h.tasks, h.placed, h.appendRequest trivial⟩, .refl _⟩
  | retryRead => exact ⟨⟨h.pool, h.tasks, h.placed, h.setRequest rfl⟩, .refl _⟩
  | retryRefused | retryRaises =>
    exact ⟨⟨h.pool, h.tasks, h.placed, h.setRequest trivial⟩, .refl _⟩
  | @retrySend r video hr =>
    have hshaped : video.current = video.loaded := h.requests _ (List.mem_of_getElem? hr)
    refine ⟨⟨h.pool, h.tasks, h.placed, h.setRequest ?_⟩, .refl _⟩
    simp only [RetryPhase.Shaped, Tracked.modify_current, Tracked.modify_loaded, hshaped]
  | @retryCommit r video hr =>
    have hshaped : (RetryPhase.commit video).Shaped := h.requests _ (List.mem_of_getElem? hr)
    have hdata := hshaped.sameData s.rows
    exact ⟨⟨h.withVideo hdata hshaped.status, h.tasks, h.placed, h.setRequest trivial⟩,
      hdata.keeps⟩
  | retryVideo =>
    have hdata := s.rows.sameData_status .processing
    exact ⟨⟨h.withVideo hdata nofun, h.tasks, h.placed, h.appendRequest trivial⟩, hdata.keeps⟩
  | retryVideoRefused =>
    exact ⟨⟨h.pool, h.tasks, h.placed, h.appendRequest trivial⟩, .refl _⟩

end VideoProcessing
