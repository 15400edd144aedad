import VideoProcessing.Platform.Readers
import VideoProcessing.Platform.Undisturbed
import VideoProcessing.Worker.Copies

/-!
# The metadata a completed job yields

An attempt that finds the metadata job completed answers from the copy of the videos row it loaded
before. It answers with what is stored exactly when no completion has come between its two reads;
otherwise it raises the error its docstring calls a contradiction.

The condition is on the one await that finds the job completed: an attempt that goes past it answers
with its own result.
-/

namespace VideoProcessing

open Python UnitOfWork Transitions

/-- An execution has the stored metadata, and its transcode the stored height. -/
structure Tasks.Yields (video : Video) (tasks : Tasks) : Prop where
  reported : ∀ task result, tasks .metadata = some task → task.state = .succeeded result →
    ∃ m, result = some m ∧ video.metadata = m.columns
  handed : ∀ task sourceHeight, tasks .transcode = some task →
    task.activity = .transcode sourceHeight → video.height = some sourceHeight

/-- No attempt has found a completed metadata job without metadata, and wherever metadata has been
handed on it is what is stored. -/
structure State.Yields (s : State) : Prop where
  attempts : ∀ a ∈ s.pool.attempts, a.Yields s.pool.videoId s.rows
  tasks : ∀ tasks, s.temporal.current = some tasks → tasks.Yields s.rows.video

/-- A completion of the metadata job finds no other metadata stored than its own. -/
def State.keepsMetadata (s : State) : Label → Bool
  | .resume i (.ok _) => s.pool.attempts[i]?.all fun a =>
    match a.activity, a.phase with
    | .extractMetadata, .commitCompletion f => s.rows.video.metadata = (none, none, none) ||
        f.metadata.map VideoMetadata.columns = some s.rows.video.metadata
    | _, _ => true
  | _ => true

abbrev State.KeepsMetadata (s : State) (l : Label) : Prop := s.keepsMetadata l = true

/-- A select that finds the metadata job completed finds the metadata columns as its session has
loaded them. -/
def State.readsInTime (s : State) : Label → Bool
  | .resume i (.ok _) => s.pool.attempts[i]?.all fun a =>
    match a.activity, a.phase with
    | .extractMetadata, .selectJob video => !decide (s.rows.Completed .metadata) ||
        video.current.metadata = s.rows.video.metadata
    | _, _ => true
  | _ => true

abbrev State.ReadsInTime (s : State) (l : Label) : Prop := s.readsInTime l = true

/-- What the invariant adds to the property. -/
structure State.Informed (s : State) : Prop where
  faithful : s.Faithful Readings.any
  copies : s.pool.Each Attempt.Copies

variable {s s' : State} {l : Label} {tasks : Tasks} {task : Task} {t : JobType} {i : ℕ}
  {now : Time}

/-! ## The conditions -/

/-- The completion writes over nothing, or over what is the same. -/
theorem State.keepsMetadata_iff : s.keepsMetadata (.resume i (.ok now)) = true ↔
    ∀ f, s.pool.attempts[i]? = some ⟨.extractMetadata, .commitCompletion f⟩ →
      s.rows.video.metadata = (none, none, none) ∨
        f.metadata.map VideoMetadata.columns = some s.rows.video.metadata := by
  rw [State.keepsMetadata]
  cases s.pool.attempts[i]? with
  | none => simp
  | some a =>
    obtain ⟨act, ph⟩ := a
    cases act <;> cases ph <;> simp

/-- A completed job is found by a session that has its metadata. -/
theorem State.readsInTime_iff : s.readsInTime (.resume i (.ok now)) = true ↔
    ∀ video, s.pool.attempts[i]? = some ⟨.extractMetadata, .selectJob video⟩ →
      s.rows.Completed .metadata → video.current.metadata = s.rows.video.metadata := by
  rw [State.readsInTime]
  cases s.pool.attempts[i]? with
  | none => simp
  | some a =>
    obtain ⟨act, ph⟩ := a
    cases act <;> cases ph <;> simp
    exact imp_iff_not_or.symm

/-! ## Executions -/

/-- The metadata job is that of one activity. -/
theorem Activity.eq_extractMetadata {act : Activity} (h : act.jobType = .metadata) :
    act = .extractMetadata := by
  cases act <;> first | rfl | cases h

/-- What was reported is still in the row. -/
theorem Tasks.Yields.mono {video video' : Video} (h : tasks.Yields video)
    (hwithin : video.Within video') : tasks.Yields video' where
  reported := fun task result htask hstate => by
    obtain ⟨m, hm, hmetadata⟩ := h.reported task result htask hstate
    exact ⟨m, hm, Video.shows_iff.mp ((Video.shows_iff.mpr hmetadata).mono hwithin)⟩
  handed := fun task sourceHeight htask hactivity =>
    hwithin .height sourceHeight (h.handed task sourceHeight htask hactivity)

/-- Nothing has been reported yet. -/
theorem Tasks.yields_initial (video : Video) : Tasks.initial.Yields video where
  reported := fun task result htask hstate => by
    obtain rfl := Option.some.inj htask
    cases hstate
  handed := fun task sourceHeight htask => by cases htask

/-- An activity reaches its next state; the result of the metadata activity is stored. -/
theorem Tasks.Yields.setTask {video : Video} (h : tasks.Yields video) (htask : tasks t = some task)
    {state : TaskState} (hstate : t = .metadata → ∀ result, state = .succeeded result →
      ∃ m, result = some m ∧ video.metadata = m.columns) :
    Tasks.Yields video (Function.update tasks t (some { task with state := state })) where
  reported := fun task' result htask' hstate' => by
    by_cases ht : .metadata = t
    · subst ht
      rw [Function.update_self] at htask'
      obtain rfl := Option.some.inj htask'
      exact hstate rfl result hstate'
    · rw [Function.update_of_ne ht] at htask'
      exact h.reported task' result htask' hstate'
  handed := fun task' sourceHeight htask' hactivity => by
    by_cases ht : .transcode = t
    · subst ht
      rw [Function.update_self] at htask'
      obtain rfl := Option.some.inj htask'
      exact h.handed task sourceHeight htask hactivity
    · rw [Function.update_of_ne ht] at htask'
      exact h.handed task' sourceHeight htask' hactivity

/-- The transcode is given the height of the metadata result. -/
theorem Tasks.Yields.schedule {video : Video} (h : tasks.Yields video) {sourceHeight : ℤ}
    (hrun : VideoProcessingWorkflow.run tasks = .executeTranscode sourceHeight)
    (state : TaskState) : Tasks.Yields video
      (Function.update tasks .transcode (some ⟨.transcode sourceHeight, state⟩)) where
  reported := fun task result htask hstate => h.reported task result htask hstate
  handed := fun task sourceHeight' htask hactivity => by
    rw [Function.update_self] at htask
    obtain rfl := Option.some.inj htask
    obtain rfl := Activity.transcode.inj hactivity
    obtain ⟨m, -, hmetadata, -, -, rfl⟩ := run_eq_executeTranscode hrun
    obtain ⟨task, htask, hstate⟩ := Tasks.result?_eq_ok.mp hmetadata
    obtain ⟨m', hm', hcolumns⟩ := h.reported task (some m) htask hstate
    obtain rfl := Option.some.inj hm'
    exact Video.shows_iff.mpr hcolumns .height

/-! ## Steps -/

/-- A step of the executions alone. -/
theorem State.Yields.setTemporal (h : s.Yields) {temporal : Temporal}
    (htasks : ∀ tasks, temporal.current = some tasks → tasks.Yields s.rows.video) :
    State.Yields { s with temporal := temporal } := ⟨h.attempts, htasks⟩

/-- What a request to retry writes is not metadata. -/
theorem State.Yields.withVideo (h : s.Yields) {video : Video}
    (hcolumns : ∀ c, video.column c = s.rows.video.column c) {requests : List RetryPhase}
    {messages : List Message} :
    State.Yields { s.withVideo video with requests := requests, messages := messages } where
  attempts := fun a ha => (h.attempts a ha).mono
    (Video.within_of_column fun c => (hcolumns c).symm)
  tasks := fun tasks htasks => (h.tasks tasks htasks).mono
    (Video.within_of_column fun c => (hcolumns c).symm)

/-- No column of a blank video is set. -/
theorem Video.column_of_blank {video : Video} (h : video.metadata = (none, none, none))
    (c : Column) : video.column c = none := by
  simp only [Video.metadata, Prod.mk.injEq] at h
  obtain ⟨hd, hw, hh⟩ := h
  cases c
  exacts [hd, hw, hh]

/-- While completions find no other metadata than their own, what is stored stays. -/
theorem State.Informed.within (h : s.Informed) {ans : Answer} {a : Attempt} {st : Store}
    {ph : Phase} (hkeeps : s.keepsMetadata (.resume i ans) = true)
    (ha : s.pool.attempts[i]? = some a)
    (hres : Resumes s.pool.videoId a.activity s.pool.store a.phase ans st ph) :
    s.rows.video.Within st.rows.video := by
  obtain ⟨act, ph₀⟩ := a
  refine hres.within (h.faithful.pool.sound i _ ha).shaped (h.copies i _ ha)
    fun now f hans hact hph m hm c v hv => ?_
  obtain rfl : ans = .ok now := hans
  obtain rfl : act = .extractMetadata := hact
  obtain rfl : ph₀ = .commitCompletion f := hph
  rcases State.keepsMetadata_iff.mp hkeeps f ha with hblank | hown
  · cases hv.symm.trans (Video.column_of_blank hblank c)
  · rw [hm, Option.map_some, Option.some.injEq] at hown
    exact Option.some.inj (hv.symm.trans (Video.shows_iff.mpr hown.symm c))

/-- An await leaves the copies within the row. -/
theorem State.Informed.resume (h : s.Informed) {ans : Answer} {pool : Pool}
    (hpool : s.pool.resume i ans = some pool) (hkeeps : s.keepsMetadata (.resume i ans) = true) :
    pool.Each Attempt.Copies :=
  Pool.Each.resume h.copies hpool
    (fun a _ _ ha hcopies hres =>
      hres.copies (h.faithful.pool.sound i a ha).shaped hcopies (h.within hkeeps ha hres))
    fun _ _ _ _ _ ha hres _ _ hb => hb.mono (h.within hkeeps ha hres)

/-- The attempt that runs yields what is stored exactly when it reads in time. -/
theorem State.Informed.yields_iff (h : s.Informed) {ans : Answer} {a : Attempt} {st : Store}
    {ph : Phase} (ha : s.pool.attempts[i]? = some a)
    (hres : Resumes s.pool.videoId a.activity s.pool.store a.phase ans st ph) :
    Attempt.Yields s.pool.videoId st.rows { a with phase := ph } ↔
      s.readsInTime (.resume i ans) = true := by
  obtain ⟨act, ph₀⟩ := a
  have hshaped := (h.faithful.pool.sound i _ ha).shaped
  have hcopies := h.copies i _ ha
  -- the one await at which the answer depends on how old the copy of the video is
  by_cases hselect : ∃ video now, act = .extractMetadata ∧ ph₀ = .selectJob video ∧
      ans = .ok now ∧ s.rows.Completed .metadata
  · obtain ⟨video, now, rfl, rfl, rfl, hcompleted⟩ := hselect
    have hreads : s.readsInTime (.resume i (.ok now)) = true ↔
        video.current.metadata = s.rows.video.metadata := by
      rw [State.readsInTime_iff, ha]
      simp [hcompleted]
    have hjob : (s.rows.jobs .metadata).map ProcessingJob.status = some .completed := hcompleted
    rw [hreads]
    cases hres with
    | selectNone hnone =>
      rw [show s.rows.jobs .metadata = none from hnone] at hjob
      cases hjob
    | selectJob hsome hstatus =>
      rw [show s.rows.jobs .metadata = some _ from hsome] at hjob
      exact absurd (Option.some.inj hjob) hstatus
    | selectCompleted =>
      refine yields_alreadyCompleted hshaped (hcopies.loaded _ rfl) ?_
      have hcolumn := stored_columns h.faithful.pool.rows hcompleted
      obtain ⟨d, hd⟩ := Option.isSome_iff_exists.mp (hcolumn .durationMs)
      obtain ⟨w, hw⟩ := Option.isSome_iff_exists.mp (hcolumn .width)
      obtain ⟨h, hh⟩ := Option.isSome_iff_exists.mp (hcolumn .height)
      refine ⟨⟨d, w, h⟩, fun c => ?_⟩
      cases c
      exacts [hd, hw, hh]
  · refine iff_of_true (hres.yields hshaped hcopies fun hact video now hph hans hcompleted => ?_) ?_
    · exact hselect ⟨video, now, hact, hph, hans, hcompleted⟩
    · cases ans with
      | ok now =>
        refine State.readsInTime_iff.mpr fun video hvideo hcompleted => ?_
        obtain ⟨rfl, rfl⟩ := Attempt.mk.inj (Option.some.inj (ha.symm.trans hvideo))
        exact absurd ⟨video, now, rfl, rfl, rfl, hcompleted⟩ hselect
      | probed | error | noConnection => rfl

/-- An await leaves what was reported in the row. -/
theorem State.Yields.resume (h : s.Yields) (hinformed : s.Informed) {ans : Answer} {pool : Pool}
    (hpool : s.pool.resume i ans = some pool) (hkeeps : s.keepsMetadata (.resume i ans) = true) :
    State.Yields { s with pool := pool } ↔ s.readsInTime (.resume i ans) = true := by
  obtain ⟨a, st, ph, ha, hres, rfl⟩ := Pool.resume_eq_some hpool
  have hwithin := hinformed.within hkeeps ha hres
  rw [← hinformed.yields_iff ha hres]
  constructor
  · exact fun hyields => hyields.attempts _ (List.mem_of_getElem? (getElem?_set_self_of ha))
  · refine fun hnew => ⟨fun b hb => ?_, fun tasks htasks => (h.tasks tasks htasks).mono hwithin⟩
    obtain ⟨j, hb⟩ := List.mem_iff_getElem?.mp hb
    rcases getElem?_set_cases hb with ⟨-, rfl⟩ | ⟨-, hb⟩
    · exact hnew
    · exact (h.attempts b (List.mem_of_getElem? hb)).mono hwithin

/-- So does every step that keeps the metadata. -/
theorem State.Informed.step (h : s.Informed) (hkeeps : s.KeepsMetadata l)
    (hstep : s.step l = some s') : s'.Informed := by
  refine ⟨(h.faithful.step (Readings.any_reports l) hstep).1, ?_⟩
  have hsame {video : Video} (hcolumns : ∀ c, video.column c = s.rows.video.column c) :
      (s.withVideo video).pool.Each Attempt.Copies :=
    h.copies.mono fun _ ha => ha.mono (Video.within_of_column fun c => (hcolumns c).symm)
  cases State.step_moves hstep with
  | resume hpool => exact h.resume hpool hkeeps
  | vanish hpool => exact Pool.Each.vanish h.copies hpool fun _ => Attempt.copies_idle (.inr rfl)
  | dispatch => exact Pool.Each.begin h.copies (Attempt.copies_idle (.inl rfl))
  | retryCommit hr =>
    have hshaped : RetryPhase.Shaped (.commit _) :=
      h.faithful.requests _ (List.mem_of_getElem? hr)
    exact hsame (hshaped.sameData s.rows).columns
  | retryVideo => exact hsame fun c => Video.column_status _ _ c
  | _ => exact h.copies

/-- A step yields what is stored exactly when it meets the condition. -/
theorem State.Yields.step (h : s.Yields) (hinformed : s.Informed) (hkeeps : s.KeepsMetadata l)
    (hstep : s.step l = some s') : s'.Yields ↔ s.readsInTime l = true := by
  cases State.step_moves hstep with
  | resume hpool => exact h.resume hinformed hpool hkeeps
  | vanish hpool =>
    obtain ⟨a, ha, rfl⟩ := Pool.vanish_eq_some hpool
    refine iff_of_true ⟨fun b hb => ?_, h.tasks⟩ rfl
    rcases List.mem_or_eq_of_mem_set hb with hb | rfl
    · exact h.attempts b hb
    · exact Attempt.yields_idle (.inr rfl)
  | dispatch hcurrent htask =>
    refine iff_of_true ⟨fun b hb => ?_, fun tasks' htasks' => ?_⟩ rfl
    · rcases List.mem_append.mp hb with hb | hb
      · exact h.attempts b hb
      · obtain rfl := List.mem_singleton.mp hb
        exact Attempt.yields_idle (.inl rfl)
    · obtain rfl := Option.some.inj htasks'
      exact (h.tasks _ hcurrent).setTask htask fun _ result hresult => by cases hresult
  | @reportReturned t tasks task failures i a result hcurrent htask hstate ha hphase =>
    refine iff_of_true (h.setTemporal fun tasks' htasks' => ?_) rfl
    obtain rfl := Option.some.inj htasks'
    refine (h.tasks tasks hcurrent).setTask htask fun ht result' hresult => ?_
    obtain rfl := TaskState.succeeded.inj hresult
    -- the result is that of the attempt, and only `extract_metadata` has one
    have hjob := hinformed.faithful.attempt_jobType hcurrent htask hstate ha
    have hact := Activity.eq_extractMetadata (hjob.trans ht)
    exact (h.attempts a (List.mem_of_getElem? ha) hact).2 result hphase
  | @reportRaised t tasks task failures i a error hcurrent htask =>
    refine iff_of_true (h.setTemporal fun tasks' htasks' => ?_) rfl
    obtain rfl := Option.some.inj htasks'
    exact (h.tasks tasks hcurrent).setTask htask fun _ _ hresult =>
      absurd hresult TaskState.fail_ne_succeeded
  | @timeOut t tasks task failures i hcurrent htask =>
    refine iff_of_true (h.setTemporal fun tasks' htasks' => ?_) rfl
    obtain rfl := Option.some.inj htasks'
    exact (h.tasks tasks hcurrent).setTask htask fun _ _ hresult =>
      absurd hresult TaskState.fail_ne_succeeded
  | decide hdecides =>
    refine iff_of_true (h.setTemporal fun tasks' htasks' => ?_) rfl
    cases hdecides with
    | schedule hcurrent hrun =>
      obtain rfl := Option.some.inj htasks'
      exact (h.tasks _ hcurrent).schedule hrun _
    | complete | fail => cases htasks'
  | start hd hstart =>
    obtain ⟨-, -, rfl⟩ := Temporal.startWorkflow_eq_some.mp hstart
    refine iff_of_true ⟨h.attempts, fun tasks' htasks' => ?_⟩ rfl
    obtain rfl := Option.some.inj htasks'
    exact Tasks.yields_initial _
  | retryCommit hr =>
    have hshaped : RetryPhase.Shaped (.commit _) :=
      hinformed.faithful.requests _ (List.mem_of_getElem? hr)
    exact iff_of_true (h.withVideo (hshaped.sameData s.rows).columns) rfl
  | retryVideo => exact iff_of_true (h.withVideo fun c => Video.column_status _ _ c) rfl
  | notify | receive | refuse | delete | deleteFails | retryBegin | retryRead | retryRefused
  | retrySend | retryRaises | retryVideoRefused => exact iff_of_true ⟨h.attempts, h.tasks⟩ rfl

/-! ## Runs -/

/-- In a run whose completions keep the metadata that is stored, every completed metadata job
yields what is stored throughout exactly when every select that finds one completed finds the
columns as its session has loaded them. -/
theorem metadata_yielded {videoId : UUID} {filename key : Str} {ls : List Label}
    (hrun : exec (restrict State.KeepsMetadata State.step) (.created videoId filename key) ls =
      some s) :
    Always State.step State.Yields (.created videoId filename key) ls ↔
      exec (restrict State.ReadsInTime State.step) (.created videoId filename key) ls =
        some s := by
  refine always_iff_exec_restrict_of (I := State.Informed) ?_ ?_ ?_ hrun
  · intro q l q' hinformed hyields hkeeps hstep
    exact ⟨hinformed.step hkeeps hstep, hyields.step hinformed hkeeps hstep⟩
  · exact ⟨State.faithful_created _ videoId filename key, Pool.each_of_nil rfl⟩
  · refine ⟨fun a ha => ?_, fun tasks htasks => by cases htasks⟩
    simp [State.created, Pool.created] at ha

/-- The first attempt at the metadata completes but times out, and the second one answers from what
is stored. -/
def State.answeredFromStore : List Label := List.flatten [
  [.notify, .receive 0, .start 0 .received, .delete 0 true, .dispatch .metadata,
    .dispatch .thumbnail],
  Label.resumes 0 5, [.resume 0 (.probed ⟨1000, 1280, 720⟩ 0)], Label.resumes 0 3,
  [.timeOut .metadata, .dispatch .metadata], Label.resumes 2 2, Label.resumes 1 11,
  [.report .metadata, .report .thumbnail, .decide]]

/-- An attempt that answers from the row. -/
theorem metadata_yielded_clip : ∃ s,
    exec (restrict State.KeepsMetadata State.step) State.clip State.answeredFromStore = some s ∧
    s.temporal.current.any (fun tasks => (tasks .transcode).map Task.activity =
      some (.transcode 720)) = true ∧
    Always State.step State.Yields State.clip State.answeredFromStore := by
  have hkeeps : (exec (restrict State.KeepsMetadata State.step) State.clip
      State.answeredFromStore).any fun s => s.temporal.current.any fun tasks =>
        (tasks .transcode).map Task.activity = some (.transcode 720) := by decide +kernel
  have hreads : (exec (restrict State.ReadsInTime State.step) State.clip
      State.answeredFromStore).isSome := by decide +kernel
  obtain ⟨s, hrun, hs⟩ := (Option.any_eq_true _ _).mp hkeeps
  obtain ⟨s', hs'⟩ := Option.isSome_iff_exists.mp hreads
  obtain rfl : s = s' :=
    Option.some.inj ((exec_of_restrict hrun).symm.trans (exec_of_restrict hs'))
  exact ⟨s, hrun, hs, (metadata_yielded hrun).mpr hs'⟩

/-- The second attempt loads the video before the first one, given up on, completes, and selects
the job after it. -/
def State.readTooEarly : List Label := List.flatten [
  [.notify, .receive 0, .start 0 .received, .delete 0 true, .dispatch .metadata],
  Label.resumes 0 5, [.resume 0 (.probed ⟨1000, 1280, 720⟩ 0)],
  [.timeOut .metadata, .dispatch .metadata, .resume 1 (.ok 0)], Label.resumes 0 3,
  [.resume 1 (.ok 0)]]

/-- The job is completed, its metadata stored, and the second attempt raises. -/
theorem metadata_not_yielded : ∃ s, exec State.step State.clip State.readTooEarly = some s ∧
    s.rows.Completed .metadata ∧
    s.rows.video.metadata = VideoMetadata.columns ⟨1000, 1280, 720⟩ ∧
    (∃ a ∈ s.pool.attempts, a.activity = .extractMetadata ∧
      a.phase = .raised (noStoredMetadata s.pool.videoId)) ∧
    exec (restrict State.KeepsMetadata State.step) State.clip State.readTooEarly = some s := by
  have hrun : (exec (restrict State.KeepsMetadata State.step) State.clip State.readTooEarly).any
      fun s => decide (s.rows.Completed .metadata) &&
        decide (s.rows.video.metadata = VideoMetadata.columns ⟨1000, 1280, 720⟩) &&
        s.pool.attempts.any fun a => decide (a.activity = .extractMetadata) &&
          decide (a.phase = .raised (noStoredMetadata s.pool.videoId)) := by decide +kernel
  obtain ⟨s, hs, hfound⟩ := (Option.any_eq_true _ _).mp hrun
  simp only [Bool.and_eq_true, decide_eq_true_iff, List.any_eq_true] at hfound
  obtain ⟨⟨hcompleted, hmetadata⟩, hraised⟩ := hfound
  exact ⟨s, exec_of_restrict hs, hcompleted, hmetadata, hraised, hs⟩

end VideoProcessing
