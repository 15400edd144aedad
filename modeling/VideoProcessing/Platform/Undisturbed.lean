import VideoProcessing.Platform.Stored
import VideoProcessing.Worker.Absorbing
import VideoProcessing.Worker.Alone

/-!
# Undisturbed executions

Executions in which no attempt is killed or times out and the database accepts every write. A read
may still fail: before the claim, and in the transaction of a completion, it ends the attempt by an
exception that `fail_job` does not get to record. As long as this happens to no attempt that is the
last of its activity, an activity fails for good by a commit of `fail_job`, and a live attempt is
always the one its activity is under way as. Once an activity has failed for good the video stays
failed, as long as no claim of another activity and no retry writes over it.
-/

namespace VideoProcessing

open Python UnitOfWork Transitions

/-! ## The conditions -/

/-- The attempt is in the S3 and ffmpeg calls. -/
def Phase.working : Phase → Bool
  | .work _ _ => true
  | _ => false

/-- The attempt awaits a read of the database. -/
def Phase.reading : Phase → Bool
  | .loadVideo | .selectJob _ | .selectAsset _ _ | .countCompleted _ => true
  | _ => false

/-- No attempt is killed or times out, and the database accepts what it is sent: an await that
raises is a call of S3, ffprobe or ffmpeg. -/
def State.undisturbed (s : State) : Label → Bool
  | .vanish _ | .timeOut _ | .resume _ .noConnection => false
  | .resume i .error => s.pool.attempts[i]?.all fun a => a.phase.working
  | _ => true

/-- No attempt is killed or times out, and the database accepts every write: an await that raises is
a read, or a call of S3, ffprobe or ffmpeg. -/
def State.writable (s : State) : Label → Bool
  | .vanish _ | .timeOut _ => false
  | .resume i .error => s.pool.attempts[i]?.all fun a => a.phase.working || a.phase.reading
  | _ => true

/-- The await ends the attempt by an exception that `fail_job` has not recorded: a read before the
claim raises, or `fail_job` finds its transaction failed. -/
def Phase.unrecorded : Phase → Answer → Bool
  | .loadVideo, .error | .selectJob _, .error => true
  | .failJob f _, .ok _ => f.tx = .broken
  | _, _ => false

/-- The attempt of the activity that is under way is the last one it gets. -/
def State.lastAttempt (s : State) (t : JobType) : Bool :=
  (s.temporal.task? t).any fun (_, task) =>
    match task.state with
    | .running failures _ => maximumAttempts ≤ failures + 1
    | _ => false

/-- The last attempt of an activity does not end by an exception that `fail_job` has not
recorded. -/
def State.recordsFailure (s : State) : Label → Bool
  | .resume i ans => s.pool.attempts[i]?.all fun a =>
    !a.phase.unrecorded ans || !s.lastAttempt a.activity.jobType
  | _ => true

/-- The activity has failed, or its attempt has raised and no other will follow. -/
def Task.failedForGood (attempts : List Attempt) (task : Task) : Bool :=
  match task.state with
  | .failed _ => true
  | .running failures i =>
    match attempts[i]?.map Attempt.phase with
    | some (.raised error) => decide (TaskState.fail failures error = .failed error)
    | _ => false
  | _ => false

def State.failedForGood (s : State) (t : JobType) : Bool :=
  (s.temporal.task? t).any fun (_, task) => task.failedForGood s.pool.attempts

/-- No claim is about to write the video's status once an activity has failed for good. -/
def State.claimsInTime (s : State) : Label → Bool
  | .resume i (.ok _) => s.pool.attempts[i]?.all fun a =>
    match a.phase with
    | .commitClaim f => f.video.loaded.status = .processing || f.video.loaded.status = .completed ||
        JobType.members.all fun t => !s.failedForGood t
    | _ => true
  | _ => true

/-- The step is the commit of a request to retry. -/
def State.commitsRetry (s : State) : Label → Bool
  | .retryVideo => s.status = .failed
  | .retryStep r true =>
    match s.requests[r]? with
    | some (.commit _) => true
    | _ => false
  | _ => false

/-! ## The invariant -/

/-- Every live attempt is the one its activity is under way as. -/
def State.Supervised (s : State) : Prop :=
  ∀ (i : ℕ) (a : Attempt), s.pool.attempts[i]? = some a → a.phase.live = true →
    ∃ tasks task failures, s.temporal.current = some tasks ∧
      tasks a.activity.jobType = some task ∧ task.state = .running failures i

/-- The transcode is scheduled after both other activities have succeeded. -/
def Tasks.Sequenced (tasks : Tasks) : Prop :=
  tasks .transcode ≠ none → ∀ t ≠ .transcode, ∃ result, tasks.result? t = some (.ok result)

/-- A metadata attempt about to find its job completed has loaded the metadata. -/
def Attempt.Calm (rows : VideoRows) (a : Attempt) : Prop :=
  match a.phase with
  | .selectJob video => a.activity = .extractMetadata → rows.Completed .metadata →
      ∀ c, (video.loaded.column c).isSome
  | _ => True

structure State.Calm (s : State) : Prop where
  faithful : s.Faithful Readings.any
  alone : s.pool.Alone
  supervised : s.Supervised
  sequenced : ∀ tasks, s.temporal.current = some tasks → tasks.Sequenced
  calm : s.pool.Each Attempt.Calm
  counted : s.pool.Each Attempt.Counted
  failed : ∀ t, s.failedForGood t = true → s.status = .failed ∧ ¬ s.rows.Completed t

variable {videoId : UUID} {act : Activity} {rows rows' : VideoRows} {st st' : Store}
  {ph ph' : Phase} {ans : Answer} {t : JobType} {p p' : Pool} {i : ℕ} {s s' : State} {l : Label}
  {tasks : Tasks} {task : Task}

/-- Any label is one of any readings. -/
theorem Readings.any_reports (l : Label) : Readings.any.Reports l := by
  cases l with
  | resume i ans =>
    cases ans with
    | probed => exact fun _ => trivial
    | ok | error | noConnection => trivial
  | _ => trivial

/-! ## One await -/

/-- What an await may answer while the database accepts every write. -/
def Phase.writable (ph : Phase) : Answer → Bool
  | .error => ph.working || ph.reading
  | _ => true

/-- A completed metadata job has stored the metadata. -/
theorem stored_columns (hrows : rows.Faithful Readings.any videoId)
    (hcompleted : rows.Completed .metadata) (c : Column) : (rows.video.column c).isSome := by
  obtain ⟨act, hact, -, hstored⟩ := hrows.stored .metadata hcompleted
  cases act with
  | extractMetadata => exact hstored.columns rfl c
  | generateThumbnail | transcode => exact nomatch hact

/-- After its claim an attempt has no job to find completed. -/
theorem claimed_calm (f : Frame) : Attempt.Calm rows ⟨act, claimed videoId act f⟩ := by
  cases act with
  | transcode sourceHeight =>
    by_cases hheight : sourceHeight ≤ 0 <;> simp [claimed, Attempt.Calm, hheight]
  | extractMetadata | generateThumbnail => trivial

/-- A row that is loaded has the metadata if the job is completed. -/
theorem Resumes.calm (h : Resumes videoId act st ph ans st' ph')
    (hrows : st.rows.Faithful Readings.any videoId) : Attempt.Calm st'.rows ⟨act, ph'⟩ := by
  cases h with
  | load => exact fun _ hcompleted => stored_columns hrows hcompleted
  | selectCompleted =>
    cases act with
    | extractMetadata =>
      simp only [alreadyCompleted]
      split <;> trivial
    | generateThumbnail | transcode => trivial
  | commitClaim => exact claimed_calm _
  | call _ _ hwork | probe hwork | upload hwork =>
    rcases working_cases hwork with ⟨rfl, -⟩ | ⟨-, g, assets, rfl⟩
    · trivial
    · cases assets <;> trivial
  | @selectAsset _ _ _ _ todo => cases todo <;> trivial
  | selectNone | selectJob | insert | insertLost | giveUp | workFails | flush | countCompleted
  | commitCompletion | completionFails | noConnection | failJobBroken | failJob | failJobFails =>
    trivial

/-- The others do not complete its job. -/
theorem Attempt.Calm.mono {b : Attempt} (hb : b.Calm rows) (hjobs : b.phase.live = true →
    rows'.jobs b.activity.jobType = rows.jobs b.activity.jobType) : b.Calm rows' := by
  obtain ⟨act, ph⟩ := b
  cases ph with
  | selectJob video =>
    rintro rfl hcompleted
    exact hb rfl ((completed_congr (hjobs rfl)).mp hcompleted)
  | _ => trivial

/-- While the database accepts every write, an attempt raises by a commit of `fail_job`, unless its
exception goes unrecorded. -/
theorem Resumes.raised_cases (h : Resumes videoId act st ph ans st' ph')
    (hans : ph.writable ans = true) (hrecorded : ph.unrecorded ans = false)
    (hshaped : ph.Shaped videoId act)
    (hun : Attempt.Unfinished st.rows ⟨act, ph⟩) (hcalm : Attempt.Calm st.rows ⟨act, ph⟩)
    {error : ActivityError} (hph' : ph' = .raised error) :
    ∃ f now, ph = .failJob f error ∧ ans = .ok now ∧ f.tx ≠ .broken ∧ f.Failing ∧
      st'.rows = f.commit act.jobType st.rows := by
  cases h with
  | failJob htx =>
    obtain rfl := Phase.raised.inj hph'
    exact ⟨_, _, rfl, rfl, htx, hshaped htx, rfl⟩
  -- what fail_job could not record is excluded
  | failJobBroken htx => exact absurd htx (of_decide_eq_false hrecorded)
  | insertLost hjob =>
    have hnone : st.rows.jobs act.jobType = none := hun
    cases hnone.symm.trans hjob
  | giveUp hph =>
    cases ph with
    | loadVideo | selectJob => cases hrecorded
    | insertJob | commitClaim => cases hans
    | _ => cases hph
  | failJobFails => cases hans
  | @selectCompleted _ video _ hjob hstatus =>
    cases act with
    | extractMetadata =>
      -- a completed metadata job has its columns, so `_stored_metadata` does not raise
      have hcompleted : st.rows.Completed .metadata := by
        rw [VideoRows.Completed, VideoRows.jobStatus]
        rw [Activity.jobType] at hjob
        rw [hjob, Option.map_some, hstatus]
      have hcolumns := hcalm rfl hcompleted
      have hcurrent : video.current = video.loaded := hshaped
      obtain ⟨d, hd⟩ := Option.isSome_iff_exists.mp (hcolumns .durationMs)
      obtain ⟨w, hw⟩ := Option.isSome_iff_exists.mp (hcolumns .width)
      obtain ⟨h, hh⟩ := Option.isSome_iff_exists.mp (hcolumns .height)
      simp only [Video.column] at hd hw hh
      simp only [alreadyCompleted, storedMetadata, hcurrent, hd, hw, hh] at hph'
      cases hph'
    | generateThumbnail | transcode => cases hph'
  | commitClaim =>
    cases act with
    | transcode =>
      rw [claimed] at hph'
      split at hph' <;> cases hph'
    | extractMetadata | generateThumbnail => cases hph'
  | call _ _ hwork | probe hwork | upload hwork =>
    subst hph'
    exact absurd (working_underway hwork) Bool.false_ne_true
  | @selectAsset _ _ _ _ todo => cases todo <;> cases hph'
  | _ => cases hph'

/-- An exception that goes unrecorded leaves the activity its other attempts. -/
theorem Resumes.unrecorded_retryable (h : Resumes videoId act st ph ans st' ph')
    (hunrecorded : ph.unrecorded ans = true) {error : ActivityError} (hph' : ph' = .raised error) :
    error.nonRetryable = false := by
  cases h with
  | giveUp | failJobBroken =>
    obtain rfl := Phase.raised.inj hph'
    rfl
  | failJob htx => exact absurd (of_decide_eq_true hunrecorded) htx
  | completionFails => cases hph'
  | _ => cases hunrecorded

/-- The commit of another activity leaves a failed video failed, unless it is a claim. -/
theorem RowChange.status_failed (h : RowChange act rows ph rows')
    (hclaim : ∀ f, ph = .commitClaim f → f.video.loaded.status.Claimed)
    (hcounted : Attempt.Counted rows ⟨act, ph⟩) (ht : t ≠ act.jobType)
    (hnot : ¬ rows.Completed t) (hstatus : rows.video.status = .failed) :
    rows'.video.status = .failed := by
  cases h with
  | same | insert => exact hstatus
  | claim hf =>
    rw [hf.commit_eq, Writes.apply_status, hf.pending_status_of_claimed (hclaim _ rfl), put_none,
      hstatus]
  | complete hf =>
    rw [hf.commit_status]
    rcases hf.pending_status with hp | hp
    · rw [hp, put_none, hstatus]
    · exact absurd (hcounted _ rfl hp t ht) hnot
  | fail _ hf => exact hf.commit_status

/-! ## Activities that have failed for good -/

/-- By the activity of the open execution. -/
theorem State.failedForGood_iff : s.failedForGood t = true ↔
    ∃ tasks task, s.temporal.current = some tasks ∧ tasks t = some task ∧
      task.failedForGood s.pool.attempts = true := by
  rw [State.failedForGood]
  cases htask : s.temporal.task? t with
  | none =>
    simp only [Option.any_none, Bool.false_eq_true, false_iff, not_exists, not_and]
    intro tasks task hcurrent ht
    exact absurd (htask.symm.trans (Temporal.task?_eq_some.mpr ⟨hcurrent, ht⟩)) nofun
  | some x =>
    obtain ⟨tasks, task⟩ := x
    obtain ⟨hcurrent, ht⟩ := Temporal.task?_eq_some.mp htask
    refine ⟨fun h => ⟨tasks, task, hcurrent, ht, h⟩, fun ⟨tasks', task', hcurrent', ht', h⟩ => ?_⟩
    obtain rfl := Option.some.inj (hcurrent.symm.trans hcurrent')
    obtain rfl := Option.some.inj (ht.symm.trans ht')
    exact h

/-- By the state of the activity and of its attempt. -/
theorem Task.failedForGood_iff {attempts : List Attempt} :
    task.failedForGood attempts = true ↔ (∃ error, task.state = .failed error) ∨
      ∃ failures i a error, task.state = .running failures i ∧ attempts[i]? = some a ∧
        a.phase = .raised error ∧ TaskState.fail failures error = .failed error := by
  obtain ⟨act, state⟩ := task
  cases state with
  | failed error => simp [Task.failedForGood]
  | waiting | succeeded => simp [Task.failedForGood]
  | running failures i =>
    simp only [Task.failedForGood, reduceCtorEq, exists_false, false_or, TaskState.running.injEq]
    constructor
    · intro h
      split at h
      · rename_i error hphase
        obtain ⟨a, ha, hphase⟩ := Option.map_eq_some_iff.mp hphase
        exact ⟨failures, i, a, error, ⟨rfl, rfl⟩, ha, hphase, of_decide_eq_true h⟩
      · exact nomatch h
    · rintro ⟨n, j, a, error, ⟨rfl, rfl⟩, ha, hphase, hfail⟩
      simp [ha, hphase, hfail]

/-- An activity whose attempt is live has not failed for good. -/
theorem State.Supervised.not_failedForGood (h : s.Supervised) {a : Attempt}
    (ha : s.pool.attempts[i]? = some a) (hlive : a.phase.live = true) :
    s.failedForGood a.activity.jobType ≠ true := by
  intro hfailed
  obtain ⟨tasks, task, failures, hcurrent, htask, hstate⟩ := h i a ha hlive
  obtain ⟨tasks', task', hcurrent', htask', hfailed⟩ := State.failedForGood_iff.mp hfailed
  obtain rfl := Option.some.inj (hcurrent.symm.trans hcurrent')
  obtain rfl := Option.some.inj (htask.symm.trans htask')
  rcases Task.failedForGood_iff.mp hfailed with ⟨error, hstate'⟩ |
    ⟨n, j, b, error, hstate', hb, hphase, -⟩
  · exact nomatch hstate.symm.trans hstate'
  · obtain ⟨-, rfl⟩ := TaskState.running.inj (hstate.symm.trans hstate')
    obtain rfl := Option.some.inj (ha.symm.trans hb)
    rw [hphase] at hlive
    exact nomatch hlive

/-- Without an open execution nothing is under way. -/
theorem State.not_failedForGood_of_closed (h : s.temporal.current = none) (t : JobType) :
    s.failedForGood t ≠ true := by
  intro hfailed
  obtain ⟨tasks, -, hcurrent, -⟩ := State.failedForGood_iff.mp hfailed
  exact nomatch h.symm.trans hcurrent

/-- Without an execution no attempt is alive. -/
theorem State.Supervised.not_live_of_closed (h : s.Supervised)
    (hcurrent : s.temporal.current = none) {a : Attempt} (ha : a ∈ s.pool.attempts) :
    a.phase.live = false := by
  obtain ⟨i, hi⟩ := List.mem_iff_getElem?.mp ha
  by_contra hlive
  obtain ⟨tasks, -, -, hopen, -⟩ := h i a hi (by simpa using hlive)
  exact nomatch hcurrent.symm.trans hopen

/-- A failure that is not reported yet was there before, or is that of the attempt that ran. -/
theorem State.failedForGood_resume {a : Attempt} (ha : s.pool.attempts[i]? = some a)
    (h : State.failedForGood { s with pool := { s.pool with
      store := st, attempts := s.pool.attempts.set i { a with phase := ph } } } t = true) :
    s.failedForGood t = true ∨ ∃ tasks task failures error, s.temporal.current = some tasks ∧
      tasks t = some task ∧ task.state = .running failures i ∧ ph = .raised error ∧
      TaskState.fail failures error = .failed error := by
  obtain ⟨tasks, task, hcurrent, htask, hfailed⟩ := State.failedForGood_iff.mp h
  rcases Task.failedForGood_iff.mp hfailed with ⟨error, hstate⟩ |
    ⟨n, j, b, error, hstate, hb, hphase, hfail⟩
  · exact .inl (State.failedForGood_iff.mpr ⟨tasks, task, hcurrent, htask,
      Task.failedForGood_iff.mpr (.inl ⟨error, hstate⟩)⟩)
  · rcases getElem?_set_cases hb with ⟨rfl, rfl⟩ | ⟨-, hb⟩
    · exact .inr ⟨tasks, task, n, error, hcurrent, htask, hstate, hphase, hfail⟩
    · exact .inl (State.failedForGood_iff.mpr ⟨tasks, task, hcurrent, htask,
        Task.failedForGood_iff.mpr (.inr ⟨n, j, b, error, hstate, hb, hphase, hfail⟩)⟩)

/-- A failure in an updated table of activities is that of the updated one, or was there before. -/
theorem State.failedForGood_setTask {state : TaskState} {attempts : List Attempt} {pool : Pool}
    (hpool : pool.attempts = attempts) {t' : JobType}
    (h : State.failedForGood { s with
      temporal := s.temporal.setTask t tasks task state, pool := pool } t' = true) :
    (t' = t ∧ Task.failedForGood attempts { task with state := state } = true) ∨
      ∃ task', tasks t' = some task' ∧ task'.failedForGood attempts = true := by
  subst hpool
  obtain ⟨tasks', task', hcurrent', htask', hfailed⟩ := State.failedForGood_iff.mp h
  obtain rfl := Option.some.inj hcurrent'
  by_cases ht : t' = t
  · subst ht
    rw [Function.update_self] at htask'
    obtain rfl := Option.some.inj htask'
    exact .inl ⟨rfl, hfailed⟩
  · rw [Function.update_of_ne ht] at htask'
    exact .inr ⟨task', htask', hfailed⟩

/-! ## Steps of an attempt -/

/-- The await of an attempt is one the database accepts. -/
theorem State.writable_resume {a : Attempt} (h : s.writable (.resume i ans) = true)
    (ha : s.pool.attempts[i]? = some a) : a.phase.writable ans = true := by
  cases ans with
  | error => simpa [State.writable, Phase.writable, ha] using h
  | ok | probed | noConnection => rfl

/-- Where nothing is disturbed the database accepts every write. -/
theorem State.writable_of_undisturbed (h : s.undisturbed l = true) : s.writable l = true := by
  cases l with
  | resume i ans =>
    cases ans with
    | error =>
      rw [State.undisturbed] at h
      rw [State.writable]
      cases ha : s.pool.attempts[i]? with
      | none => rfl
      | some a =>
        rw [ha, Option.all_some] at h
        rw [Option.all_some, h, Bool.true_or]
    | ok | probed | noConnection => rfl
  | vanish | timeOut => exact absurd h Bool.false_ne_true
  | _ => rfl

/-- An activity whose exception goes unrecorded has another attempt to come. -/
theorem State.fail_of_unrecorded {a : Attempt} {failures : ℕ} {error : ActivityError}
    (h : s.recordsFailure (.resume i ans) = true) (ha : s.pool.attempts[i]? = some a)
    (hcurrent : s.temporal.current = some tasks) (htask : tasks a.activity.jobType = some task)
    (hstate : task.state = .running failures i) (hretryable : error.nonRetryable = false)
    (hunrecorded : a.phase.unrecorded ans = true) :
    TaskState.fail failures error ≠ .failed error := by
  have htask? := Temporal.task?_eq_some.mpr ⟨hcurrent, htask⟩
  have hlast : s.lastAttempt a.activity.jobType = false := by
    simpa [State.recordsFailure, ha, hunrecorded] using h
  simp only [State.lastAttempt, htask?, Option.any_some, hstate] at hlast
  have hmore : ¬ maximumAttempts ≤ failures + 1 := of_decide_eq_false hlast
  rw [TaskState.fail, hretryable, if_neg (by simpa using hmore)]
  intro hfailed
  cases hfailed

/-- A claim in time. -/
theorem State.claimsInTime_resume {a : Attempt} {f : Frame} {now : Time}
    (h : s.claimsInTime (.resume i (.ok now)) = true) (ha : s.pool.attempts[i]? = some a)
    (hph : a.phase = .commitClaim f) :
    f.video.loaded.status.Claimed ∨ ∀ t, s.failedForGood t ≠ true := by
  have h : (f.video.loaded.status = .processing ∨ f.video.loaded.status = .completed) ∨
      ∀ t ∈ JobType.members, s.failedForGood t = false := by
    simpa [State.claimsInTime, ha, hph] using h
  exact h.imp_right fun hall t => by simp [hall t t.mem_members]

/-- A new attempt has not raised, and a failure before it was one of the old attempts. -/
theorem State.failedForGood_begin {t' : JobType} {failures : ℕ}
    (hcurrent : s.temporal.current = some tasks)
    (h : State.failedForGood { s with
      temporal := s.temporal.setTask t tasks task (.running failures s.pool.attempts.length)
      pool := s.pool.begin task.activity } t' = true) : s.failedForGood t' = true := by
  have hold {b : Attempt} {j : ℕ} {error : ActivityError}
      (hb : (s.pool.begin task.activity).attempts[j]? = some b)
      (hphase : b.phase = .raised error) : s.pool.attempts[j]? = some b := by
    rcases getElem?_append_cases hb with ⟨-, rfl⟩ | hb
    · cases hphase
    · exact hb
  rcases State.failedForGood_setTask rfl h with ⟨rfl, hlost⟩ | ⟨task', htask', hlost⟩
  · rcases Task.failedForGood_iff.mp hlost with
      ⟨error, herror⟩ | ⟨n, j, b, e, hrun, hb, hphase, -⟩
    · cases herror
    · obtain ⟨-, rfl⟩ := TaskState.running.inj hrun
      cases (List.getElem?_eq_none le_rfl).symm.trans (hold hb hphase)
  · refine State.failedForGood_iff.mpr ⟨tasks, task', hcurrent, htask', ?_⟩
    rcases Task.failedForGood_iff.mp hlost with herror | ⟨n, j, b, e, hrun, hb, hphase, hfail⟩
    · exact Task.failedForGood_iff.mpr (.inl herror)
    · exact Task.failedForGood_iff.mpr (.inr ⟨n, j, b, e, hrun, hold hb hphase, hphase, hfail⟩)

/-- An activity fails for good by a commit of `fail_job`. -/
theorem State.Calm.failedForGood_cases (h : s.Calm) (hwritable : s.writable l = true)
    (hrecords : s.recordsFailure l = true) (hstep : s.step l = some s')
    (hfailed : s'.failedForGood t = true) :
    s.failedForGood t = true ∨ ∃ i a f error now, l = .resume i (.ok now) ∧
      s.pool.attempts[i]? = some a ∧ a.phase = .failJob f error ∧ f.tx ≠ .broken ∧ f.Failing ∧
      s.rows.jobs t ≠ none ∧ s'.rows = f.commit t s.rows := by
  cases State.step_moves hstep with
  | @resume i ans pool hpool =>
    obtain ⟨a, st, ph, ha, hres, rfl⟩ := Pool.resume_eq_some hpool
    rcases State.failedForGood_resume ha hfailed with hbefore |
      ⟨tasks, task, failures, error, hcurrent, htask, hstate, rfl, hfail⟩
    · exact .inl hbefore
    · obtain ⟨hshaped, hpresent⟩ := h.alone.sound i a ha
      have hjob := h.faithful.attempt_jobType hcurrent htask hstate ha
      -- an end that fail_job has not recorded is excluded by the step's condition
      have hrecorded : a.phase.unrecorded ans = false := by
        by_contra hunrecorded
        rw [Bool.not_eq_false] at hunrecorded
        have hretryable := hres.unrecorded_retryable hunrecorded rfl
        exact State.fail_of_unrecorded hrecords ha hcurrent (hjob ▸ htask) hstate hretryable
          hunrecorded hfail
      obtain ⟨f, now, hph, rfl, htx, hf, hrows⟩ := hres.raised_cases
        (State.writable_resume hwritable ha) hrecorded hshaped (h.alone.unfinished i a ha)
        (h.calm i a ha) rfl
      rw [hjob] at hpresent hrows
      exact .inr ⟨i, a, f, error, now, rfl, ha, hph, htx, hf, hpresent (by rw [hph]; rfl), hrows⟩
  | vanish | timeOut => exact absurd hwritable Bool.false_ne_true
  | dispatch hcurrent => exact .inl (State.failedForGood_begin hcurrent hfailed)
  | @reportReturned t₀ tasks task failures j a result hcurrent =>
    left
    -- the reported task has succeeded; any other is as before
    rcases State.failedForGood_setTask rfl hfailed with ⟨rfl, hlost⟩ | ⟨task', htask', hlost⟩
    · exact nomatch hlost
    · exact State.failedForGood_iff.mpr ⟨tasks, task', hcurrent, htask', hlost⟩
  | @reportRaised t₀ tasks task failures j a error hcurrent htask hstate ha hphase =>
    left
    rcases State.failedForGood_setTask rfl hfailed with ⟨rfl, hlost⟩ | ⟨task', htask', hlost⟩
    -- a report makes a task failed only if its attempt had failed for good already
    · rcases TaskState.fail_cases failures error with hfail | hfail
      · exact State.failedForGood_iff.mpr ⟨tasks, task, hcurrent, htask,
          Task.failedForGood_iff.mpr (.inr ⟨failures, j, a, error, hstate, ha, hphase, hfail⟩)⟩
      · rw [hfail] at hlost
        exact nomatch hlost
    · exact State.failedForGood_iff.mpr ⟨tasks, task', hcurrent, htask', hlost⟩
  | decide hdecides =>
    cases hdecides with
    | @schedule tasks sourceHeight hcurrent hrun =>
      left
      obtain ⟨tasks', task, hcurrent', htask, hlost⟩ := State.failedForGood_iff.mp hfailed
      obtain rfl := Option.some.inj hcurrent'
      -- only the transcode task is new, and it waits
      by_cases ht : t = .transcode
      · subst ht
        rw [Function.update_self] at htask
        obtain rfl := Option.some.inj htask
        exact absurd hlost Bool.false_ne_true
      · rw [Function.update_of_ne ht] at htask
        exact State.failedForGood_iff.mpr ⟨tasks, task, hcurrent, htask, hlost⟩
    | complete | fail => exact absurd hfailed (State.not_failedForGood_of_closed rfl t)
  | start hd hstart =>
    -- a new execution has no failed task
    obtain ⟨-, -, rfl⟩ := Temporal.startWorkflow_eq_some.mp hstart
    obtain ⟨tasks', task, hcurrent', htask, hlost⟩ := State.failedForGood_iff.mp hfailed
    obtain rfl := Option.some.inj hcurrent'
    cases t with
    | metadata | thumbnail =>
      obtain rfl := Option.some.inj htask
      exact nomatch hlost
    | transcode => exact nomatch htask
  | notify | receive | refuse | delete | deleteFails | retryBegin | retryRead | retryRefused
  | retrySend | retryRaises | retryCommit | retryVideo | retryVideoRefused => exact .inl hfailed

/-- While an activity has failed for good, the other attempts leave the video failed and that
activity's job as it is. -/
theorem State.Calm.failed_resume (h : s.Calm) {a : Attempt} (ha : s.pool.attempts[i]? = some a)
    (hres : Resumes s.pool.videoId a.activity s.pool.store a.phase ans st ph)
    (hclaims : s.claimsInTime (.resume i ans) = true) (hfailed : s.failedForGood t = true) :
    st.rows.video.status = .failed ∧ ¬ st.rows.Completed t := by
  obtain ⟨hstatus, hnot⟩ := h.failed t hfailed
  have hshaped := (h.alone.sound i a ha).shaped
  have hne : t ≠ a.activity.jobType := fun heq =>
    h.supervised.not_failedForGood ha hres.live (heq ▸ hfailed)
  have hchange := hres.rowChange hshaped
  refine ⟨?_, fun hcompleted => hnot ((hchange.completed_of_ne hne).mp hcompleted)⟩
  cases ans with
  | ok now =>
    refine hchange.status_failed (fun f hf => ?_) (h.counted i a ha) hne hnot hstatus
    exact (State.claimsInTime_resume hclaims ha hf).resolve_right fun hall => hall t hfailed
  | probed | error | noConnection =>
    rw [hres.rows_eq_of_not_ok fun now heq => nomatch heq]
    exact hstatus

/-- Only awaits and requests write to the rows. -/
theorem State.rows_of_step (hstep : s.step l = some s') :
    (∃ i ans, l = .resume i ans) ∨ s.commitsRetry l = true ∨ s'.rows = s.rows := by
  cases State.step_moves hstep with
  | resume => exact .inl ⟨_, _, rfl⟩
  | vanish hpool =>
    obtain ⟨_, -, rfl⟩ := Pool.vanish_eq_some hpool
    exact .inr (.inr rfl)
  | retryCommit hr => exact .inr (.inl (by simp [State.commitsRetry, hr]))
  | retryVideo hstatus => exact .inr (.inl (by simp [State.commitsRetry, hstatus]))
  | _ => exact .inr (.inr rfl)

/-- The video is failed, and stays so, once an activity has failed for good. -/
theorem State.Calm.failed_step (h : s.Calm) (hwritable : s.writable l = true)
    (hrecords : s.recordsFailure l = true) (hclaims : s.claimsInTime l = true)
    (hretry : s.commitsRetry l = true → ∀ t, s.failedForGood t ≠ true)
    (hstep : s.step l = some s') (hfailed : s'.failedForGood t = true) :
    s'.status = .failed ∧ ¬ s'.rows.Completed t := by
  rcases h.failedForGood_cases hwritable hrecords hstep hfailed with hbefore |
    ⟨i, a, f, error, now, -, -, -, -, hf, hjob, hrows⟩
  · rcases State.rows_of_step hstep with ⟨i, ans, rfl⟩ | hcommits | hrows
    · cases State.step_moves hstep with
      | resume hpool =>
        obtain ⟨a, st, ph, ha, hres, rfl⟩ := Pool.resume_eq_some hpool
        exact h.failed_resume ha hres hclaims hbefore
    · exact absurd hbefore (hretry hcommits t)
    · rw [State.status, hrows]
      exact h.failed t hbefore
  · rw [State.status, hrows]
    refine ⟨hf.commit_status, fun hcompleted => ?_⟩
    exact nomatch (hf.commit_jobStatus hjob).symm.trans hcompleted

/-- An await keeps the calm. -/
theorem State.Calm.resume (h : s.Calm) {pool : Pool} (hpool : s.pool.resume i ans = some pool)
    (hfaithful : State.Faithful Readings.any { s with pool := pool })
    (hfailed : ∀ t, State.failedForGood { s with pool := pool } t = true →
      State.status { s with pool := pool } = .failed ∧ ¬ pool.rows.Completed t) :
    State.Calm { s with pool := pool } := by
  refine ⟨hfaithful, h.alone.resume hpool, ?_, h.sequenced, ?_, ?_, hfailed⟩
  · obtain ⟨a, st, ph, ha, hres, rfl⟩ := Pool.resume_eq_some hpool
    intro j b hb hlive
    rcases getElem?_set_cases hb with ⟨rfl, rfl⟩ | ⟨-, hb⟩
    · exact h.supervised j a ha hres.live
    · exact h.supervised j b hb hlive
  · refine h.calm.resume hpool ?_ ?_
    · intro a st ph ha _ hres
      exact hres.calm h.faithful.pool.rows
    · intro a st ph j b ha hres hj hb hcalm
      exact hcalm.mono fun hlive => hres.jobs_of_ne fun heq =>
        hj (h.alone.one hb ha hlive hres.live heq)
  · refine h.counted.resume hpool ?_ ?_
    · intro a st ph ha _ hres
      exact hres.counted (h.alone.sound i a ha).shaped
    · intro a st ph j b ha hres _ _ hb f hf hpending t ht
      obtain ⟨hshaped, hpresent⟩ := h.alone.sound i a ha
      exact (hres.rowChange hshaped).completed_of_unfinished (h.alone.unfinished i a ha) hpresent
        (hb f hf hpending t ht)

/-! ## Steps of the workflow -/

/-- A closing execution has no activity under way. -/
theorem run_settled {command : Command} (hrun : VideoProcessingWorkflow.run tasks = command)
    (hclosing : command = .complete ∨ ∃ error, command = .fail error) (hseq : tasks.Sequenced)
    (htask : tasks t = some task) : ∃ result, tasks.result? t = some result := by
  subst hrun
  -- `run` closes after the siblings' results only
  have hboth : ∃ metadata thumbnail, tasks.result? .metadata = some metadata ∧
      tasks.result? .thumbnail = some thumbnail := by
    rcases hclosing with hrun | ⟨error, hrun⟩ <;>
    · simp only [VideoProcessingWorkflow.run] at hrun
      split at hrun
      · rename_i metadata thumbnail hmetadata hthumbnail
        exact ⟨metadata, thumbnail, hmetadata, hthumbnail⟩
      · cases hrun
  obtain ⟨metadata, thumbnail, hmetadata, hthumbnail⟩ := hboth
  cases t with
  | metadata => exact ⟨_, hmetadata⟩
  | thumbnail => exact ⟨_, hthumbnail⟩
  | transcode =>
    have hsome : tasks .transcode ≠ none := by
      rw [htask]
      exact Option.some_ne_none _
    obtain ⟨m, hm⟩ := hseq hsome .metadata (by decide)
    obtain ⟨r, hr⟩ := hseq hsome .thumbnail (by decide)
    rcases hclosing with hrun | ⟨error, hrun⟩
    · obtain ⟨result, hresult⟩ := run_eq_complete hrun
      exact ⟨_, hresult⟩
    -- the error is one of the three, and the siblings have succeeded
    · obtain ⟨t, ht⟩ := run_eq_fail hrun
      cases t with
      | metadata => cases hm.symm.trans ht
      | thumbnail => cases hr.symm.trans ht
      | transcode => exact ⟨_, ht⟩

/-- Once the execution closes no attempt is live. -/
theorem State.Supervised.settled (h : s.Supervised) (hcurrent : s.temporal.current = some tasks)
    (hsettled : ∀ t task, tasks t = some task → ∃ result, tasks.result? t = some result)
    {a : Attempt} (ha : s.pool.attempts[i]? = some a) : a.phase.live = false := by
  by_contra hlive
  obtain ⟨tasks', task, failures, hcurrent', htask, hstate⟩ := h i a ha (by simpa using hlive)
  obtain rfl := Option.some.inj (hcurrent.symm.trans hcurrent')
  obtain ⟨result, hresult⟩ := hsettled _ task htask
  rw [Tasks.result?, htask, Option.bind_some, Task.result?, hstate] at hresult
  cases hresult

/-- An activity that has no result yet changes its state. -/
theorem Tasks.Sequenced.setTask (h : tasks.Sequenced) (htask : tasks t = some task)
    (hopen : tasks.result? t = none) (state : TaskState) :
    Tasks.Sequenced (Function.update tasks t (some { task with state := state })) := by
  intro hsome t' ht'
  have hbefore : tasks .transcode ≠ none := by
    intro hnone
    have hne : JobType.transcode ≠ t := by
      rintro rfl
      exact nomatch hnone.symm.trans htask
    rw [Function.update_of_ne hne] at hsome
    exact hsome hnone
  obtain ⟨result, hresult⟩ := h hbefore t' ht'
  have hne : t' ≠ t := by
    rintro rfl
    exact nomatch hopen.symm.trans hresult
  exact ⟨result, by rwa [Tasks.result?, Function.update_of_ne hne]⟩

/-- The transcode is scheduled after both. -/
theorem Tasks.sequenced_schedule {sourceHeight : ℤ}
    (hrun : VideoProcessingWorkflow.run tasks = .executeTranscode sourceHeight) (task : Task) :
    Tasks.Sequenced (Function.update tasks .transcode (some task)) := by
  obtain ⟨m, result, hmetadata, hthumbnail, -, -⟩ := run_eq_executeTranscode hrun
  intro _ t ht
  rw [Tasks.result?, Function.update_of_ne ht]
  cases t with
  | metadata => exact ⟨_, hmetadata⟩
  | thumbnail => exact ⟨_, hthumbnail⟩
  | transcode => exact absurd rfl ht

/-- An activity under way has no result. -/
theorem Tasks.result?_of_running {failures : ℕ} (htask : tasks t = some task)
    (hstate : task.state = .running failures i) : tasks.result? t = none := by
  rw [Tasks.result?, htask, Option.bind_some, Task.result?, hstate]

/-- Nor has one that waits. -/
theorem Tasks.result?_of_waiting {failures : ℕ} (htask : tasks t = some task)
    (hstate : task.state = .waiting failures) : tasks.result? t = none := by
  rw [Tasks.result?, htask, Option.bind_some, Task.result?, hstate]

/-- The attempt of an activity under way reports: it is not live any more. -/
theorem State.Calm.report (h : s.Calm) (hcurrent : s.temporal.current = some tasks)
    (htask : tasks t = some task) {failures : ℕ} (hstate : task.state = .running failures i)
    {a : Attempt} (ha : s.pool.attempts[i]? = some a) (hlive : a.phase.live = false)
    {state : TaskState} (hfaithful : State.Faithful Readings.any
      { s with temporal := s.temporal.setTask t tasks task state })
    (hfailed : ∀ t', State.failedForGood { s with
      temporal := s.temporal.setTask t tasks task state } t' = true →
      s.status = .failed ∧ ¬ s.rows.Completed t') :
    State.Calm { s with temporal := s.temporal.setTask t tasks task state } := by
  refine ⟨hfaithful, h.alone, ?_, ?_, h.calm, h.counted, hfailed⟩
  · intro j b hb hblive
    obtain ⟨tasks', task', n, hcurrent', htask', hstate'⟩ := h.supervised j b hb hblive
    obtain rfl := Option.some.inj (hcurrent.symm.trans hcurrent')
    have hne : b.activity.jobType ≠ t := by
      rintro rfl
      obtain rfl := Option.some.inj (htask.symm.trans htask')
      obtain ⟨-, rfl⟩ := TaskState.running.inj (hstate.symm.trans hstate')
      obtain rfl := Option.some.inj (ha.symm.trans hb)
      exact nomatch hlive.symm.trans hblive
    refine ⟨_, task', n, rfl, ?_, hstate'⟩
    rwa [Function.update_of_ne hne]
  · rintro tasks' hcurrent'
    obtain rfl := Option.some.inj hcurrent'
    exact (h.sequenced tasks hcurrent).setTask htask (Tasks.result?_of_running htask hstate) state

/-- No live attempt is of an activity that is waiting for its next one. -/
theorem State.Calm.jobType_ne (h : s.Calm) (hcurrent : s.temporal.current = some tasks)
    (htask : tasks t = some task) {failures : ℕ} (hstate : task.state = .waiting failures)
    {a : Attempt} (ha : s.pool.attempts[i]? = some a) (hlive : a.phase.live = true) :
    a.activity.jobType ≠ t := by
  obtain ⟨tasks', task', n, hcurrent', htask', hstate'⟩ := h.supervised i a ha hlive
  obtain rfl := Option.some.inj (hcurrent.symm.trans hcurrent')
  rintro rfl
  obtain rfl := Option.some.inj (htask.symm.trans htask')
  exact nomatch hstate.symm.trans hstate'

/-- A waiting activity has no live attempt. -/
theorem State.Calm.idle (h : s.Calm) (hcurrent : s.temporal.current = some tasks)
    (htask : tasks t = some task) {failures : ℕ} (hstate : task.state = .waiting failures) :
    s.pool.idle t = true := by
  refine List.all_eq_true.mpr fun b hb => ?_
  obtain ⟨j, hj⟩ := List.mem_iff_getElem?.mp hb
  cases hlive : b.phase.live with
  | false => rfl
  | true => simpa using h.jobType_ne hcurrent htask hstate hj hlive

/-- The next attempt of an activity that is waiting for it. -/
theorem State.Calm.dispatch (h : s.Calm) (hcurrent : s.temporal.current = some tasks)
    (htask : tasks t = some task) {failures : ℕ} (hstate : task.state = .waiting failures)
    {state : TaskState} (hrunning : state = .running failures s.pool.attempts.length)
    (hfaithful : State.Faithful Readings.any { s with
      temporal := s.temporal.setTask t tasks task state, pool := s.pool.begin task.activity })
    (hfailed : ∀ t', State.failedForGood { s with
      temporal := s.temporal.setTask t tasks task state
      pool := s.pool.begin task.activity } t' = true → s.status = .failed ∧ ¬ s.rows.Completed t') :
    State.Calm { s with
      temporal := s.temporal.setTask t tasks task state, pool := s.pool.begin task.activity } := by
  obtain ⟨ht, -⟩ := (h.faithful.tasks tasks hcurrent).activity t task htask
  have hidle : s.pool.idle task.activity.jobType = true := by
    rw [ht]
    exact h.idle hcurrent htask hstate
  refine ⟨hfaithful, h.alone.begin hidle, ?_, ?_, h.calm.begin trivial,
    h.counted.begin (fun f hf => nomatch hf), hfailed⟩
  · intro j b hb hlive
    rcases getElem?_append_cases hb with ⟨rfl, rfl⟩ | hb
    · exact ⟨_, _, failures, rfl, by rw [ht, Function.update_self], hrunning⟩
    · obtain ⟨tasks', task', n, hcurrent', htask', hstate'⟩ := h.supervised j b hb hlive
      obtain rfl := Option.some.inj (hcurrent.symm.trans hcurrent')
      refine ⟨_, task', n, rfl, ?_, hstate'⟩
      rwa [Function.update_of_ne (h.jobType_ne hcurrent htask hstate hb hlive)]
  · rintro tasks' hcurrent'
    obtain rfl := Option.some.inj hcurrent'
    exact (h.sequenced tasks hcurrent).setTask htask (Tasks.result?_of_waiting htask hstate) _

/-- A retry writes the status alone. -/
theorem State.Calm.setVideo (h : s.Calm) {video : Video} {requests : List RetryPhase}
    {messages : List Message} (hfaithful : State.Faithful Readings.any
      { s.withVideo video with requests := requests, messages := messages })
    (hfailed : ∀ t, s.failedForGood t = true → video.status = .failed ∧ ¬ s.rows.Completed t) :
    State.Calm { s.withVideo video with requests := requests, messages := messages } where
  faithful := hfaithful
  alone := by
    refine h.alone.setRows ?_
    exact fun _ => rfl
  supervised := h.supervised
  sequenced := h.sequenced
  calm := h.calm.mono fun _ ha => ha.mono fun _ => rfl
  counted := h.counted.mono fun _ ha f hf hpending t ht => ha f hf hpending t ht
  failed := hfailed

/-! ## The steps of the platform -/

/-- A step keeps the calm as long as failures are recorded and nothing writes over them. -/
theorem State.Calm.step (h : s.Calm) (hwritable : s.writable l = true)
    (hrecords : s.recordsFailure l = true) (hclaims : s.claimsInTime l = true)
    (hretry : s.commitsRetry l = true → ∀ t, s.failedForGood t ≠ true)
    (hstep : s.step l = some s') : s'.Calm := by
  have hfaithful := (h.faithful.step (Readings.any_reports l) hstep).1
  have hfailed (t : JobType) : s'.failedForGood t = true →
      s'.status = .failed ∧ ¬ s'.rows.Completed t :=
    h.failed_step hwritable hrecords hclaims hretry hstep
  cases State.step_moves hstep with
  | resume hpool => exact h.resume hpool hfaithful hfailed
  | vanish | timeOut => exact absurd hwritable Bool.false_ne_true
  | dispatch hcurrent htask hstate => exact h.dispatch hcurrent htask hstate rfl hfaithful hfailed
  | reportReturned hcurrent htask hstate ha hphase | reportRaised hcurrent htask hstate ha hphase =>
    exact h.report hcurrent htask hstate ha (by rw [hphase]; rfl) hfaithful hfailed
  | decide hdecides =>
    -- once the execution is closed no attempt is live, so there is nothing left to supervise
    have hclosed (tp : Temporal) (hnone : tp.current = none) (hsettled : ∀ (i : ℕ) (a : Attempt),
        s.pool.attempts[i]? = some a → a.phase.live = false)
        (hfaithful : State.Faithful Readings.any { s with temporal := tp }) :
        State.Calm { s with temporal := tp } := by
      refine ⟨hfaithful, h.alone, ?_, ?_, h.calm, h.counted, ?_⟩
      · intro i a ha hlive
        exact nomatch (hsettled i a ha).symm.trans hlive
      · intro tasks hcurrent
        exact nomatch hnone.symm.trans hcurrent
      · exact fun t ht => absurd ht (State.not_failedForGood_of_closed hnone t)
    cases hdecides with
    | @schedule tasks sourceHeight hcurrent hrun =>
      obtain ⟨-, -, -, -, hnone, -⟩ := run_eq_executeTranscode hrun
      refine ⟨hfaithful, h.alone, ?_, ?_, h.calm, h.counted, hfailed⟩
      · intro i a ha hlive
        obtain ⟨tasks', task, failures, hcurrent', htask, hstate⟩ := h.supervised i a ha hlive
        obtain rfl := Option.some.inj (hcurrent.symm.trans hcurrent')
        -- a live attempt belongs to an activity that is scheduled already
        have hne : a.activity.jobType ≠ .transcode := by
          intro heq
          rw [heq] at htask
          exact nomatch hnone.symm.trans htask
        refine ⟨_, task, failures, rfl, ?_, hstate⟩
        rwa [Function.update_of_ne hne]
      · rintro tasks' hcurrent'
        obtain rfl := Option.some.inj hcurrent'
        exact Tasks.sequenced_schedule hrun _
    | complete hcurrent hrun =>
      refine hclosed _ rfl (fun i a ha => ?_) hfaithful
      exact h.supervised.settled hcurrent
        (fun t task => run_settled hrun (.inl rfl) (h.sequenced _ hcurrent)) ha
    | fail hcurrent hrun =>
      refine hclosed _ rfl (fun i a ha => ?_) hfaithful
      exact h.supervised.settled hcurrent
        (fun t task => run_settled hrun (.inr ⟨_, rfl⟩) (h.sequenced _ hcurrent)) ha
  | start hd hstart =>
    obtain ⟨hcurrent, -, rfl⟩ := Temporal.startWorkflow_eq_some.mp hstart
    refine ⟨hfaithful, h.alone, ?_, ?_, h.calm, h.counted, hfailed⟩
    · intro i a ha hlive
      have hdead := h.supervised.not_live_of_closed hcurrent (List.mem_of_getElem? ha)
      exact nomatch hdead.symm.trans hlive
    · rintro tasks' hcurrent'
      obtain rfl := Option.some.inj hcurrent'
      exact fun hsome => absurd rfl hsome
  | retryCommit | retryVideo => exact h.setVideo hfaithful hfailed
  | notify | receive | refuse | delete | deleteFails | retryBegin | retryRead | retryRefused
  | retrySend | retryRaises | retryVideoRefused =>
    exact ⟨hfaithful, h.alone, h.supervised, h.sequenced, h.calm, h.counted, h.failed⟩

end VideoProcessing
