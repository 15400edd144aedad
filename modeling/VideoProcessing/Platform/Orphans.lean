import VideoProcessing.Platform.Readers
import VideoProcessing.Platform.Undisturbed

/-!
# Jobs left behind

An attempt that is killed, cancelled or timed out runs no handler, so its job stays pending or
processing until another attempt takes it up. No other one does after the last of the three
attempts, or when an attempt that the server no longer waits for claims the job once its activity
has settled. While neither happens, and no statement raises over an unfinished job, no job is
pending or processing when the execution is closed.

An unfinished job is owned: by an attempt the server waits for, or by an activity the server will
hand out again. The steps at which it would lose its owner are those the condition excludes.
-/

namespace VideoProcessing

open Python UnitOfWork Transitions

/-! ## The conditions -/

/-- The job's row is pending or processing. -/
def VideoRows.unfinished (rows : VideoRows) (t : JobType) : Bool :=
  rows.jobStatus t = some .pending || rows.jobStatus t = some .processing

/-- The database stays up: a statement raises only where the rows do not accept it. -/
def State.databaseUp (s : State) : Label → Bool
  | .resume _ .noConnection => false
  | .resume i .error => s.pool.attempts[i]?.all fun a =>
    match a.phase with
    | .work _ _ => true
    | .commitClaim f | .flush f | .commitCompletion f | .failJob f _ => !f.accepted s.rows
    | _ => false
  | _ => true

abbrev State.DatabaseUp (s : State) (l : Label) : Prop := s.databaseUp l = true

/-- The attempt has yet to store how its job ends. -/
def Phase.decides : Phase → Bool
  | .insertJob _ | .returned _ | .raised _ => false
  | .failJob f _ => f.tx ≠ .broken
  | _ => true

/-- The activity has an attempt to come, or one under way that has yet to store how its job
ends. -/
def State.decides (s : State) (t : JobType) : Bool :=
  (s.temporal.task? t).any fun (_, task) =>
    match task.state with
    | .waiting _ => true
    | .running _ i => s.pool.attempts[i]?.all fun a => a.phase.decides
    | _ => false

/-- The server waits for attempt `i` of the activity. -/
def State.awaits (s : State) (t : JobType) (i : ℕ) : Bool :=
  (s.temporal.task? t).any fun (_, task) =>
    match task.state with
    | .running _ j => j = i
    | _ => false

/-- Somebody will see to the job: an attempt the server no longer waits for inserts or claims it
only while another one decides how it ends, no statement raises while it is unfinished, and the
last attempt does not time out while it is. -/
def State.attends (s : State) : Label → Bool
  | .resume i (.ok _) => s.pool.attempts[i]?.all fun a =>
    let t := a.activity.jobType
    match a.phase with
    | .insertJob _ => (s.rows.jobs t).isSome || s.awaits t i || s.decides t
    | .commitClaim f =>
      s.decides t || f.job.loaded.status = .processing && !s.rows.unfinished t
    | _ => true
  | .resume i .error => s.pool.attempts[i]?.all fun a =>
    a.phase.working || !s.rows.unfinished a.activity.jobType
  | .timeOut t => (s.temporal.task? t).all fun (_, task) =>
    match task.state with
    | .running failures _ => failures + 1 < maximumAttempts || !s.rows.unfinished t
    | _ => true
  | _ => true

abbrev State.Attends (s : State) (l : Label) : Prop := s.attends l = true

/-! ## The invariant -/

/-- The attempt leaves no unfinished job behind. -/
def Attempt.Settling (rows : VideoRows) (a : Attempt) : Prop :=
  match a.phase with
  | .insertJob _ => rows.jobs a.activity.jobType = none
  | .returned _ | .raised _ => rows.unfinished a.activity.jobType = false
  | .failJob f _ => f.tx = .broken → rows.unfinished a.activity.jobType = false
  | _ => True

/-- The activity of type `t` is under way. -/
def State.Open (s : State) (t : JobType) : Prop :=
  ∃ tasks task, s.temporal.current = some tasks ∧ tasks t = some task ∧ task.result? = none

structure State.Attended (s : State) : Prop where
  faithful : s.Faithful Readings.any
  sequenced : ∀ tasks, s.temporal.current = some tasks → tasks.Sequenced
  owned : ∀ t, s.rows.unfinished t = true → s.Open t
  settling : ∀ (t : JobType) (i : ℕ) (a : Attempt), s.awaits t i = true →
    s.pool.attempts[i]? = some a → a.Settling s.rows

variable {videoId : UUID} {act : Activity} {rows rows' : VideoRows} {st st' : Store}
  {ph ph' : Phase} {ans : Answer} {t : JobType} {i : ℕ} {s s' : State} {l : Label}
  {tasks : Tasks} {task : Task}

/-! ## One await -/

/-- It is a matter of the job's row. -/
theorem unfinished_congr (hjobs : rows'.jobs t = rows.jobs t) :
    rows'.unfinished t = rows.unfinished t := by
  rw [VideoRows.unfinished, VideoRows.jobStatus, hjobs]
  rfl

/-- A job that has completed or failed is finished. -/
theorem unfinished_of_jobStatus {status : JobStatus} (h : rows.jobStatus t = some status)
    (hstatus : status = .completed ∨ status = .failed) : rows.unfinished t = false := by
  rcases hstatus with rfl | rfl <;> simp [VideoRows.unfinished, h]

/-- A job becomes unfinished by its insertion or by a claim that writes the status. -/
theorem RowChange.unfinished_cases (h : RowChange act rows ph rows')
    (hpresent : ph.hasJob = true → rows.jobs act.jobType ≠ none)
    (hafter : rows'.unfinished act.jobType = true) :
    rows.unfinished act.jobType = true ∨
    (∃ video, ph = .insertJob video ∧ rows.jobs act.jobType = none) ∨
    ∃ f, ph = .commitClaim f ∧ f.job.loaded.status ≠ .processing := by
  cases h with
  | same => exact .inl hafter
  | insert hjob => exact .inr (.inl ⟨_, rfl, hjob⟩)
  | @claim f hf =>
    by_cases hloaded : f.job.loaded.status = .processing
    · left
      have hnone := hf.pending_jobStatus_of_processing hloaded
      have hstatus : (f.commit act.jobType rows).jobStatus act.jobType =
          rows.jobStatus act.jobType := by
        rw [hf.commit_eq, Writes.apply_jobStatus_self, hnone]
        exact congrFun Option.map_id _
      rwa [VideoRows.unfinished, hstatus] at hafter
    · exact .inr (.inr ⟨f, rfl, hloaded⟩)
  | complete hf =>
    have hstatus := unfinished_of_jobStatus (hf.commit_completed (hpresent rfl)) (.inl rfl)
    exact absurd (hstatus.symm.trans hafter) Bool.false_ne_true
  | fail _ hf =>
    have hstatus := unfinished_of_jobStatus (hf.commit_jobStatus (hpresent rfl)) (.inr rfl)
    exact absurd (hstatus.symm.trans hafter) Bool.false_ne_true

/-- The attempt the server waits for settles its job or has yet to. -/
theorem Resumes.settling (h : Resumes videoId act st ph ans st' ph')
    (hshaped : ph.Shaped videoId act)
    (hpresent : ph.hasJob = true → st.rows.jobs act.jobType ≠ none)
    (herror : ans = .error → ph.working = true ∨ st.rows.unfinished act.jobType = false)
    (hs : Attempt.Settling st.rows ⟨act, ph⟩) : Attempt.Settling st'.rows ⟨act, ph'⟩ := by
  cases h with
  | selectNone hjob => exact hjob
  | selectCompleted hjob hstatus =>
    have hcompleted : st.rows.jobStatus act.jobType = some .completed := by
      rw [VideoRows.jobStatus, hjob, Option.map_some, hstatus]
    -- a job found completed stays so
    have hsettled := unfinished_of_jobStatus hcompleted (.inl rfl)
    cases act with
    | extractMetadata =>
      simp only [alreadyCompleted]
      split <;> exact hsettled
    | generateThumbnail | transcode => exact hsettled
  | insertLost hjob => cases hjob.symm.trans hs
  | giveUp hph =>
    -- an error before the claim is excluded unless the job is settled
    refine (herror rfl).resolve_left fun hworking => ?_
    cases ph <;> first | exact absurd hworking Bool.false_ne_true | cases hph
  | @commitClaim _ f =>
    cases act with
    | transcode =>
      rw [claimed]
      split
      · exact fun htx => by cases htx
      · trivial
    | extractMetadata | generateThumbnail => trivial
  | call _ _ hwork | probe hwork | upload hwork =>
    rcases working_cases hwork with ⟨rfl, -⟩ | ⟨-, g, assets, rfl⟩
    · trivial
    · cases assets <;> trivial
  | workFails => exact fun htx => by cases htx
  | @selectAsset _ _ _ _ todo => cases todo <;> trivial
  | completionFails hph =>
    refine fun _ => (herror rfl).resolve_left fun hworking => ?_
    cases ph <;> first | exact absurd hworking Bool.false_ne_true | cases hph
  | noConnection => exact fun htx => by cases htx
  | commitCompletion =>
    exact unfinished_of_jobStatus (hshaped.commit_completed (hpresent rfl)) (.inl rfl)
  | failJobBroken htx => exact hs htx
  | failJob htx =>
    exact unfinished_of_jobStatus ((hshaped htx).commit_jobStatus (hpresent rfl)) (.inr rfl)
  | failJobFails => exact (herror rfl).resolve_left Bool.false_ne_true
  | load | selectJob | insert | flush | countCompleted => trivial

/-- An attempt settles its job whatever the others do. -/
theorem Attempt.Settling.mono {b : Attempt} (hb : b.Settling rows)
    (hjobs : rows.jobs b.activity.jobType = none → rows'.jobs b.activity.jobType = none)
    (hsettled : rows.unfinished b.activity.jobType = false →
      rows'.unfinished b.activity.jobType = false) : b.Settling rows' := by
  obtain ⟨act, ph⟩ := b
  cases ph with
  | insertJob => exact hjobs hb
  | returned | raised => exact hsettled hb
  | failJob => exact fun htx => hsettled (hb htx)
  | _ => trivial

/-- It is a matter of the job's row. -/
theorem Attempt.Settling.congr {b : Attempt} (hb : b.Settling rows)
    (hjobs : rows'.jobs b.activity.jobType = rows.jobs b.activity.jobType) : b.Settling rows' :=
  hb.mono hjobs.trans (unfinished_congr hjobs).trans

/-- An attempt that is yet to decide settles. -/
theorem Attempt.settling_of_decides {b : Attempt} (hb : b.phase.decides = true) :
    b.Settling rows := by
  obtain ⟨act, ph⟩ := b
  cases ph with
  | insertJob | returned | raised => exact absurd hb Bool.false_ne_true
  | failJob => exact fun htx => absurd htx (of_decide_eq_true hb)
  | _ => trivial

/-- No commit adds the row of a job. -/
theorem Frame.commit_jobs_none {f : Frame} (hjob : rows.jobs t = none) :
    (f.commit t rows).jobs t = none := by
  simp [Frame.commit, hjob]

/-! ## Activities under way -/

/-- The attempt is the one its activity is under way as. -/
theorem State.awaits_iff : s.awaits t i = true ↔ ∃ tasks task failures,
    s.temporal.current = some tasks ∧ tasks t = some task ∧ task.state = .running failures i := by
  rw [State.awaits, Option.any_eq_true]
  constructor
  · rintro ⟨⟨tasks, task⟩, htask, h⟩
    obtain ⟨hcurrent, htask⟩ := Temporal.task?_eq_some.mp htask
    cases hstate : task.state with
    | running failures j =>
      simp only [hstate, decide_eq_true_eq] at h
      exact ⟨tasks, task, failures, hcurrent, htask, by rw [hstate, h]⟩
    | waiting | succeeded | failed => simp [hstate] at h
  · rintro ⟨tasks, task, failures, hcurrent, htask, hstate⟩
    exact ⟨(tasks, task), Temporal.task?_eq_some.mpr ⟨hcurrent, htask⟩, by simp [hstate]⟩

/-- An activity without a result waits or is under way. -/
theorem Task.result?_eq_none : task.result? = none ↔
    (∃ failures, task.state = .waiting failures) ∨
      ∃ failures i, task.state = .running failures i := by
  rw [Task.result?]
  cases task.state <;> simp

/-- What is awaited is open. -/
theorem State.open_of_awaits (h : s.awaits t i = true) : s.Open t := by
  obtain ⟨tasks, task, failures, hcurrent, htask, hstate⟩ := State.awaits_iff.mp h
  exact ⟨tasks, task, hcurrent, htask, Task.result?_eq_none.mpr (.inr ⟨failures, i, hstate⟩)⟩

/-- So is what is to be decided. -/
theorem State.open_of_decides (h : s.decides t = true) : s.Open t := by
  obtain ⟨⟨tasks, task⟩, htask, h⟩ := (Option.any_eq_true _ _).mp h
  obtain ⟨hcurrent, htask⟩ := Temporal.task?_eq_some.mp htask
  refine ⟨tasks, task, hcurrent, htask, Task.result?_eq_none.mpr ?_⟩
  cases hstate : task.state with
  | waiting failures => exact .inl ⟨failures, rfl⟩
  | running failures j => exact .inr ⟨failures, j, rfl⟩
  | succeeded | failed => simp [hstate] at h

/-- The attempt the server waits for is the one that decides. -/
theorem State.decides_of_awaits (h : s.decides t = true) (hawaits : s.awaits t i = true)
    {a : Attempt} (ha : s.pool.attempts[i]? = some a) : a.phase.decides = true := by
  obtain ⟨tasks, task, failures, hcurrent, htask, hstate⟩ := State.awaits_iff.mp hawaits
  rw [State.decides, Temporal.task?_eq_some.mpr ⟨hcurrent, htask⟩, Option.any_some] at h
  simpa [hstate, ha] using h

/-- The server waits for one attempt of an activity. -/
theorem State.awaits_inj {j : ℕ} (h : s.awaits t i = true) (h' : s.awaits t j = true) : i = j := by
  obtain ⟨tasks, task, failures, hcurrent, htask, hstate⟩ := State.awaits_iff.mp h
  obtain ⟨tasks', task', n, hcurrent', htask', hstate'⟩ := State.awaits_iff.mp h'
  obtain rfl := Option.some.inj (hcurrent.symm.trans hcurrent')
  obtain rfl := Option.some.inj (htask.symm.trans htask')
  exact (TaskState.running.inj (hstate.symm.trans hstate')).2

/-- An attempt that is awaited is one of its activity. -/
theorem State.Attended.jobType (h : s.Attended) (hawaits : s.awaits t i = true) {a : Attempt}
    (ha : s.pool.attempts[i]? = some a) : a.activity.jobType = t := by
  obtain ⟨tasks, task, failures, hcurrent, htask, hstate⟩ := State.awaits_iff.mp hawaits
  exact h.faithful.attempt_jobType hcurrent htask hstate ha

/-! ## The steps -/

/-- An attempt makes its job unfinished only while somebody will settle it. -/
theorem State.unfinished_resume {a : Attempt} (ha : s.pool.attempts[i]? = some a)
    (hsound : a.Sound s.pool.videoId s.rows)
    (hres : Resumes s.pool.videoId a.activity s.pool.store a.phase ans st ph)
    (hl : s.attends (.resume i ans) = true)
    (hafter : st.rows.unfinished a.activity.jobType = true) :
    s.rows.unfinished a.activity.jobType = true ∨ s.awaits a.activity.jobType i = true ∨
      s.decides a.activity.jobType = true := by
  by_cases hans : ∃ now, ans = .ok now
  · obtain ⟨now, rfl⟩ := hans
    simp only [State.attends, ha, Option.all_some] at hl
    rcases (hres.rowChange hsound.shaped).unfinished_cases hsound.present hafter with
      hbefore | ⟨video, hph, hnone⟩ | ⟨f, hph, hloaded⟩
    · exact .inl hbefore
    · right
      simpa [hph, hnone] using hl
    · right
      right
      simpa [hph, hloaded] using hl
  · rw [hres.rows_eq_of_not_ok fun now heq => hans ⟨now, heq⟩] at hafter
    exact .inl hafter

/-- An attempt inserts a job only while somebody will settle it. -/
theorem State.jobs_resume {a : Attempt} (ha : s.pool.attempts[i]? = some a)
    (hres : Resumes s.pool.videoId a.activity s.pool.store a.phase ans st ph)
    (hl : s.attends (.resume i ans) = true) (hnone : s.rows.jobs a.activity.jobType = none) :
    st.rows.jobs a.activity.jobType = none ∨ s.awaits a.activity.jobType i = true ∨
      s.decides a.activity.jobType = true := by
  obtain ⟨act, ph₀⟩ := a
  cases hres with
  | insert =>
    right
    simpa [State.attends, ha, hnone] using hl
  | commitClaim | commitCompletion | failJob => exact .inl (Frame.commit_jobs_none hnone)
  | _ => exact .inl hnone

/-- An await leaves no job behind. -/
theorem State.Attended.resume (h : s.Attended) {pool : Pool}
    (hpool : s.pool.resume i ans = some pool) (hl : s.attends (.resume i ans) = true)
    (hfaithful : State.Faithful Readings.any { s with pool := pool }) :
    State.Attended { s with pool := pool } := by
  obtain ⟨a, st, ph, ha, hres, rfl⟩ := Pool.resume_eq_some hpool
  have hsound := h.faithful.pool.sound i a ha
  refine ⟨hfaithful, h.sequenced, fun t hafter => ?_, fun t j b hawaits hb => ?_⟩
  -- only the attempt's own job can have changed
  · by_cases ht : t = a.activity.jobType
    · subst ht
      have hopen : s.Open a.activity.jobType := by
        -- it is left unfinished by one whose end the execution waits for
        rcases State.unfinished_resume ha hsound hres hl hafter with hbefore | hawaits | hdecides
        · exact h.owned _ hbefore
        · exact State.open_of_awaits hawaits
        · exact State.open_of_decides hdecides
      exact hopen
    · exact h.owned t ((unfinished_congr (hres.jobs_of_ne ht)).symm.trans hafter)
  · have hawaits : s.awaits t j = true := hawaits
    rcases getElem?_set_cases hb with ⟨rfl, rfl⟩ | ⟨hj, hb⟩
    · refine hres.settling hsound.shaped hsound.present ?_ (h.settling t j a hawaits ha)
      rintro rfl
      simpa [State.attends, ha] using hl
    have hbefore := h.settling t j b hawaits hb
    have hbt := h.jobType hawaits hb
    by_cases ht : t = a.activity.jobType
    · -- another attempt of the same activity: it only acts while `b` decides
      by_cases hdecides : b.phase.decides = true
      · exact Attempt.settling_of_decides hdecides
      have hidle : ¬ (s.awaits t i = true ∨ s.decides t = true) := by
        rintro (hi | ht)
        · exact hj (State.awaits_inj hawaits hi)
        · exact hdecides (State.decides_of_awaits ht hawaits hb)
      subst ht
      have hjobs (hnone : s.rows.jobs a.activity.jobType = none) :
          st.rows.jobs a.activity.jobType = none :=
        (State.jobs_resume ha hres hl hnone).resolve_right hidle
      have hsettled (hfinished : s.rows.unfinished a.activity.jobType = false) :
          st.rows.unfinished a.activity.jobType = false := by
        refine Bool.eq_false_iff.mpr fun hafter => ?_
        rcases State.unfinished_resume ha hsound hres hl hafter with hunfinished | hsome
        · exact absurd (hfinished.symm.trans hunfinished) Bool.false_ne_true
        · exact hidle hsome
      rw [← hbt] at hjobs hsettled
      exact hbefore.mono hjobs hsettled
    · refine hbefore.congr (hres.jobs_of_ne ?_)
      rwa [hbt]

/-- Another state of an activity: what the server waits for is otherwise as before. -/
theorem State.awaits_setTask {state : TaskState} {pool : Pool} {t' : JobType}
    (hcurrent : s.temporal.current = some tasks)
    (h : State.awaits { s with
      temporal := s.temporal.setTask t tasks task state, pool := pool } t' i = true) :
    (t' = t ∧ ∃ failures, state = .running failures i) ∨ t' ≠ t ∧ s.awaits t' i = true := by
  obtain ⟨tasks', task', failures, hcurrent', htask', hstate⟩ := State.awaits_iff.mp h
  obtain rfl := Option.some.inj hcurrent'
  by_cases ht : t' = t
  · subst ht
    rw [Function.update_self] at htask'
    obtain rfl := Option.some.inj htask'
    exact .inl ⟨rfl, failures, hstate⟩
  · rw [Function.update_of_ne ht] at htask'
    exact .inr ⟨ht, State.awaits_iff.mpr ⟨tasks, task', failures, hcurrent, htask', hstate⟩⟩

/-- A new attempt settles. -/
theorem Attempt.settling_loadVideo {b : Attempt} (hb : b.phase = .loadVideo) :
    b.Settling rows := Attempt.settling_of_decides (by rw [hb]; rfl)

/-- An activity stays under way, or has left no unfinished job. -/
theorem State.Attended.setTask (h : s.Attended) (hcurrent : s.temporal.current = some tasks)
    (htask : tasks t = some task) (hopen : task.result? = none) {state : TaskState} {pool : Pool}
    (hrows : pool.rows = s.rows)
    (hfaithful : State.Faithful Readings.any
      { s with temporal := s.temporal.setTask t tasks task state, pool := pool })
    (hstate : s.rows.unfinished t = true → Task.result? { task with state := state } = none)
    (hrunning : ∀ failures i a, state = .running failures i → pool.attempts[i]? = some a →
      a.phase = .loadVideo)
    (hattempts : ∀ (i : ℕ) a, pool.attempts[i]? = some a →
      s.pool.attempts[i]? = some a ∨ a.phase = .loadVideo) :
    State.Attended { s with temporal := s.temporal.setTask t tasks task state, pool := pool } := by
  have htasks : tasks.result? t = none := by rw [Tasks.result?, htask, Option.bind_some, hopen]
  refine ⟨hfaithful, fun tasks' ht => ?_, fun t' hafter => ?_, fun t' i a hawaits ha => ?_⟩
  · obtain rfl := Option.some.inj ht
    exact (h.sequenced tasks hcurrent).setTask htask htasks state
  · have hbefore : s.rows.unfinished t' = true := by rwa [← hrows]
    by_cases ht : t' = t
    · subst ht
      exact ⟨_, _, rfl, Function.update_self .., hstate hbefore⟩
    · obtain ⟨tasks', task', hcurrent', htask', hresult⟩ := h.owned t' hbefore
      obtain rfl := Option.some.inj (hcurrent.symm.trans hcurrent')
      exact ⟨_, task', rfl, (Function.update_of_ne ht ..).trans htask', hresult⟩
  · have hsettling : a.Settling s.rows := by
      rcases State.awaits_setTask hcurrent hawaits with ⟨rfl, failures, hstate'⟩ | ⟨-, hbefore⟩
      · exact Attempt.settling_loadVideo (hrunning failures i a hstate' ha)
      · rcases hattempts i a ha with hold | hnew
        · exact h.settling t' i a hbefore hold
        · exact Attempt.settling_loadVideo hnew
    rwa [← hrows] at hsettling

/-- An activity settles, or gets another attempt. -/
theorem State.Attended.settle (h : s.Attended) (hcurrent : s.temporal.current = some tasks)
    (htask : tasks t = some task) (hopen : task.result? = none) {state : TaskState}
    (hfaithful : State.Faithful Readings.any
      { s with temporal := s.temporal.setTask t tasks task state })
    (hstate : s.rows.unfinished t = true → Task.result? { task with state := state } = none)
    (hrunning : ∀ failures i, state ≠ .running failures i) :
    State.Attended { s with temporal := s.temporal.setTask t tasks task state } :=
  h.setTask hcurrent htask hopen rfl hfaithful hstate
    (fun failures i _ hstate' => absurd hstate' (hrunning failures i)) fun _ _ => .inl

/-- Nothing is unfinished once every activity has settled. -/
theorem State.Attended.close (h : s.Attended) (hcurrent : s.temporal.current = some tasks)
    (hsettled : ∀ t task, tasks t = some task → ∃ result, tasks.result? t = some result)
    {tp : Temporal} (hnone : tp.current = none)
    (hfaithful : State.Faithful Readings.any { s with temporal := tp }) :
    State.Attended { s with temporal := tp } := by
  refine ⟨hfaithful, fun tasks' ht => ?_, fun t hafter => ?_, fun t i a hawaits => ?_⟩
  · cases hnone.symm.trans ht
  · obtain ⟨tasks', task, hcurrent', htask, hopen⟩ := h.owned t hafter
    obtain rfl := Option.some.inj (hcurrent.symm.trans hcurrent')
    obtain ⟨result, hresult⟩ := hsettled t task htask
    rw [Tasks.result?, htask, Option.bind_some, hopen] at hresult
    cases hresult
  · obtain ⟨tasks', -, -, hcurrent', -⟩ := State.awaits_iff.mp hawaits
    cases hnone.symm.trans hcurrent'

/-- Requests and messages do not matter, nor does the video's row. -/
theorem State.Attended.setVideo (h : s.Attended) {video : Video} {requests : List RetryPhase}
    {messages : List Message} {deliveries : List Delivery}
    (hfaithful : State.Faithful Readings.any { s.withVideo video with
      requests := requests, messages := messages, deliveries := deliveries }) :
    State.Attended { s.withVideo video with
      requests := requests, messages := messages, deliveries := deliveries } where
  faithful := hfaithful
  sequenced := h.sequenced
  owned := h.owned
  settling := fun t i a hawaits ha => (h.settling t i a hawaits ha).congr rfl

/-- Scheduling `transcode` opens an activity and leaves the other ones open. -/
theorem State.Attended.schedule (h : s.Attended) {sourceHeight : ℤ}
    (hcurrent : s.temporal.current = some tasks)
    (hrun : VideoProcessingWorkflow.run tasks = .executeTranscode sourceHeight)
    {temporal : Temporal} (hafter : temporal.current = some
      (Function.update tasks .transcode (some ⟨.transcode sourceHeight, .waiting 0⟩)))
    (hfaithful : State.Faithful Readings.any { s with temporal := temporal }) :
    State.Attended { s with temporal := temporal } := by
  obtain ⟨-, -, -, -, hnone, -⟩ := run_eq_executeTranscode hrun
  refine ⟨hfaithful, fun tasks' ht => ?_, fun t hunfinished => ?_, fun t i a hawaits ha => ?_⟩
  · obtain rfl := Option.some.inj (hafter.symm.trans ht)
    exact Tasks.sequenced_schedule hrun _
  · obtain ⟨tasks', task, hcurrent', htask, hopen⟩ := h.owned t hunfinished
    obtain rfl := Option.some.inj (hcurrent.symm.trans hcurrent')
    have ht : t ≠ .transcode := by
      rintro rfl
      cases hnone.symm.trans htask
    exact ⟨_, task, hafter, (Function.update_of_ne ht ..).trans htask, hopen⟩
  · obtain ⟨tasks', task, failures, hcurrent', htask, hstate⟩ := State.awaits_iff.mp hawaits
    obtain rfl := Option.some.inj (hafter.symm.trans hcurrent')
    by_cases ht : t = .transcode
    · subst ht
      rw [Function.update_self] at htask
      obtain rfl := Option.some.inj htask
      cases hstate
    · rw [Function.update_of_ne ht] at htask
      exact h.settling t i a
        (State.awaits_iff.mpr ⟨tasks, task, failures, hcurrent, htask, hstate⟩) ha

/-- A job is unfinished only while an execution is open, so none is when one is started. -/
theorem State.Attended.start (h : s.Attended) (hcurrent : s.temporal.current = none)
    {temporal : Temporal} (hafter : temporal.current = some .initial) {deliveries : List Delivery}
    (hfaithful : State.Faithful Readings.any
      { s with deliveries := deliveries, temporal := temporal }) :
    State.Attended { s with deliveries := deliveries, temporal := temporal } := by
  refine ⟨hfaithful, fun tasks' ht => ?_, fun t hunfinished => ?_, fun t i a hawaits ha => ?_⟩
  · obtain rfl := Option.some.inj (hafter.symm.trans ht)
    exact fun hsome => absurd rfl hsome
  · obtain ⟨tasks, -, hopen, -⟩ := h.owned t hunfinished
    cases hcurrent.symm.trans hopen
  · obtain ⟨tasks, task, failures, ht, htask, hstate⟩ := State.awaits_iff.mp hawaits
    obtain rfl := Option.some.inj (hafter.symm.trans ht)
    cases t <;> cases htask <;> cases hstate

/-- Nor does any other step. -/
theorem State.Attended.step (h : s.Attended) (hl : s.attends l = true)
    (hstep : s.step l = some s') : s'.Attended := by
  have hfaithful := (h.faithful.step (Readings.any_reports l) hstep).1
  cases State.step_moves hstep with
  | resume hpool => exact h.resume hpool hl hfaithful
  | vanish hpool =>
    obtain ⟨a, ha, rfl⟩ := Pool.vanish_eq_some hpool
    refine ⟨hfaithful, h.sequenced, h.owned, fun t j b hawaits hb => ?_⟩
    rcases getElem?_set_cases hb with ⟨-, rfl⟩ | ⟨-, hb⟩
    · trivial
    · exact h.settling t j b hawaits hb
  | @dispatch t tasks task failures hcurrent htask hstate =>
    refine h.setTask hcurrent htask (Task.result?_eq_none.mpr (.inl ⟨_, hstate⟩)) rfl hfaithful
      (fun _ => rfl) ?_ fun i a ha => ?_
    · rintro n i a heq ha
      obtain ⟨-, rfl⟩ := TaskState.running.inj heq
      rw [Pool.begin, List.getElem?_concat_length] at ha
      exact (Option.some.inj ha) ▸ rfl
    · rcases getElem?_append_cases ha with ⟨-, rfl⟩ | ha
      exacts [.inr rfl, .inl ha]
  | @reportReturned t tasks task failures i a result hcurrent htask hstate ha hphase =>
    -- the attempt has ended, so its job is settled
    have hsettling := h.settling t i a (State.awaits_iff.mpr ⟨_, _, _, hcurrent, htask, hstate⟩) ha
    rw [Attempt.Settling, hphase, h.faithful.attempt_jobType hcurrent htask hstate ha] at hsettling
    refine h.settle hcurrent htask (Task.result?_eq_none.mpr (.inr ⟨_, _, hstate⟩)) hfaithful
      (fun hunfinished => ?_) (by simp)
    exact absurd (hsettling.symm.trans hunfinished) Bool.false_ne_true
  | @reportRaised t tasks task failures i a error hcurrent htask hstate ha hphase =>
    have hsettling := h.settling t i a (State.awaits_iff.mpr ⟨_, _, _, hcurrent, htask, hstate⟩) ha
    rw [Attempt.Settling, hphase, h.faithful.attempt_jobType hcurrent htask hstate ha] at hsettling
    refine h.settle hcurrent htask (Task.result?_eq_none.mpr (.inr ⟨_, _, hstate⟩)) hfaithful
      (fun hunfinished => ?_) fun _ _ => TaskState.fail_ne_running
    exact absurd (hsettling.symm.trans hunfinished) Bool.false_ne_true
  | @timeOut t tasks task failures i hcurrent htask hstate =>
    refine h.settle hcurrent htask (Task.result?_eq_none.mpr (.inr ⟨_, _, hstate⟩)) hfaithful
      (fun hunfinished => ?_) fun _ _ => TaskState.fail_ne_running
    -- the job is unfinished, so this was not the last attempt
    have hbudget : failures + 1 < maximumAttempts := by
      simpa [State.attends, Temporal.task?_eq_some.mpr ⟨hcurrent, htask⟩, hstate, hunfinished]
        using hl
    rw [TaskState.fail, if_neg (by simp [ActivityError.nonRetryable, hbudget])]
    rfl
  | decide hdecides =>
    cases hdecides with
    | @schedule tasks sourceHeight hcurrent hrun =>
      exact h.schedule hcurrent hrun rfl hfaithful
    | complete hcurrent hrun =>
      exact h.close hcurrent (fun t task => run_settled hrun (.inl rfl) (h.sequenced _ hcurrent))
        rfl hfaithful
    | fail hcurrent hrun =>
      exact h.close hcurrent
        (fun t task => run_settled hrun (.inr ⟨_, rfl⟩) (h.sequenced _ hcurrent)) rfl hfaithful
  | start hd hstart =>
    obtain ⟨hcurrent, -, rfl⟩ := Temporal.startWorkflow_eq_some.mp hstart
    exact h.start hcurrent rfl hfaithful
  | retryCommit | retryVideo => exact h.setVideo hfaithful
  | notify | receive | refuse | delete | deleteFails | retryBegin | retryRead | retryRefused
  | retrySend | retryRaises | retryVideoRefused =>
    exact ⟨hfaithful, h.sequenced, h.owned, h.settling⟩

/-- A new video has no jobs. -/
theorem State.attended_created (videoId : UUID) (filename key : Str) :
    (State.created videoId filename key).Attended := by
  refine ⟨State.faithful_created _ videoId filename key, fun tasks ht => ?_, fun t ht => ?_,
    fun t i a hawaits => ?_⟩
  · cases ht
  · cases ht
  · cases hawaits

/-- While the jobs of a video are attended to, none of them is pending or processing in any state
in which no execution is open. -/
theorem no_orphaned_jobs {videoId : UUID} {filename key : Str} {s : State} {ls : List Label}
    (hrun : exec (restrict State.Attends State.step) (.created videoId filename key) ls = some s)
    (hclosed : s.temporal.current = none) (t : JobType) : s.rows.unfinished t = false := by
  have hinv : s.Attended := by
    refine exec_invariant (fun q l q' hq hstep => ?_)
      (State.attended_created videoId filename key) hrun
    obtain ⟨hl, hstep⟩ := restrict_eq_some.mp hstep
    exact hq.step hl hstep
  refine Bool.eq_false_iff.mpr fun hunfinished => ?_
  obtain ⟨tasks, -, hopen, -⟩ := hinv.owned t hunfinished
  cases hclosed.symm.trans hopen

/-! ## The last attempt -/

/-- The thumbnail completes; two attempts of the metadata activity are killed once they have
claimed the job, and the third one claims it too. -/
def State.killedTwice : List Label := List.flatten [
  [.notify, .receive 0, .start 0 .received, .delete 0 true, .dispatch .metadata,
    .dispatch .thumbnail],
  Label.resumes 0 4, [.vanish 0, .timeOut .metadata], Label.resumes 1 11,
  [.report .thumbnail, .dispatch .metadata],
  Label.resumes 2 3, [.vanish 2, .timeOut .metadata, .dispatch .metadata], Label.resumes 3 3]

/-- Killed as well, it leaves the job processing in an execution that has closed, and a video that
cannot be retried. -/
theorem orphaned_job : ∃ s, exec (restrict State.DatabaseUp State.step) State.clip
      (State.killedTwice ++ [.vanish 3, .timeOut .metadata, .decide]) = some s ∧
    s.temporal.current = none ∧ s.rows.unfinished .metadata = true ∧ s.status ≠ .failed := by
  have hrun : (exec (restrict State.DatabaseUp State.step) State.clip
      (State.killedTwice ++ [.vanish 3, .timeOut .metadata, .decide])).any fun s =>
        s.temporal.current.isNone && s.rows.unfinished .metadata &&
          decide (s.status ≠ .failed) := by decide +kernel
  obtain ⟨s, hrun, h⟩ := (Option.any_eq_true _ _).mp hrun
  simp only [Bool.and_eq_true, decide_eq_true_eq, Option.isNone_iff_eq_none] at h
  exact ⟨s, hrun, h.1.1, h.1.2, h.2⟩

/-- A download that fails leaves the job to the handler. -/
theorem no_orphaned_jobs_clip : ∃ s, exec (restrict State.Attends State.step) State.clip
      (State.killedTwice ++ [.resume 3 .error, .resume 3 (.ok 0), .report .metadata, .decide]) =
        some s ∧
    s.temporal.current = none ∧ s.rows.unfinished .metadata = false := by
  have hrun : (exec (restrict State.Attends State.step) State.clip (State.killedTwice ++
      [.resume 3 .error, .resume 3 (.ok 0), .report .metadata, .decide])).any fun s =>
        s.temporal.current.isNone := by decide +kernel
  obtain ⟨s, hrun, hclosed⟩ := (Option.any_eq_true _ _).mp hrun
  rw [Option.isNone_iff_eq_none] at hclosed
  exact ⟨s, hrun, hclosed, no_orphaned_jobs hrun hclosed .metadata⟩

end VideoProcessing
