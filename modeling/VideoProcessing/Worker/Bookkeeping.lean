import VideoProcessing.Worker.Attempts

/-!
# What the columns of a job say of each other

The four columns of a job row are written by sessions that each leave out what they have not
changed, so a row can hold values of several attempts at once. They still agree with each other: an
attempt knows of its job that it was claimed, and what has once been written to `attempts`,
`started_at` and `completed_at` is never taken back.

One version of a row precedes another when the other has what it has in these columns. The copy of
a session precedes every later version of its row, and what the session writes keeps any row
consistent that its copy precedes.
-/

namespace VideoProcessing

open Python UnitOfWork Transitions

/-- The columns of a job agree with each other. -/
structure ProcessingJob.Consistent (job : ProcessingJob) : Prop where
  pending : job.status = .pending ↔ job.attempts = 0
  startedAt : job.startedAt = none ↔ job.attempts = 0
  completedAt : job.status = .completed → job.completedAt ≠ none
  claimed : job.completedAt ≠ none → job.attempts ≠ 0

/-- What is known of a job from an earlier copy of its row. -/
structure ProcessingJob.Precedes (old job : ProcessingJob) : Prop where
  attempts : old.attempts ≠ 0 → job.attempts ≠ 0
  completedAt : old.completedAt ≠ none → job.completedAt ≠ none

/-- What the flush of a completion writes to the row of its job. -/
structure JobSet.Completes (set : JobSet) (job : ProcessingJob) : Prop where
  status : set.status = some .completed
  attempts : set.attempts = none
  startedAt : set.startedAt = none
  completedAt : put set.completedAt job.completedAt ≠ none

/-- A `completed_at` the session has loaded is still there. -/
def Frame.KeepsCompletedAt (f : Frame) (job : ProcessingJob) : Prop :=
  f.job.loaded.completedAt ≠ none → job.completedAt ≠ none

/-- What an attempt knows of the row of its job. -/
def Phase.Knows (job : ProcessingJob) : Phase → Prop
  | .commitClaim f => f.job.loaded.Consistent ∧ f.job.loaded.Precedes job
  | .work f _ => job.attempts ≠ 0 ∧ f.KeepsCompletedAt job
  | .selectAsset f _ | .flush f =>
    job.attempts ≠ 0 ∧ f.KeepsCompletedAt job ∧ f.job.current.completedAt ≠ none
  | .countCompleted f | .commitCompletion f => job.attempts ≠ 0 ∧ f.flushed.job.Completes job
  | .failJob f _ => job.attempts ≠ 0 ∧
      (f.job.loaded.completedAt ≠ none → f.job.current.completedAt ≠ none)
  | _ => True

/-- Every job of the video is consistent. -/
def VideoRows.Consistent (rows : VideoRows) : Prop :=
  ∀ t job, rows.jobs t = some job → job.Consistent

/-- An attempt knows what it has to of its job. -/
def Attempt.Knows (rows : VideoRows) (a : Attempt) : Prop :=
  ∀ job, rows.jobs a.activity.jobType = some job → a.phase.Knows job

variable {videoId : UUID} {act : Activity} {st st' : Store} {rows rows' : VideoRows}
  {ph ph' : Phase} {ans : Answer} {f : Frame} {old job job' : ProcessingJob} {t : JobType}
  {now : Time} {a : Attempt} {p p' : Pool} {l : PoolLabel}

/-! ## What each commit does to the row -/

/-- A new row is consistent. -/
theorem ProcessingJob.consistent_new : ProcessingJob.new.Consistent := by
  refine ⟨by decide, by decide, fun h => ?_, fun h => absurd rfl h⟩
  cases h

/-- A row may stay as it is. -/
theorem ProcessingJob.Precedes.refl (job : ProcessingJob) : job.Precedes job := ⟨id, id⟩

/-- A claim of a job that was read from its row. -/
theorem ProcessingJob.Consistent.claim (h : job.Consistent) (hold : old.Consistent)
    (hprecedes : old.Precedes job) (now : Time) :
    ((dirtyJob ((Tracked.fresh old).modify (.claim now))).apply job).Consistent ∧
      job.Precedes ((dirtyJob ((Tracked.fresh old).modify (.claim now))).apply job) := by
  -- an attribute that is not written out was so in the older copy already, and the row is newer
  have hattempts : put (dirty old.attempts (old.attempts + 1)) job.attempts ≠ 0 :=
    put_dirty_of (P := (· ≠ 0)) (Nat.succ_ne_zero _) hprecedes.attempts
  have hstatus : put (dirty old.status .processing) job.status ≠ .pending := by
    refine put_dirty_of (P := (· ≠ JobStatus.pending)) (by decide) fun hne hpending => hne ?_
    by_contra hclaimed
    exact hprecedes.attempts (mt hold.pending.mpr hclaimed) (h.pending.mp hpending)
  have hstarted : put (dirty old.startedAt (some now)) job.startedAt ≠ none := by
    refine put_dirty_of (P := (· ≠ none)) (Option.some_ne_none _) fun hne hnone => hne ?_
    by_contra hclaimed
    exact hprecedes.attempts (mt hold.startedAt.mpr hclaimed) (h.startedAt.mp hnone)
  have hcompletedAt : put (dirty old.completedAt old.completedAt) job.completedAt =
      job.completedAt := by
    rw [dirty_self, put_none]
  refine ⟨⟨iff_of_false hstatus hattempts, iff_of_false hstarted hattempts, fun hcompleted => ?_,
    fun _ => hattempts⟩, ⟨fun _ => hattempts, fun hset => ?_⟩⟩
  · -- the claim has left the status out
    have hstored : job.status = .completed := by
      have hput : put (dirty old.status .processing) job.status = .completed := hcompleted
      rw [put_dirty] at hput
      split at hput
      · exact hput
      · cases hput
    exact fun hnone => h.completedAt hstored (hcompletedAt.symm.trans hnone)
  · exact fun hnone => hset (hcompletedAt.symm.trans hnone)

/-- The flush of a completion. -/
theorem ProcessingJob.Consistent.complete (h : job.Consistent) (hattempts : job.attempts ≠ 0)
    {set : JobSet} (hset : set.Completes job) :
    (set.apply job).Consistent ∧ job.Precedes (set.apply job) := by
  have hattempts' : (set.apply job).attempts ≠ 0 := by
    rw [JobSet.apply, hset.attempts]
    exact hattempts
  have hstarted : (set.apply job).startedAt ≠ none := by
    rw [JobSet.apply, hset.startedAt]
    exact mt h.startedAt.mp hattempts
  have hstatus : (set.apply job).status ≠ .pending := by
    rw [JobSet.apply, hset.status]
    exact fun hpending => by cases hpending
  exact ⟨⟨iff_of_false hstatus hattempts', iff_of_false hstarted hattempts',
    fun _ => hset.completedAt, fun _ => hattempts'⟩,
    ⟨fun _ => hattempts', fun _ => hset.completedAt⟩⟩

/-- What `fail_job` writes. -/
theorem ProcessingJob.Consistent.fail (h : job.Consistent) (hattempts : job.attempts ≠ 0)
    (hf : f.Failing)
    (hkeeps : f.job.loaded.completedAt ≠ none → f.job.current.completedAt ≠ none) :
    (f.pending.job.apply job).Consistent ∧ job.Precedes (f.pending.job.apply job) := by
  have hset : f.pending.job = ⟨some .failed, none, none,
      dirty f.job.loaded.completedAt f.job.current.completedAt⟩ := by
    have hcurrent := hf.job
    simp only [Frame.pending, dirtyJob]
    rw [hcurrent, hf.jobStatus, dirty_self, dirty_self]
    rfl
  have hcompletedAt (hne : job.completedAt ≠ none) :
      put (dirty f.job.loaded.completedAt f.job.current.completedAt) job.completedAt ≠ none := by
    rw [put_dirty]
    split
    · exact hne
    · rename_i hchanged
      exact fun hnone => hchanged (hnone.trans (not_imp_not.mp hkeeps hnone).symm)
  have hstarted : job.startedAt ≠ none := mt h.startedAt.mp hattempts
  rw [hset]
  refine ⟨⟨iff_of_false (fun hpending => by cases hpending) hattempts,
    iff_of_false hstarted hattempts, fun hcompleted => ?_, fun _ => hattempts⟩,
    ⟨fun _ => hattempts, hcompletedAt⟩⟩
  cases hcompleted

/-- The commit of a claim on the job's row. -/
theorem Frame.Claiming.commit_jobs (h : f.Claiming) (hjob : rows.jobs t = some job) :
    (f.commit t rows).jobs t = some (f.pending.job.apply job) := by
  rw [h.commit_eq, Writes.apply_jobs_self, hjob]
  rfl

/-- The commit of a completion. -/
theorem Frame.Flushed.commit_jobs (h : f.Flushed) (hjob : rows.jobs t = some job) :
    (f.commit t rows).jobs t = some (f.flushed.job.apply job) := by
  rw [h.commit_eq]
  change (f.flushed.apply t rows).jobs t = _
  rw [Writes.apply_jobs_self, hjob]
  rfl

/-- The commit of a failure. -/
theorem Frame.Failing.commit_jobs (h : f.Failing) (hjob : rows.jobs t = some job) :
    (f.commit t rows).jobs t = some (f.pending.job.apply job) := by
  rw [h.commit_eq, Writes.apply_jobs_self, hjob]
  rfl

/-- A commit leaves a consistent row, on which nothing is taken back. -/
theorem RowChange.consistent (h : RowChange act rows ph rows')
    (hjob : rows.jobs act.jobType = some job) (hconsistent : job.Consistent) (hph : ph.Knows job) :
    ∃ job', rows'.jobs act.jobType = some job' ∧ job'.Consistent ∧ job.Precedes job' := by
  cases h with
  | same => exact ⟨job, hjob, hconsistent, .refl job⟩
  | insert hnone => cases hnone.symm.trans hjob
  | claim hf =>
    refine ⟨_, hf.commit_jobs hjob, ?_⟩
    obtain ⟨now, video, old, -, rfl⟩ := hf
    exact hconsistent.claim hph.1 hph.2 now
  | complete hf => exact ⟨_, hf.commit_jobs hjob, hconsistent.complete hph.1 hph.2⟩
  | fail _ hf => exact ⟨_, hf.commit_jobs hjob, hconsistent.fail hph.1 hf hph.2⟩

/-- A row that was not there is new. -/
theorem RowChange.job_of_none (h : RowChange act rows ph rows')
    (hnone : rows.jobs act.jobType = none) (hjob : rows'.jobs act.jobType = some job) :
    job = .new := by
  cases h with
  | same => cases hnone.symm.trans hjob
  | insert =>
    obtain rfl : ProcessingJob.new = job := by simpa using hjob
    rfl
  | claim | complete | fail =>
    rw [Frame.commit, Writes.apply_jobs_self, Writes.apply_jobs_self, hnone] at hjob
    cases hjob

/-! ## What an attempt knows -/

/-- Nothing an attempt knows of a job is lost to a write that takes nothing back. -/
theorem Phase.Knows.mono (h : ph.Knows job) (hprecedes : job.Precedes job') : ph.Knows job' := by
  cases ph with
  | commitClaim f => exact ⟨h.1, ⟨hprecedes.attempts ∘ h.2.attempts,
      hprecedes.completedAt ∘ h.2.completedAt⟩⟩
  | work f todo => exact ⟨hprecedes.attempts h.1, hprecedes.completedAt ∘ h.2⟩
  | selectAsset f todo | flush f =>
    exact ⟨hprecedes.attempts h.1, hprecedes.completedAt ∘ h.2.1, h.2.2⟩
  | countCompleted f | commitCompletion f =>
    refine ⟨hprecedes.attempts h.1, ⟨h.2.status, h.2.attempts, h.2.startedAt, ?_⟩⟩
    have hset := h.2.completedAt
    cases hdirty : f.flushed.job.completedAt with
    | none =>
      rw [hdirty, put_none] at hset
      rw [put_none]
      exact hprecedes.completedAt hset
    | some stamp =>
      rw [hdirty, put_some] at hset
      rwa [put_some]
  | failJob f error => exact ⟨hprecedes.attempts h.1, h.2⟩
  | _ => trivial

/-- A completion knows the row it has claimed. -/
theorem completing_knows {assets : List (AssetType × Str)} (hattempts : job.attempts ≠ 0)
    (hkeeps : f.KeepsCompletedAt job) (hset : f.job.current.completedAt ≠ none) :
    (completing f assets).Knows job := by
  cases assets <;> exact ⟨hattempts, hkeeps, hset⟩

/-- So does the work. -/
theorem working_knows {todo : List Io} (h : working videoId act f now todo = some ph)
    (hattempts : job.attempts ≠ 0) (hkeeps : f.KeepsCompletedAt job) : ph.Knows job := by
  cases todo with
  | cons io todo =>
    obtain rfl := Option.some.inj h
    exact ⟨hattempts, hkeeps⟩
  | nil =>
    cases act with
    | extractMetadata =>
      obtain ⟨m, -, rfl⟩ := Option.map_eq_some_iff.mp h
      exact completing_knows hattempts hkeeps (Option.some_ne_none now)
    | generateThumbnail | transcode =>
      obtain rfl := Option.some.inj h
      exact completing_knows hattempts hkeeps (Option.some_ne_none now)

/-- And the attempt that has just claimed it. -/
theorem claimed_knows (hattempts : job.attempts ≠ 0) (hkeeps : f.KeepsCompletedAt job)
    (hcurrent : f.job.current = f.job.loaded) : (claimed videoId act f).Knows job := by
  cases act with
  | transcode sourceHeight =>
    rw [claimed]
    split
    · refine ⟨hattempts, fun hne => ?_⟩
      rw [Frame.failJob, Tracked.modify_current, hcurrent]
      exact hne
    · exact ⟨hattempts, hkeeps⟩
  | extractMetadata | generateThumbnail => exact ⟨hattempts, hkeeps⟩

/-- The row after a claim of it was committed. -/
theorem Frame.Claiming.apply_knows (h : f.Claiming) (hprecedes : f.job.loaded.Precedes job) :
    (claimed videoId act f.committed).Knows (f.pending.job.apply job) := by
  obtain ⟨now, video, old, -, rfl⟩ := h
  refine claimed_knows ?_ ?_ rfl
  · exact put_dirty_of (P := (· ≠ 0)) (Nat.succ_ne_zero _) hprecedes.attempts
  · intro hne
    change put (dirty old.completedAt old.completedAt) job.completedAt ≠ none
    rw [dirty_self, put_none]
    exact hprecedes.completedAt hne

/-- What the flush of a completion has sent. -/
theorem Frame.Completing.flush_completes (h : f.Completing act) (hkeeps : f.KeepsCompletedAt job)
    (hset : f.job.current.completedAt ≠ none) : f.flush.flushed.job.Completes job := by
  have hcurrent := h.job
  refine ⟨?_, ?_, ?_, put_dirty_of (P := (· ≠ none)) hset hkeeps⟩ <;>
    simp only [Frame.flush, Frame.pending, dirtyJob] <;> rw [hcurrent]
  · rw [h.jobStatus]
    rfl
  · exact dirty_self _
  · exact dirty_self _

/-- One that is over needs to know nothing. -/
theorem alreadyCompleted_knows (video : Tracked Video) :
    (alreadyCompleted videoId act video).Knows job := by
  cases act with
  | extractMetadata =>
    rw [alreadyCompleted]
    split <;> trivial
  | generateThumbnail | transcode => trivial

/-- An attempt goes on with what it knows of the row as it is after the step. -/
theorem Resumes.knows (h : Resumes videoId act st ph ans st' ph')
    (hshaped : ph.Shaped videoId act) (hrows : st.rows.Consistent)
    (hbefore : Attempt.Knows st.rows ⟨act, ph⟩)
    (hjob : st'.rows.jobs act.jobType = some job) (hknows : ph.Knows job) : ph'.Knows job := by
  cases h with
  | @selectJob _ _ read hread =>
    -- the row that was read is the row there is
    obtain rfl := Option.some.inj (hread.symm.trans hjob)
    exact ⟨hrows _ _ hread, .refl read⟩
  | insert =>
    obtain rfl : ProcessingJob.new = job := by simpa using hjob
    exact ⟨ProcessingJob.consistent_new, .refl _⟩
  | commitClaim =>
    -- the claim's UPDATE is of the row as it stands, which may be newer than the copy
    rw [hshaped.commit_eq, Writes.apply_jobs_self] at hjob
    obtain ⟨old, hold, rfl⟩ := Option.map_eq_some_iff.mp hjob
    exact hshaped.apply_knows (hbefore old hold).2
  | call _ _ hph => exact working_knows hph hknows.1 hknows.2
  | probe hph => exact working_knows hph hknows.1 hknows.2
  | upload hph => exact working_knows hph hknows.1 hknows.2
  | @workFails f =>
    refine ⟨hknows.1, fun hne => ?_⟩
    change f.job.current.completedAt ≠ none
    rwa [hshaped.1.job]
  | selectAsset => exact completing_knows hknows.1 hknows.2.1 hknows.2.2
  | flush => exact ⟨hknows.1, hshaped.1.flush_completes hknows.2.1 hknows.2.2⟩
  | @countCompleted _ f =>
    -- the count decides on the video's status only
    cases allJobsCompleted (f.flushed.apply act.jobType st.rows) <;> exact hknows
  | completionFails hph =>
    cases ph with
    | selectAsset g todo | flush g =>
      obtain rfl := Option.some.inj hph
      exact ⟨hknows.1, fun _ => hknows.2.2⟩
    | countCompleted g =>
      obtain rfl := Option.some.inj hph
      refine ⟨hknows.1, fun hne => ?_⟩
      change g.job.current.completedAt ≠ none
      rwa [hshaped.1.job]
    | commitCompletion g =>
      obtain rfl := Option.some.inj hph
      refine ⟨hknows.1, fun hne => ?_⟩
      change g.job.current.completedAt ≠ none
      rwa [hshaped.job]
    | _ => cases hph
  | noConnection => exact ⟨hknows.1, fun _ => hknows.2.2⟩
  | selectCompleted => exact alreadyCompleted_knows _
  | _ => trivial

/-! ## Steps -/

/-- Nothing is taken back on the rows of the jobs. -/
def VideoRows.JobsPrecede (rows rows' : VideoRows) : Prop :=
  ∀ t job job', rows.jobs t = some job → rows'.jobs t = some job' → job.Precedes job'

/-- The rows after a step of a sound attempt. -/
theorem Resumes.rows_consistent (h : Resumes videoId act st ph ans st' ph')
    (hshaped : ph.Shaped videoId act) (hrows : st.rows.Consistent)
    (hknows : Attempt.Knows st.rows ⟨act, ph⟩) :
    st'.rows.Consistent ∧ st.rows.JobsPrecede st'.rows := by
  have hchange := h.rowChange hshaped
  -- the attempt's own job; the others are as before
  have hown : ∀ job', st'.rows.jobs act.jobType = some job' → job'.Consistent ∧
      ∀ job, st.rows.jobs act.jobType = some job → job.Precedes job' := by
    intro job' hjob'
    cases hjob : st.rows.jobs act.jobType with
    | some job =>
      obtain ⟨new, hnew, hconsistent, hprecedes⟩ :=
        hchange.consistent hjob (hrows _ _ hjob) (hknows job hjob)
      obtain rfl := Option.some.inj (hnew.symm.trans hjob')
      refine ⟨hconsistent, fun old hold => ?_⟩
      obtain rfl := Option.some.inj hold
      exact hprecedes
    | none =>
      refine ⟨?_, fun job hsome => by cases hsome⟩
      -- a row that was not there is a new one
      obtain rfl := hchange.job_of_none hjob hjob'
      exact ProcessingJob.consistent_new
  refine ⟨fun t job hjob => ?_, fun t job job' hjob hjob' => ?_⟩
  · by_cases ht : t = act.jobType
    · subst ht
      exact (hown job hjob).1
    · exact hrows t job (h.jobs_of_ne ht ▸ hjob)
  · by_cases ht : t = act.jobType
    · subst ht
      exact (hown job' hjob').2 job hjob
    · obtain rfl := Option.some.inj (hjob.symm.trans (h.jobs_of_ne ht ▸ hjob'))
      exact .refl job

/-- An attempt that has no row yet knows nothing. -/
theorem Phase.knows_of_not_hasJob (h : ph.hasJob = false) : ph.Knows job := by
  cases ph <;> trivial

/-- A sound attempt goes on knowing what it knew. -/
theorem Attempt.Knows.mono (h : a.Knows rows) (hsound : a.Sound videoId rows)
    (hrows : rows.JobsPrecede rows') : a.Knows rows' := by
  intro job' hjob'
  cases hjob : rows.jobs a.activity.jobType with
  | some job => exact (h job hjob).mono (hrows _ _ _ hjob hjob')
  | none =>
    refine Phase.knows_of_not_hasJob (Bool.eq_false_iff.mpr fun hph => ?_)
    exact hsound.present hph hjob

/-- The rows are consistent and every attempt knows what it has to. -/
structure Pool.Bookkeeps (p : Pool) : Prop where
  sound : p.Sound
  rows : p.rows.Consistent
  knows : p.Each Attempt.Knows

/-- Every step keeps the columns of the rows in agreement. -/
theorem Pool.Bookkeeps.step (h : p.Bookkeeps) (hstep : p.step l = some p') : p'.Bookkeeps := by
  cases l with
  | begin act =>
    obtain rfl := Option.some.inj hstep
    exact ⟨h.sound.begin act, h.rows, Pool.Each.begin h.knows fun _ _ => trivial⟩
  | vanish i =>
    refine ⟨h.sound.vanish hstep, ?_, Pool.Each.vanish h.knows hstep fun _ _ _ => trivial⟩
    obtain ⟨_, -, rfl⟩ := Pool.vanish_eq_some hstep
    exact h.rows
  | resume i ans =>
    -- the step's row change, for the rows and for every other attempt
    have hrows : ∀ a st ph, p.attempts[i]? = some a →
        Resumes p.videoId a.activity p.store a.phase ans st ph →
        st.rows.Consistent ∧ p.rows.JobsPrecede st.rows := fun a st ph ha hres =>
      hres.rows_consistent (h.sound i a ha).shaped h.rows (h.knows i a ha)
    refine ⟨h.sound.resume hstep, ?_, Pool.Each.resume h.knows hstep ?_ ?_⟩
    · obtain ⟨a, st, ph, ha, hres, rfl⟩ := Pool.resume_eq_some hstep
      exact (hrows a st ph ha hres).1
    · intro a st ph ha hknows hres job hjob
      have hnow := hknows.mono (h.sound i a ha) (hrows a st ph ha hres).2
      exact hres.knows (h.sound i a ha).shaped h.rows hknows hjob (hnow job hjob)
    · intro a st ph j b ha hres _ hb hknows
      exact hknows.mono (h.sound j b hb) (hrows a st ph ha hres).2

/-- A new video has no rows. -/
theorem Pool.bookkeeps_created (videoId : UUID) (filename key : Str) :
    (Pool.created videoId filename key).Bookkeeps where
  sound := Pool.sound_of_nil rfl
  rows := fun t job hjob => by cases hjob
  knows := Pool.each_of_nil rfl

/-- **Bookkeeping.** However attempts on a video overlap, fail, and leave each other's columns
alone, the columns of every stored job agree: the job is pending exactly while it has no attempt,
`started_at` is set exactly when it has one, and a completed job has its `completed_at`. -/
theorem jobs_consistent {filename key : Str} {ls : List PoolLabel}
    (hrun : exec Pool.step (.created videoId filename key) ls = some p) : p.rows.Consistent :=
  (exec_invariant (fun _ _ _ => Pool.Bookkeeps.step) (Pool.bookkeeps_created ..) hrun).rows

/-- Two attempts claim the job from the same copy; one fails and the other completes after it. -/
def Pool.failsThenCompletes : List PoolLabel :=
  [.begin .extractMetadata, .begin .extractMetadata, .resume 0 (.ok 1), .resume 0 (.ok 2),
    .resume 0 (.ok 3), .resume 1 (.ok 4), .resume 1 (.ok 5), .resume 0 (.ok 6), .resume 1 (.ok 7),
    .resume 0 .error, .resume 1 (.ok 8), .resume 1 (.probed ⟨5000, 1920, 1080⟩ 9),
    .resume 0 (.ok 10), .resume 1 (.ok 11), .resume 1 (.ok 12), .resume 1 (.ok 13)]

/-- A job that has failed once and then completed. -/
theorem jobs_consistent_clip : ∃ p, exec Pool.step .clip Pool.failsThenCompletes = some p ∧
    p.rows.jobs .metadata = some ⟨.completed, 1, some 5, some 9⟩ ∧ p.rows.Consistent := by
  have hruns : (exec Pool.step .clip Pool.failsThenCompletes).any fun p =>
      p.rows.jobs .metadata = some ⟨.completed, 1, some 5, some 9⟩ := by decide +kernel
  obtain ⟨p, hrun, hjob⟩ := (Option.any_eq_true _ _).mp hruns
  exact ⟨p, hrun, of_decide_eq_true hjob, jobs_consistent hrun⟩

end VideoProcessing
