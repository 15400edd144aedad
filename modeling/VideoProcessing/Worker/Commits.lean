import VideoProcessing.Worker.Shape

/-!
# What a commit does to the rows

The effect of each commit of an attempt, from the shape of its session: `claim_job` and `fail_job`
touch two statuses and the bookkeeping of the job, a completion writes what it flushed and then at
most the video's status. No commit removes a job row or an asset.
-/

namespace VideoProcessing

open Python UnitOfWork

variable {t t' : JobType} {w : Writes} {rows : VideoRows} {f : Frame}

/-! ## Statements -/

@[simp] theorem Writes.apply_status :
    (w.apply t rows).video.status = put w.video.status rows.video.status := rfl

@[simp] theorem Writes.apply_assets (a : AssetType) :
    (w.apply t rows).assets a = (w.assets.lookup a <|> rows.assets a) := rfl

@[simp] theorem Writes.apply_jobs_self :
    (w.apply t rows).jobs t = (rows.jobs t).map w.job.apply := by simp [Writes.apply]

/-- The rows of the other jobs stay. -/
theorem Writes.apply_jobs_of_ne (h : t' ≠ t) : (w.apply t rows).jobs t' = rows.jobs t' := by
  simp [Writes.apply, h]

@[simp] theorem Writes.apply_jobStatus_self :
    (w.apply t rows).jobStatus t = (rows.jobStatus t).map (put w.job.status) := by
  simp only [VideoRows.jobStatus, Writes.apply_jobs_self, Option.map_map]
  rfl

/-- And so do their statuses. -/
theorem Writes.apply_jobStatus_of_ne (h : t' ≠ t) :
    (w.apply t rows).jobStatus t' = rows.jobStatus t' := by
  rw [VideoRows.jobStatus, Writes.apply_jobs_of_ne h, VideoRows.jobStatus]

/-- A completed one stays completed. -/
theorem Writes.apply_completed_of_ne (h : t' ≠ t) :
    (w.apply t rows).Completed t' ↔ rows.Completed t' := by
  rw [VideoRows.Completed, Writes.apply_jobStatus_of_ne h, VideoRows.Completed]

@[simp] theorem Writes.empty_apply : Writes.empty.apply t rows = rows := by
  have hid : Writes.empty.job.apply = id := rfl
  have hjobs :
      Function.update rows.jobs t ((rows.jobs t).map Writes.empty.job.apply) = rows.jobs := by
    rw [hid, Option.map_id_fun, id, Function.update_eq_self]
  simp only [Writes.apply, hjobs]
  rfl

/-- Statements that leave the metadata columns and the assets alone. -/
structure Writes.StatusOnly (w : Writes) : Prop where
  durationMs : w.video.durationMs = none
  width : w.video.width = none
  height : w.video.height = none
  assets : w.assets = []

/-- Only statuses and the bookkeeping of the one job change. -/
theorem Writes.StatusOnly.apply_eq (h : w.StatusOnly) :
    w.apply t rows =
      { rows with
        video := { rows.video with status := put w.video.status rows.video.status }
        jobs := Function.update rows.jobs t ((rows.jobs t).map w.job.apply) } := by
  simp only [Writes.apply, VideoSet.apply, h.durationMs, h.width, h.height, h.assets, put_none,
    List.lookup_nil]
  rfl

/-! ## `claim_job` -/

/-- A claim has flushed nothing. -/
theorem Frame.Claiming.flushed (h : f.Claiming) : f.flushed = .empty := by
  obtain ⟨_, _, _, -, rfl⟩ := h
  rfl

/-- It writes statuses and timestamps only. -/
theorem Frame.Claiming.statusOnly (h : f.Claiming) : f.pending.StatusOnly := by
  obtain ⟨now, video, job, -, rfl⟩ := h
  have hvideo := video.claim_eq
  constructor <;> simp only [Frame.pending, claimJob, dirtyVideo, Tracked.modify_current,
    Tracked.modify_loaded, Tracked.fresh_current, Tracked.fresh_loaded, List.filterMap_nil]
  all_goals
    rw [hvideo]
    exact dirty_self _

/-- The video's status stays or becomes processing. -/
theorem Frame.Claiming.pending_status (h : f.Claiming) :
    f.pending.video.status = none ∨ f.pending.video.status = some .processing := by
  obtain ⟨now, video, job, -, rfl⟩ := h
  by_cases hstatus : video.status = .completed
  · left
    simp [Frame.pending, claimJob, dirtyVideo, Video.claim, hstatus]
  · simp only [Frame.pending, claimJob, dirtyVideo, Tracked.modify_current, Tracked.modify_loaded,
      Tracked.fresh_current, Tracked.fresh_loaded, Video.claim, ne_eq, hstatus, not_false_eq_true,
      if_true]
    by_cases hp : VideoStatus.processing = video.status
    · exact .inl (dirty_eq_none.mpr hp)
    · exact .inr (dirty_of_ne hp)

/-- So does the job's. -/
theorem Frame.Claiming.pending_jobStatus (h : f.Claiming) :
    f.pending.job.status = none ∨ f.pending.job.status = some .processing := by
  obtain ⟨now, video, job, -, rfl⟩ := h
  by_cases hp : JobStatus.processing = job.status
  · exact .inl (dirty_eq_none.mpr hp)
  · exact .inr (dirty_of_ne hp)

/-- A claim over a job its session loaded as processing leaves the status of the row out. -/
theorem Frame.Claiming.pending_jobStatus_of_processing (h : f.Claiming)
    (hloaded : f.job.loaded.status = .processing) : f.pending.job.status = none := by
  obtain ⟨now, video, job, -, rfl⟩ := h
  exact dirty_eq_none.mpr hloaded.symm

/-- It is written if the session has loaded another one. -/
theorem Frame.Claiming.pending_jobStatus_of_ne (h : f.Claiming)
    (hloaded : f.job.loaded.status ≠ .processing) : f.pending.job.status = some .processing := by
  obtain ⟨now, video, job, -, rfl⟩ := h
  exact dirty_of_ne (Ne.symm hloaded)

/-- A video that was claimed or completed is left alone. -/
theorem Frame.Claiming.pending_status_of_claimed (h : f.Claiming)
    (hloaded : f.video.loaded.status.Claimed) : f.pending.video.status = none := by
  obtain ⟨now, video, job, -, rfl⟩ := h
  refine dirty_eq_none.mpr ?_
  rcases hloaded with hp | hc
  · simp only [claimJob, Tracked.modify_loaded, Tracked.fresh_loaded] at hp
    simp [claimJob, Video.claim, hp]
  · simp only [claimJob, Tracked.modify_loaded, Tracked.fresh_loaded] at hc
    simp [claimJob, Video.claim, hc]

/-- Any other one becomes processing. -/
theorem Frame.Claiming.pending_status_of_not_claimed (h : f.Claiming)
    (hloaded : ¬ f.video.loaded.status.Claimed) : f.pending.video.status = some .processing := by
  rcases h.pending_status with hnone | hsome
  · obtain ⟨now, video, job, -, rfl⟩ := h
    have hclaimed := video.claim_status
    rw [show video.claim.status = video.status from dirty_eq_none.mp hnone] at hclaimed
    exact absurd hclaimed hloaded
  · exact hsome

/-- The commit stores what is pending. -/
theorem Frame.Claiming.commit_eq (h : f.Claiming) : f.commit t rows = f.pending.apply t rows := by
  rw [Frame.commit, h.flushed, Writes.empty_apply]

/-! ## `complete_*_job` -/

/-- After the flush a completion writes statuses only. -/
theorem Frame.Flushed.statusOnly (h : f.Flushed) : f.pending.StatusOnly where
  durationMs := by
    rw [Frame.pending, dirtyVideo, h.video]
    exact dirty_self _
  width := by
    rw [Frame.pending, dirtyVideo, h.video]
    exact dirty_self _
  height := by
    rw [Frame.pending, dirtyVideo, h.video]
    exact dirty_self _
  assets := by
    refine List.filterMap_eq_nil_iff.mpr fun asset hasset => ?_
    rw [dirtyAsset, h.assets asset hasset, dirty_self]
    rfl

/-- The video's status stays or becomes completed. -/
theorem Frame.Flushed.pending_status (h : f.Flushed) :
    f.pending.video.status = none ∨ f.pending.video.status = some .completed := by
  rcases h.status with heq | hcompleted
  · exact .inl (dirty_eq_none.mpr heq)
  · by_cases heq : f.video.current.status = f.video.loaded.status
    · exact .inl (dirty_eq_none.mpr heq)
    · exact .inr (by rw [Frame.pending, dirtyVideo, dirty_of_ne heq, hcompleted])

/-- The count is what sets the status. -/
theorem Frame.all_of_pending_status
    (hstatus : f.video.current.status = f.video.loaded.status) {all : Bool}
    (hp : (f.completeVideo all).pending.video.status = some .completed) : all = true := by
  cases all with
  | true => rfl
  | false =>
    have hnone : f.pending.video.status = none := dirty_eq_none.mpr hstatus
    exact nomatch hnone.symm.trans hp

/-- The job has been flushed. -/
theorem Frame.Flushed.pending_job (h : f.Flushed) : f.pending.job = Writes.empty.job := by
  simp only [Frame.pending, dirtyJob, h.job, dirty_self]
  rfl

/-- The commit stores what was flushed and then at most the video's status. -/
theorem Frame.Flushed.commit_eq (h : f.Flushed) :
    f.commit t rows =
      { f.flushed.apply t rows with
        video := { (f.flushed.apply t rows).video with
          status := put f.pending.video.status rows.video.status } } := by
  have hid : f.pending.job.apply = id := by
    rw [h.pending_job]
    rfl
  rw [Frame.commit, h.statusOnly.apply_eq, hid, Option.map_id_fun, id, Function.update_eq_self,
    Writes.apply_status, h.flushedVideo, put_none]

/-- The commit stores the status that is pending. -/
theorem Frame.Flushed.commit_status (h : f.Flushed) :
    (f.commit t rows).video.status = put f.pending.video.status rows.video.status := by
  rw [h.commit_eq]

/-- The view of the counting statement has the attempt's own job completed. -/
theorem Frame.Flushed.view_completed (h : f.Flushed) (hjob : rows.jobs t ≠ none) :
    (f.flushed.apply t rows).Completed t := by
  obtain ⟨job, hjob⟩ := Option.ne_none_iff_exists'.mp hjob
  rw [VideoRows.Completed, Writes.apply_jobStatus_self, h.flushedJob, VideoRows.jobStatus, hjob]
  rfl

/-- And completes the job. -/
theorem Frame.Flushed.commit_completed (h : f.Flushed) (hjob : rows.jobs t ≠ none) :
    (f.commit t rows).Completed t := by
  rw [h.commit_eq]
  exact h.view_completed hjob

/-! ## `fail_job` -/

/-- A failure writes statuses only. -/
theorem Frame.Failing.statusOnly (h : f.Failing) : f.pending.StatusOnly := by
  constructor <;> simp only [Frame.pending, dirtyVideo, h.video, h.assets, dirty_self,
    List.filterMap_nil]

/-- A claimed video has not failed. -/
theorem VideoStatus.Claimed.ne_failed {status : VideoStatus} (h : status.Claimed) :
    VideoStatus.failed ≠ status := by
  rcases h with rfl | rfl <;> decide

/-- The video fails. -/
theorem Frame.Failing.pending_status (h : f.Failing) :
    f.pending.video.status = some .failed := by
  rw [Frame.pending, dirtyVideo, h.video, dirty_of_ne h.videoStatus.ne_failed]

/-- And the job. -/
theorem Frame.Failing.pending_jobStatus (h : f.Failing) :
    f.pending.job.status = some .failed := by
  simp only [Frame.pending, dirtyJob]
  rw [h.job, h.jobStatus]
  rfl

/-- The commit stores what is pending. -/
theorem Frame.Failing.commit_eq (h : f.Failing) : f.commit t rows = f.pending.apply t rows := by
  rw [Frame.commit, h.flushed, Writes.empty_apply]

/-- After it the video has failed. -/
theorem Frame.Failing.commit_status (h : f.Failing) :
    (f.commit t rows).video.status = .failed := by
  rw [h.commit_eq, Writes.apply_status, h.pending_status, put_some]

/-- And the job has. -/
theorem Frame.Failing.commit_jobStatus (h : f.Failing) (hjob : rows.jobs t ≠ none) :
    (f.commit t rows).jobStatus t = some .failed := by
  obtain ⟨job, hjob⟩ := Option.ne_none_iff_exists'.mp hjob
  rw [h.commit_eq, Writes.apply_jobStatus_self, h.pending_jobStatus, VideoRows.jobStatus, hjob]
  rfl

/-! ## Any commit -/

@[simp] theorem Frame.commit_jobs_of_ne (h : t' ≠ t) :
    (f.commit t rows).jobs t' = rows.jobs t' := by
  rw [Frame.commit, Writes.apply_jobs_of_ne h, Writes.apply_jobs_of_ne h]

/-- The other jobs are as they were. -/
theorem Frame.commit_completed_of_ne (h : t' ≠ t) :
    (f.commit t rows).Completed t' ↔ rows.Completed t' := by
  rw [VideoRows.Completed, VideoRows.jobStatus, Frame.commit_jobs_of_ne h]
  rfl

/-- No statement removes a job row. -/
theorem Frame.commit_jobs_ne_none (h : rows.jobs t' ≠ none) : (f.commit t rows).jobs t' ≠ none := by
  by_cases ht : t' = t
  · subst ht
    simpa [Frame.commit] using h
  · rwa [Frame.commit_jobs_of_ne ht]

/-- The commit an await is about to make. -/
def Phase.commit? : Phase → Option Frame
  | .commitClaim f | .commitCompletion f | .failJob f _ => some f
  | _ => none

/-- How the committed rows can change at one await: not at all, by a new job row, or by a commit
of the session. -/
theorem Resumes.rows_cases {videoId : UUID} {act : Activity} {st st' : Store} {ph ph' : Phase}
    {ans : Answer} (h : Resumes videoId act st ph ans st' ph') :
    st'.rows = st.rows ∨
    (st.rows.jobs act.jobType = none ∧
      st'.rows = { st.rows with
        jobs := Function.update st.rows.jobs act.jobType (some ProcessingJob.new) }) ∨
    ∃ f, ph.commit? = some f ∧ st'.rows = f.commit act.jobType st.rows := by
  cases h with
  | insert hjob => exact .inr (.inl ⟨hjob, rfl⟩)
  | commitClaim | commitCompletion | failJob => exact .inr (.inr ⟨_, rfl, rfl⟩)
  | _ => exact .inl rfl

/-- How the committed rows change at one await of a session of the given shape. -/
inductive RowChange (act : Activity) (before : VideoRows) : Phase → VideoRows → Prop
  | same {ph : Phase} : RowChange act before ph before
  | insert {video : Tracked Video} (hjob : before.jobs act.jobType = none) :
      RowChange act before (.insertJob video)
        { before with jobs := Function.update before.jobs act.jobType (some ProcessingJob.new) }
  | claim {frame : Frame} (hf : frame.Claiming) :
      RowChange act before (.commitClaim frame) (frame.commit act.jobType before)
  | complete {frame : Frame} (hf : frame.Flushed) :
      RowChange act before (.commitCompletion frame) (frame.commit act.jobType before)
  | fail {frame : Frame} {error : ActivityError} (htx : frame.tx ≠ .broken) (hf : frame.Failing) :
      RowChange act before (.failJob frame error) (frame.commit act.jobType before)

/-- An await changes the rows in one of these ways. -/
theorem Resumes.rowChange {videoId : UUID} {act : Activity} {st st' : Store} {ph ph' : Phase}
    {ans : Answer} (h : Resumes videoId act st ph ans st' ph') (hph : ph.Shaped videoId act) :
    RowChange act st.rows ph st'.rows := by
  cases h with
  | insert hjob => exact .insert hjob
  | commitClaim => exact .claim hph
  | commitCompletion => exact .complete hph
  | failJob htx => exact .fail htx (hph htx)
  | _ => exact .same

/-- An attempt writes the row of its own job only. -/
theorem RowChange.completed_of_ne {act : Activity} {before after : VideoRows} {ph : Phase}
    (h : RowChange act before ph after) (ht : t ≠ act.jobType) :
    after.Completed t ↔ before.Completed t := by
  cases h with
  | same => rfl
  | insert => simp only [VideoRows.Completed, VideoRows.jobStatus, Function.update_of_ne ht]
  | claim | complete | fail => exact Frame.commit_completed_of_ne ht

/-- Only a completion completes a job, and only its own. -/
theorem RowChange.completed_cases {act : Activity} {rows rows' : VideoRows} {ph : Phase}
    (h : RowChange act rows ph rows')
    (ht : rows'.Completed t) :
    rows.Completed t ∨ t = act.jobType ∧
      ∃ f, ph = .commitCompletion f ∧ f.Flushed ∧ rows' = f.commit act.jobType rows := by
  by_cases hta : t = act.jobType
  · subst hta
    cases h with
    | same => exact .inl ht
    | insert => simp [VideoRows.Completed, VideoRows.jobStatus, ProcessingJob.new] at ht
    | claim hf =>
      left
      rw [hf.commit_eq, VideoRows.Completed, Writes.apply_jobStatus_self] at ht
      rcases hf.pending_jobStatus with hp | hp <;> rw [hp] at ht <;>
        obtain ⟨status, hstatus, hput⟩ := Option.map_eq_some_iff.mp ht
      · exact hstatus.trans (congrArg some hput)
      · exact nomatch hput
    | complete hf => exact .inr ⟨rfl, _, rfl, hf, rfl⟩
    | fail _ hf =>
      rw [hf.commit_eq, VideoRows.Completed, Writes.apply_jobStatus_self,
        hf.pending_jobStatus] at ht
      obtain ⟨status, -, hput⟩ := Option.map_eq_some_iff.mp ht
      exact nomatch hput
  · exact .inl ((h.completed_of_ne hta).mp ht)

/-- Only a completion publishes the video. -/
theorem RowChange.status_cases {act : Activity} {rows rows' : VideoRows} {ph : Phase}
    (h : RowChange act rows ph rows')
    (hstatus : rows'.video.status = .completed) :
    rows.video.status = .completed ∨
      ∃ f, ph = .commitCompletion f ∧ f.Flushed ∧ f.pending.video.status = some .completed ∧
        rows' = f.commit act.jobType rows := by
  cases h with
  | same | insert => exact .inl hstatus
  | claim hf =>
    rw [hf.commit_eq, Writes.apply_status] at hstatus
    rcases hf.pending_status with hp | hp <;> rw [hp] at hstatus
    exacts [.inl hstatus, nomatch hstatus]
  | complete hf =>
    rw [hf.commit_status] at hstatus
    rcases hf.pending_status with hp | hp
    · rw [hp] at hstatus
      exact .inl hstatus
    · exact .inr ⟨_, rfl, hf, hp, rfl⟩
  | fail _ hf => exact nomatch hf.commit_status.symm.trans hstatus

/-- A job row stays. -/
theorem Resumes.jobs_ne_none {videoId : UUID} {act : Activity} {st st' : Store} {ph ph' : Phase}
    {ans : Answer} (h : Resumes videoId act st ph ans st' ph') (hjob : st.rows.jobs t' ≠ none) :
    st'.rows.jobs t' ≠ none := by
  rcases h.rows_cases with heq | ⟨-, heq⟩ | ⟨f, -, heq⟩
  · rwa [heq]
  · rw [heq]
    by_cases ht : t' = act.jobType
    · subst ht
      simp
    · simpa [Function.update_of_ne ht] using hjob
  · rw [heq]
    exact Frame.commit_jobs_ne_none hjob

/-- An attempt only changes the row of its own job. -/
theorem Resumes.jobs_of_ne {videoId : UUID} {act : Activity} {st st' : Store} {ph ph' : Phase}
    {ans : Answer} (h : Resumes videoId act st ph ans st' ph') (ht : t' ≠ act.jobType) :
    st'.rows.jobs t' = st.rows.jobs t' := by
  rcases h.rows_cases with heq | ⟨-, heq⟩ | ⟨f, -, heq⟩
  · rw [heq]
  · rw [heq]
    exact Function.update_of_ne ht _ _
  · rw [heq]
    exact Frame.commit_jobs_of_ne ht

end VideoProcessing
