import Mathlib.Data.Fintype.Basic
import Mathlib.Data.Fintype.OfMap
import Mathlib.Logic.Function.Basic
import VideoProcessing.Library.Python

/-!
# The tables

The rows of `common/models/` and the slice of the database that belongs to one video. A slice holds
the `videos` row itself, so a job or an asset without its video cannot be written down (the foreign
keys); jobs are a partial function of the job type and assets of the asset type (the two `UNIQUE`
constraints). Row ids and `created_at` are read by no modelled function.
-/

namespace VideoProcessing

open Python

/-- `datetime.now(UTC)`. -/
abbrev Time := ℕ

inductive VideoStatus where
  | pendingUpload
  | processing
  | completed
  | failed
deriving DecidableEq, Repr

inductive JobStatus where
  | pending
  | processing
  | completed
  | failed
deriving DecidableEq, Repr

inductive JobType where
  | metadata
  | thumbnail
  | transcode
deriving DecidableEq, Repr

inductive AssetType where
  | thumbnail
  | preview1080p
  | preview720p
  | preview480p
deriving DecidableEq, Repr

/-- `VideoStatus.value`. -/
def VideoStatus.value : VideoStatus → Str
  | .pendingUpload => str "pending_upload"
  | .processing => str "processing"
  | .completed => str "completed"
  | .failed => str "failed"

/-- `JobStatus.value`. -/
def JobStatus.value : JobStatus → Str
  | .pending => str "pending"
  | .processing => str "processing"
  | .completed => str "completed"
  | .failed => str "failed"

/-- `JobType.value`. -/
def JobType.value : JobType → Str
  | .metadata => str "metadata"
  | .thumbnail => str "thumbnail"
  | .transcode => str "transcode"

/-- `AssetType.value`. -/
def AssetType.value : AssetType → Str
  | .thumbnail => str "thumbnail"
  | .preview1080p => str "preview_1080p"
  | .preview720p => str "preview_720p"
  | .preview480p => str "preview_480p"

/-- Job types have distinct values. -/
theorem JobType.value_injective : Function.Injective JobType.value := by
  intro t t'
  cases t <;> cases t' <;> decide

/-- Asset types have distinct values. -/
theorem AssetType.value_injective : Function.Injective AssetType.value := by
  intro a a'
  cases a <;> cases a' <;> decide

/-- `VideoStatus.__members__`. -/
def VideoStatus.members : List VideoStatus := [.pendingUpload, .processing, .completed, .failed]

/-- `JobStatus.__members__`. -/
def JobStatus.members : List JobStatus := [.pending, .processing, .completed, .failed]

/-- `JobType.__members__`. -/
def JobType.members : List JobType := [.metadata, .thumbnail, .transcode]

/-- The members are all job types. -/
theorem JobType.mem_members (t : JobType) : t ∈ JobType.members := by
  cases t <;> decide

instance : Fintype JobType := Fintype.ofList JobType.members JobType.mem_members

/-- `AssetType.__members__`. -/
def AssetType.members : List AssetType := [.thumbnail, .preview1080p, .preview720p, .preview480p]

/-- The members are all asset types. -/
theorem AssetType.mem_members (t : AssetType) : t ∈ AssetType.members := by
  cases t <;> decide

instance : Fintype AssetType := Fintype.ofList AssetType.members AssetType.mem_members

/-- `processing.VideoMetadata`. -/
structure VideoMetadata where
  durationMs : ℤ
  width : ℤ
  height : ℤ
deriving DecidableEq, Repr

/-- A row of `videos`. -/
structure Video where
  filename : Str
  originalObjectKey : Str
  status : VideoStatus
  durationMs : Option ℤ
  width : Option ℤ
  height : Option ℤ
deriving DecidableEq

/-- `Video(filename=..., original_object_key=..., status=VideoStatus.PENDING_UPLOAD)`. -/
def Video.new (filename originalObjectKey : Str) : Video where
  filename := filename
  originalObjectKey := originalObjectKey
  status := .pendingUpload
  durationMs := none
  width := none
  height := none

/-- A row of `processing_jobs`. -/
structure ProcessingJob where
  status : JobStatus
  attempts : ℕ
  startedAt : Option Time
  completedAt : Option Time
deriving DecidableEq

/-- `ProcessingJob(video_id=..., job_type=...)` with the column defaults. -/
def ProcessingJob.new : ProcessingJob where
  status := .pending
  attempts := 0
  startedAt := none
  completedAt := none

/-- The committed rows of one video. -/
structure VideoRows where
  video : Video
  jobs : JobType → Option ProcessingJob
  /-- the `object_key` of the asset of each type -/
  assets : AssetType → Option Str

/-- The rows of a video just created. -/
def VideoRows.new (video : Video) : VideoRows where
  video := video
  jobs := fun _ => none
  assets := fun _ => none

/-- The stored status of a job, `none` where it has no row. -/
def VideoRows.jobStatus (rows : VideoRows) (t : JobType) : Option JobStatus :=
  (rows.jobs t).map ProcessingJob.status

/-- The job has a completed row. -/
def VideoRows.Completed (rows : VideoRows) (t : JobType) : Prop :=
  rows.jobStatus t = some .completed

instance (rows : VideoRows) (t : JobType) : Decidable (rows.Completed t) :=
  inferInstanceAs (Decidable (_ = _))

/-- The three columns `complete_metadata_job` fills. -/
def Video.metadata (video : Video) : Option ℤ × Option ℤ × Option ℤ :=
  (video.durationMs, video.width, video.height)

/-- The columns of a completed metadata job. -/
def VideoMetadata.columns (m : VideoMetadata) : Option ℤ × Option ℤ × Option ℤ :=
  (some m.durationMs, some m.width, some m.height)

/-- `count_completed_for_video` over the rows its statement sees. -/
def countCompletedForVideo (rows : VideoRows) : ℕ :=
  JobType.members.countP fun t => rows.Completed t

/-- `_all_jobs_completed` over the rows its statement sees. -/
def allJobsCompleted (rows : VideoRows) : Bool :=
  decide (JobType.members.length ≤ countCompletedForVideo rows)

/-- The count reaches the number of job types exactly when every job has a completed row. -/
theorem allJobsCompleted_iff {rows : VideoRows} :
    allJobsCompleted rows = true ↔ ∀ t, rows.Completed t := by
  have hle : countCompletedForVideo rows ≤ JobType.members.length := List.countP_le_length
  have hall : countCompletedForVideo rows = JobType.members.length ↔
      ∀ t ∈ JobType.members, decide (rows.Completed t) = true := List.countP_eq_length
  rw [allJobsCompleted, decide_eq_true_iff]
  constructor
  · intro h t
    simpa using hall.mp (le_antisymm hle h) t t.mem_members
  · intro h
    exact (hall.mpr fun t _ => by simpa using h t).ge

end VideoProcessing
