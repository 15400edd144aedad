import VideoProcessing.Library.UnitOfWork
import VideoProcessing.Worker.Transcode

/-!
# Claiming and finishing jobs

`worker/jobs.py` over the objects of one session. A `Frame` is what an activity holds once
`claim_job` has found or inserted its row: the `Video` and `ProcessingJob` objects, the asset
objects `_upsert_asset` added, and what the open transaction has already flushed. The functions of
`jobs.py` are cut at their awaits: this module has the assignments between two awaits, and
`Worker/Activities` the awaits themselves.
-/

namespace VideoProcessing

open Python UnitOfWork

/-! ## What a transaction writes -/

/-- The `SET` clause of an `UPDATE videos`. -/
structure VideoSet where
  status : Option VideoStatus
  durationMs : Option (Option ℤ)
  width : Option (Option ℤ)
  height : Option (Option ℤ)
deriving DecidableEq

/-- The `SET` clause of an `UPDATE processing_jobs`. -/
structure JobSet where
  status : Option JobStatus
  attempts : Option ℕ
  startedAt : Option (Option Time)
  completedAt : Option (Option Time)
deriving DecidableEq

/-- The statements of one flush. -/
structure Writes where
  video : VideoSet
  job : JobSet
  /-- inserted assets, and updated keys of existing ones -/
  assets : List (AssetType × Str)
deriving DecidableEq

/-- Nothing flushed. -/
def Writes.empty : Writes where
  video := ⟨.none, .none, .none, .none⟩
  job := ⟨.none, .none, .none, .none⟩
  assets := []

def VideoSet.apply (set : VideoSet) (row : Video) : Video :=
  { row with
    status := put set.status row.status
    durationMs := put set.durationMs row.durationMs
    width := put set.width row.width
    height := put set.height row.height }

def JobSet.apply (set : JobSet) (row : ProcessingJob) : ProcessingJob where
  status := put set.status row.status
  attempts := put set.attempts row.attempts
  startedAt := put set.startedAt row.startedAt
  completedAt := put set.completedAt row.completedAt

/-- The rows after the statements, which concern the job of type `t`. -/
def Writes.apply (t : JobType) (w : Writes) (rows : VideoRows) : VideoRows where
  video := w.video.apply rows.video
  jobs := Function.update rows.jobs t ((rows.jobs t).map w.job.apply)
  assets := fun a => w.assets.lookup a <|> rows.assets a

/-- The changed columns of a `Video` object. -/
def dirtyVideo (video : Tracked Video) : VideoSet where
  status := dirty video.loaded.status video.current.status
  durationMs := dirty video.loaded.durationMs video.current.durationMs
  width := dirty video.loaded.width video.current.width
  height := dirty video.loaded.height video.current.height

/-- The changed columns of a `ProcessingJob` object. -/
def dirtyJob (job : Tracked ProcessingJob) : JobSet where
  status := dirty job.loaded.status job.current.status
  attempts := dirty job.loaded.attempts job.current.attempts
  startedAt := dirty job.loaded.startedAt job.current.startedAt
  completedAt := dirty job.loaded.completedAt job.current.completedAt

/-- A `GeneratedAsset` object: the loaded key is `none` for an object that is still to be
inserted. -/
abbrev AssetObject := AssetType × Tracked (Option Str)

def dirtyAsset (asset : AssetObject) : Option (AssetType × Str) :=
  (dirty asset.2.loaded asset.2.current).join.map fun key => (asset.1, key)

/-! ## The frame of an activity -/

/-- The transaction of a session: not begun, open, or failed. After a failed statement or flush
every further operation raises until `rollback()`, which no activity calls. -/
inductive Tx where
  | idle
  | active
  | broken
deriving DecidableEq

/-- What an activity holds after `claim_job`. -/
structure Frame where
  video : Tracked Video
  job : Tracked ProcessingJob
  assets : List AssetObject
  /-- emitted in the open transaction, not committed -/
  flushed : Writes
  tx : Tx
  /-- what `extract_metadata` returned -/
  metadata : Option VideoMetadata
  /-- the assets uploaded to S3 so far, with their keys -/
  uploads : List (AssetType × Str)
deriving DecidableEq

/-- What the next flush emits. -/
def Frame.pending (f : Frame) : Writes where
  video := dirtyVideo f.video
  job := dirtyJob f.job
  assets := f.assets.filterMap dirtyAsset

/-- The session after a successful flush. -/
def Frame.flush (f : Frame) : Frame :=
  { f with
    video := f.video.flushed
    job := f.job.flushed
    assets := f.assets.map fun asset => (asset.1, asset.2.flushed)
    flushed := f.pending
    tx := .active }

/-- The committed rows after `db.commit()`: what was flushed earlier in the transaction, then what
the commit flushes. -/
def Frame.commit (f : Frame) (t : JobType) (rows : VideoRows) : VideoRows :=
  f.pending.apply t (f.flushed.apply t rows)

/-- The session after `db.commit()` (`expire_on_commit=False`: the objects keep their values). -/
def Frame.committed (f : Frame) : Frame :=
  { f.flush with flushed := .empty, tx := .idle }

/-- The range of a PostgreSQL `INTEGER`. -/
def fitsInteger (n : ℤ) : Bool := decide (-2147483648 ≤ n ∧ n ≤ 2147483647)

/-- Every `INTEGER` column a flush sets is in range. -/
def Writes.inRange (w : Writes) : Bool :=
  w.video.durationMs.all (·.all fitsInteger) && w.video.width.all (·.all fitsInteger) &&
    w.video.height.all (·.all fitsInteger) && w.job.attempts.all fun (n : ℕ) => fitsInteger n

/-- Flushing the asset object violates `UNIQUE(video_id, asset_type)` or `UNIQUE(object_key)`. -/
def AssetObject.collides (rows : VideoRows) (asset : AssetObject) : Bool :=
  (dirtyAsset asset).isSome &&
    ((asset.2.loaded.isNone && (rows.assets asset.1).isSome) ||
      AssetType.members.any fun a => a != asset.1 && rows.assets a == asset.2.current)

/-- The database can accept what the next flush emits. -/
def Frame.accepted (f : Frame) (rows : VideoRows) : Bool :=
  f.pending.inRange && !f.assets.any (AssetObject.collides rows)

/-! ## `claim_job` -/

/-- The assignments of `claim_job` to the job. -/
def ProcessingJob.claim (now : Time) (job : ProcessingJob) : ProcessingJob :=
  { job with status := .processing, attempts := job.attempts + 1, startedAt := some now }

/-- The assignment of `claim_job` to the video, which a completed video is spared. -/
def Video.claim (video : Video) : Video :=
  if video.status ≠ .completed then { video with status := .processing } else video

/-- The session at the last commit of `claim_job`. -/
def claimJob (now : Time) (video : Tracked Video) (job : Tracked ProcessingJob) : Frame where
  video := video.modify Video.claim
  job := job.modify (ProcessingJob.claim now)
  assets := []
  flushed := .empty
  tx := .active
  metadata := none
  uploads := []

/-! ## `complete_*_job` -/

/-- The assignments every `complete_*_job` makes to the job. -/
def Frame.completeJob (f : Frame) (now : Time) : Frame :=
  { f with job := f.job.modify fun job =>
      { job with status := .completed, completedAt := some now } }

/-- The assignments of `complete_metadata_job` to the video. -/
def Frame.setMetadata (f : Frame) (m : VideoMetadata) : Frame :=
  { f with video := f.video.modify fun video =>
      { video with
        durationMs := some m.durationMs, width := some m.width, height := some m.height } }

/-- `_upsert_asset` once its select has answered: change the key of the row found, or add one. -/
def Frame.upsertAsset (f : Frame) (existing : Option Str) (assetType : AssetType) (key : Str) :
    Frame :=
  { f with assets := f.assets ++ [(assetType, ⟨existing, some key⟩)], tx := .active }

/-- `if await _all_jobs_completed(db, video): video.status = VideoStatus.COMPLETED`. -/
def Frame.completeVideo (f : Frame) (allCompleted : Bool) : Frame :=
  if allCompleted then
    { f with video := f.video.modify fun video => { video with status := .completed } }
  else f

/-! ## `fail_job` -/

/-- The assignments of `fail_job`. -/
def Frame.failJob (f : Frame) : Frame :=
  { f with
    job := f.job.modify fun job => { job with status := .failed }
    video := f.video.modify fun video => { video with status := .failed } }

end VideoProcessing
