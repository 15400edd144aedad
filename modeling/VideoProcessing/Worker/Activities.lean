import VideoProcessing.Worker.Jobs

/-!
# The three activities

`worker/activities.py` as one program cut at its awaits. A `Phase` is the await an attempt is
suspended in, with its local variables; `Answer` is how that await ends, and `Phase.step` runs the
attempt from there to its next await. A statement sees the committed rows of its own moment (READ
COMMITTED) and the writes its transaction has flushed.
-/

namespace VideoProcessing

open Python UnitOfWork

/-- An activity and its arguments after `video_id`. -/
inductive Activity where
  | extractMetadata
  | generateThumbnail
  | transcode (sourceHeight : ℤ)
deriving DecidableEq

/-- The job an activity claims. -/
def Activity.jobType : Activity → JobType
  | .extractMetadata => .metadata
  | .generateThumbnail => .thumbnail
  | .transcode _ => .transcode

/-! ## What an activity raises -/

inductive ActivityError where
  /-- `temporalio.exceptions.ApplicationError` -/
  | application (message : Str) (nonRetryable : Bool)
  /-- raised by S3, ffmpeg or ffprobe, or by the kill of a child that is gone -/
  | io
  /-- raised by the database driver -/
  | database
  /-- SQLAlchemy's refusal to refresh an expired attribute outside an awaited call -/
  | missingGreenlet
  /-- SQLAlchemy's refusal to go on in a failed transaction -/
  | pendingRollback
  /-- `start_to_close_timeout` has passed -/
  | timedOut
deriving DecidableEq

/-- The retry policy stops at this error. -/
def ActivityError.nonRetryable : ActivityError → Bool
  | .application _ nonRetryable => nonRetryable
  | _ => false

def noVideoRow (videoId : UUID) : ActivityError :=
  .application (str "No video row for " ++ videoId.str) true

def noStoredMetadata (videoId : UUID) : ActivityError :=
  .application (str "Video " ++ videoId.str ++
    str " has a completed metadata job but no stored metadata") true

def noSourceHeight (videoId : UUID) (sourceHeight : ℤ) : ActivityError :=
  .application (str "Video " ++ videoId.str ++ str " has no usable source height (" ++
    str (toString sourceHeight) ++ str ")") true

/-- `_load_video` once the row has been fetched. -/
def loadVideo (videoId : UUID) : Option Video → Except ActivityError (Tracked Video)
  | none => .error (noVideoRow videoId)
  | some row => .ok (.fresh row)

/-- `_stored_metadata`. -/
def storedMetadata (videoId : UUID) (video : Video) : Except ActivityError VideoMetadata :=
  match video.durationMs, video.width, video.height with
  | some durationMs, some width, some height => .ok ⟨durationMs, width, height⟩
  | _, _, _ => .error (noStoredMetadata videoId)

/-! ## The awaits -/

/-- The awaited S3, ffprobe and ffmpeg calls. -/
inductive Io where
  | downloadOriginal (key : Str)
  | extractMetadata
  | generateThumbnail
  | transcode (rendition : Rendition)
  | uploadFile (assetType : AssetType) (key : Str)
deriving DecidableEq

/-- The calls an activity makes between claiming and completing its job. -/
def Activity.io (videoId : UUID) (originalKey : Str) : Activity → List Io
  | .extractMetadata => [.downloadOriginal originalKey, .extractMetadata]
  | .generateThumbnail =>
    [.downloadOriginal originalKey, .generateThumbnail,
      .uploadFile .thumbnail (thumbnailKey videoId)]
  | .transcode sourceHeight =>
    .downloadOriginal originalKey :: (renditionsForSourceHeight sourceHeight).flatMap
      fun rendition =>
        [.transcode rendition, .uploadFile rendition.assetType (renditionKey videoId rendition)]

/-- The await an attempt is suspended in. -/
inductive Phase where
  /-- `db.get(Video, video_id)` -/
  | loadVideo
  /-- the select of `claim_job` -/
  | selectJob (video : Tracked Video)
  /-- the commit of a new job row -/
  | insertJob (video : Tracked Video)
  /-- the last commit of `claim_job` -/
  | commitClaim (f : Frame)
  /-- the next of the S3 and ffmpeg calls left -/
  | work (f : Frame) (todo : List Io)
  /-- the select of `_upsert_asset` for the next of the assets left -/
  | selectAsset (f : Frame) (todo : List (AssetType × Str))
  /-- the flush of `count_completed_for_video` -/
  | flush (f : Frame)
  /-- its count -/
  | countCompleted (f : Frame)
  /-- the commit of `complete_*_job` -/
  | commitCompletion (f : Frame)
  /-- the commit of `fail_job`, after which `error` is raised -/
  | failJob (f : Frame) (error : ActivityError)
  | returned (result : Option VideoMetadata)
  | raised (error : ActivityError)
  /-- killed, or cancelled by a shutdown: no handler has run -/
  | vanished
deriving DecidableEq

/-- How an await ends. -/
inductive Answer where
  /-- it returns, at this time -/
  | ok (now : Time)
  /-- ffprobe returns -/
  | probed (metadata : VideoMetadata) (now : Time)
  /-- it raises; a database statement leaves its transaction failed -/
  | error
  /-- no database connection could be had, so no transaction has begun -/
  | noConnection
deriving DecidableEq

/-! ## From one await to the next -/

/-- The next await inside a completion. -/
def completing (f : Frame) : List (AssetType × Str) → Phase
  | [] => .flush f
  | todo => .selectAsset f todo

/-- `complete_metadata_job` up to its first await. -/
def completeMetadataJob (f : Frame) (m : VideoMetadata) (now : Time) : Phase :=
  completing ((f.setMetadata m).completeJob now) []

/-- `complete_thumbnail_job` up to its first await. -/
def completeThumbnailJob (f : Frame) (key : Str) (now : Time) : Phase :=
  completing (f.completeJob now) [(.thumbnail, key)]

/-- `complete_transcode_job` up to its first await. -/
def completeTranscodeJob (f : Frame) (renditions : List (AssetType × Str)) (now : Time) : Phase :=
  completing (f.completeJob now) renditions

/-- The completion of an activity whose calls have all returned. -/
def complete (videoId : UUID) (act : Activity) (f : Frame) (now : Time) : Option Phase :=
  match act with
  | .extractMetadata => f.metadata.map fun m => completeMetadataJob f m now
  | .generateThumbnail => some (completeThumbnailJob f (thumbnailKey videoId) now)
  | .transcode _ => some (completeTranscodeJob f f.uploads now)

/-- The next await of the work, or of the completion after the last call. -/
def working (videoId : UUID) (act : Activity) (f : Frame) (now : Time) : List Io → Option Phase
  | [] => complete videoId act f now
  | todo => some (.work f todo)

/-- What follows `claim_job` when the job is already completed. -/
def alreadyCompleted (videoId : UUID) (act : Activity) (video : Tracked Video) : Phase :=
  match act with
  | .extractMetadata =>
    match storedMetadata videoId video.current with
    | .ok m => .returned (some m)
    | .error e => .raised e
  | _ => .returned none

/-- What follows `claim_job` when it returned the job. -/
def claimed (videoId : UUID) (act : Activity) (f : Frame) : Phase :=
  let work := .work f (act.io videoId f.video.current.originalObjectKey)
  match act with
  | .transcode sourceHeight =>
    if sourceHeight ≤ 0 then .failJob f.failJob (noSourceHeight videoId sourceHeight) else work
  | _ => work

/-- The handler `except Exception`: `fail_job`, then `raise`. -/
def handle (f : Frame) (tx : Tx) (error : ActivityError) : Phase :=
  .failJob { f.failJob with tx := tx } error

/-- The rows and the S3 objects of one video. -/
structure Store where
  rows : VideoRows
  /-- keys of the generated objects in S3 -/
  objects : List Str

/-- Run an attempt from the await it is suspended in to its next one. `none`: the await cannot end
this way, or the attempt is over. -/
def Phase.step (videoId : UUID) (act : Activity) (st : Store) (ph : Phase) (ans : Answer) :
    Option (Store × Phase) :=
  match ph, ans with
  | .loadVideo, .ok _ =>
    match VideoProcessing.loadVideo videoId (some st.rows.video) with
    | .ok video => some (st, .selectJob video)
    | .error e => some (st, .raised e)
  | .loadVideo, .error => some (st, .raised .database)
  | .selectJob video, .ok now =>
    match st.rows.jobs act.jobType with
    | none => some (st, .insertJob video)
    | some job =>
      if job.status = .completed then some (st, alreadyCompleted videoId act video)
      else some (st, .commitClaim (claimJob now video (.fresh job)))
  | .selectJob _, .error => some (st, .raised .database)
  | .insertJob video, .ok now =>
    match st.rows.jobs act.jobType with
    | none =>
      let jobs := Function.update st.rows.jobs act.jobType (some ProcessingJob.new)
      some ({ st with rows := { st.rows with jobs := jobs } },
        .commitClaim (claimJob now video (.fresh ProcessingJob.new)))
    | some _ =>
      -- IntegrityError; the rollback expires `video`, whose `id` the fallback reads
      some (st, .raised .missingGreenlet)
  | .insertJob _, .error => some (st, .raised .database)
  | .commitClaim f, .ok _ =>
    if f.accepted st.rows then
      some ({ st with rows := f.commit act.jobType st.rows }, claimed videoId act f.committed)
    else none
  | .commitClaim _, .error => some (st, .raised .database)
  | .work f (io :: todo), .ok now =>
    match io with
    | .extractMetadata => none
    | .uploadFile assetType key =>
      let f' := { f with uploads := f.uploads ++ [(assetType, key)] }
      (working videoId act f' now todo).map ({ st with objects := key :: st.objects }, ·)
    | _ => (working videoId act f now todo).map (st, ·)
  | .work f (.extractMetadata :: todo), .probed m now =>
    (working videoId act { f with metadata := some m } now todo).map (st, ·)
  | .work f (_ :: _), .error => some (st, handle f .idle .io)
  | .selectAsset f ((assetType, key) :: todo), .ok _ =>
    some (st, completing (f.upsertAsset (st.rows.assets assetType) assetType key) todo)
  | .selectAsset f _, .error => some (st, handle f .broken .database)
  | .selectAsset f _, .noConnection =>
    if f.tx = .idle then some (st, handle f .idle .database) else none
  | .flush f, .ok _ => if f.accepted st.rows then some (st, .countCompleted f.flush) else none
  | .flush f, .error => some (st, handle f .broken .database)
  | .countCompleted f, .ok _ =>
    let view := f.flushed.apply act.jobType st.rows
    some (st, .commitCompletion (f.completeVideo (allJobsCompleted view)))
  | .countCompleted f, .error => some (st, handle f .broken .database)
  | .commitCompletion f, .ok _ =>
    if f.accepted st.rows then
      some ({ st with rows := f.commit act.jobType st.rows }, .returned f.metadata)
    else none
  | .commitCompletion f, .error => some (st, handle f .broken .database)
  | .failJob f error, .ok _ =>
    if f.tx = .broken then some (st, .raised .pendingRollback)
    else if f.accepted st.rows then
      some ({ st with rows := f.commit act.jobType st.rows }, .raised error)
    else none
  | .failJob f _, .error => if f.tx = .broken then none else some (st, .raised .database)
  | _, _ => none

/-! ## Row locks -/

/-- A row two attempts on one video may both update. -/
inductive RowLock where
  | video
  | job (t : JobType)
deriving DecidableEq

/-- The rows a transaction's statements lock until it ends. -/
def Writes.locks (t : JobType) (w : Writes) : List RowLock :=
  (if w.video = Writes.empty.video then [] else [.video]) ++
    (if w.job = Writes.empty.job then [] else [.job t])

/-- The locks of statements that are flushed and not yet committed. -/
def Phase.held (t : JobType) : Phase → List RowLock
  | .countCompleted f | .commitCompletion f => f.flushed.locks t
  | _ => []

/-- The locks the awaited statement needs. -/
def Phase.wanted (t : JobType) : Phase → List RowLock
  | .commitClaim f | .flush f | .commitCompletion f => f.pending.locks t
  -- a failed transaction sends nothing
  | .failJob f _ => if f.tx = .broken then [] else f.pending.locks t
  | _ => []

end VideoProcessing
