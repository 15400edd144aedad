import VideoProcessing.Library.Script
import VideoProcessing.Worker.Activities
import VideoProcessing.Worker.Processing

/-!
# The activities as they are written

`worker/activities.py` with the functions of `jobs.py`, `processing.py` and `transcode.py` it calls,
as programs: the `async with` and `with` blocks, the `try` with its handler, and what a cancellation
does at each await, those of the exits of the blocks included. `Worker/Activities` has the same code
cut at its awaits.
-/

namespace VideoProcessing

open Python UnitOfWork Coroutine

/-! ## Awaited operations -/

/-- What an activity holds besides memory. -/
inductive Resource where
  | session
  | workDir
  | s3Client
  /-- a child process that is running -/
  | child
deriving DecidableEq

/-- What ends an await, or a block, early. -/
inductive Interrupt where
  /-- an `Exception` -/
  | error (e : ActivityError)
  /-- `asyncio.CancelledError`, which is none -/
  | cancelled
  /-- an `Exception` of the session's `close`, when the code of the activity is over -/
  | closing
deriving DecidableEq

/-- A command line. -/
inductive Subprocess where
  | ffprobe
  | thumbnail
  | transcode (rendition : Rendition)
deriving DecidableEq

inductive Awaitable where
  /-- `db.get(Video, video_id)` -/
  | getVideo
  /-- `processing_job_repository.get_by_video_and_type` -/
  | selectJob (t : JobType)
  /-- the commit of a new job row -/
  | insertJob (t : JobType)
  | commit (t : JobType) (f : Frame)
  /-- entering `tempfile.TemporaryDirectory()`, which can raise but is no await -/
  | makeDir
  /-- leaving it, which is none either -/
  | removeDir
  /-- entering `get_async_s3_client()` -/
  | openClient
  /-- leaving it -/
  | closeClient
  /-- leaving `SessionFactory()` -/
  | closeSession
  | download (key : Str)
  /-- `asyncio.create_subprocess_exec` -/
  | spawn (command : Subprocess)
  | upload (assetType : AssetType) (key : Str)
  /-- `generated_asset_repository.get_by_video_and_type` -/
  | selectAsset (tx : Tx) (assetType : AssetType)
  /-- the flush of `count_completed_for_video` -/
  | flush (t : JobType) (f : Frame)
  /-- its count -/
  | countCompleted (t : JobType) (f : Frame)
deriving DecidableEq

/-- What a call returns. -/
def Awaitable.Value : Awaitable → Type
  | .getVideo => Option Video
  | .selectJob _ => Option ProcessingJob
  -- whether the row is inserted, or the commit raises `IntegrityError`
  | .insertJob _ => Bool
  | .selectAsset .. => Option Str
  | .countCompleted .. => Bool
  | _ => Unit

/-- How a call ends. -/
inductive CallEnd (α : Type) where
  | ok (value : α) (now : Time)
  /-- it raises; `breaks` says that the open transaction has failed -/
  | raised (e : ActivityError) (breaks : Bool)
  | cancelled

/-- How `process.communicate()` ends. -/
inductive Exit where
  | exited (returncode : ℤ) (stdout : Str) (now : Time)
  /-- `gone` says that the loop has seen the child's exit already -/
  | cancelled (gone : Bool)

inductive Operation where
  | call (c : Awaitable)
  | communicate (command : Subprocess)
  /-- `process.wait()` of a killed process -/
  | wait
deriving DecidableEq

def Operation.Reply : Operation → Type
  | .call c => CallEnd c.Value
  | .communicate _ => Exit
  | .wait => Unit

/-- The local variables of an activity that has claimed its job, and the time its last await
ended. -/
structure Locals where
  frame : Frame
  now : Time

/-- An activity up to its claim, of which only the clock matters later. -/
abbrev Opening (α : Type) : Type := Routine Interrupt Time Operation.Reply Resource α

/-- An activity from its claim on. -/
abbrev Working (α : Type) : Type := Routine Interrupt Locals Operation.Reply Resource α

/-- The end of a call, where nothing is kept but the time. -/
def CallEnd.open {α : Type} (start : Time) : CallEnd α → Except Interrupt α × Time
  | .ok value now => (.ok value, now)
  | .raised e _ => (.error (.error e), start)
  | .cancelled => (.error .cancelled, start)

/-- `await` before the claim. -/
def Opening.await (c : Awaitable) : Opening c.Value :=
  ExceptT.mk fun start => .await (.call c) fun outcome => .done (outcome.open start)

/-- `await` at the end of the session. -/
def Opening.close : Opening Unit :=
  ExceptT.mk fun start => .await (.call .closeSession) fun
    | .raised _ _ => .done (.error .closing, start)
    | outcome => .done (outcome.open start)

/-- The end of a call inside a session, which notes that its transaction has failed. -/
def CallEnd.resume {α : Type} (x : Locals) : CallEnd α → Except Interrupt α × Locals
  | .ok value now => (.ok value, { x with now := now })
  | .raised e breaks => (.error (.error e),
      if breaks then { x with frame := { x.frame with tx := .broken } } else x)
  | .cancelled => (.error .cancelled, x)

/-- `await` after the claim. -/
def Working.await (c : Awaitable) : Working c.Value :=
  ExceptT.mk fun x => .await (.call c) fun outcome => .done (outcome.resume x)

/-- Assignments to attributes and variables. -/
def Working.assign (g : Frame → Frame) : Working Unit :=
  modify fun x => { x with frame := g x.frame }

/-- What an activity holds while it awaits an operation. -/
def Operation.resources : Operation → List Resource
  | .communicate _ => [.child, .s3Client, .workDir, .session]
  | .wait => [.s3Client, .workDir, .session]
  | .call (.download _) | .call (.spawn _) | .call (.upload ..) | .call .closeClient =>
    [.s3Client, .workDir, .session]
  | .call .openClient | .call .removeDir => [.workDir, .session]
  | .call _ => [.session]

/-! ## `jobs.py` -/

/-- The last commit of `claim_job`. -/
def commitClaim (t : JobType) (f : Frame) : Opening (Option Frame) := do
  Opening.await (.commit t f)
  return some f.committed

/-- `claim_job`; after the claim its session is a `Frame`. -/
def claimJobScript (t : JobType) (video : Tracked Video) : Opening (Option Frame) := do
  match ← Opening.await (.selectJob t) with
  | some job =>
    if job.status = .completed then return none
    else commitClaim t (claimJob (← get) video (.fresh job))
  | none =>
    let inserted : Bool ← Opening.await (.insertJob t)
    if inserted then commitClaim t (claimJob (← get) video (.fresh ProcessingJob.new))
    else
      -- the rollback expires `video`, whose `id` the fallback reads
      throw (.error .missingGreenlet)

/-- `_all_jobs_completed`. -/
def allJobsCompletedScript (t : JobType) : Working Bool := do
  Working.await (.flush t (← get).frame)
  Working.assign Frame.flush
  Working.await (.countCompleted t (← get).frame)

/-- `_upsert_asset`. -/
def upsertAssetScript (assetType : AssetType) (key : Str) : Working Unit := do
  let existing ← Working.await (.selectAsset (← get).frame.tx assetType)
  Working.assign (·.upsertAsset existing assetType key)

/-- `db.commit()`. -/
def commitScript (t : JobType) : Working Unit := do
  Working.await (.commit t (← get).frame)
  Working.assign Frame.committed

/-- How every `complete_*_job` ends. -/
def completeVideoScript (t : JobType) : Working Unit := do
  let allCompleted ← allJobsCompletedScript t
  Working.assign (·.completeVideo allCompleted)
  commitScript t

/-- The assignments to the job of every `complete_*_job`. -/
def completeJobScript : Working Unit := do
  let now := (← get).now
  Working.assign (·.completeJob now)

/-- `complete_metadata_job`. -/
def completeMetadataJobScript (metadata : VideoMetadata) : Working Unit := do
  Working.assign (·.setMetadata metadata)
  completeJobScript
  completeVideoScript .metadata

/-- `complete_thumbnail_job`. -/
def completeThumbnailJobScript (key : Str) : Working Unit := do
  completeJobScript
  upsertAssetScript .thumbnail key
  completeVideoScript .thumbnail

/-- `complete_transcode_job`. -/
def completeTranscodeJobScript (renditions : List (AssetType × Str)) : Working Unit := do
  completeJobScript
  renditions.forM fun (assetType, key) => upsertAssetScript assetType key
  completeVideoScript .transcode

/-- `fail_job`. -/
def failJobScript (t : JobType) : Working Unit := do
  Working.assign Frame.failJob
  commitScript t

/-! ## `processing.py` and `transcode.py` -/

/-- `process.communicate()` and the handler that kills the child when it is cancelled. The kill of a
child that is gone raises `ProcessLookupError`, an `Exception` in the place of the cancellation. -/
def communicate (command : Subprocess) : Working (ℤ × Str) :=
  ExceptT.mk fun x => .acquire .child <| .await (.communicate command) fun
    | .exited returncode stdout now =>
      .release .child <| .done (.ok (returncode, stdout), { x with now := now })
    | .cancelled false => .release .child <| .await .wait fun _ => .done (.error .cancelled, x)
    | .cancelled true => .release .child <| .done (.error (.error .io), x)

/-- `_run`. -/
def run (command : Subprocess) : Working Str := do
  Working.await (.spawn command)
  let (returncode, stdout) ← communicate command
  if returncode ≠ 0 then throw (.error .io) else return stdout

/-- `extract_metadata`. -/
def extractMetadataScript (decimal : ℕ → Option ℕ) : Working VideoMetadata := do
  match probed? decimal (← run .ffprobe) with
  | some metadata =>
    Working.assign ({ · with metadata := some metadata })
    return metadata
  | none => throw (.error .io)

/-- `generate_thumbnail`. -/
def generateThumbnailScript : Working Unit := do
  let _ ← run .thumbnail

/-- `transcode`. -/
def transcodeScript (rendition : Rendition) : Working Unit := do
  let _ ← run (.transcode rendition)

/-! ## `activities.py` -/

/-- `_load_video`. -/
def loadVideoScript (videoId : UUID) : Opening (Tracked Video) := do
  match loadVideo videoId (← Opening.await .getVideo) with
  | .ok video => return video
  | .error e => throw (.error e)

/-- `s3.upload_file`, and the asset in the list of those uploaded. -/
def uploadScript (assetType : AssetType) (key : Str) : Working Unit := do
  Working.await (.upload assetType key)
  Working.assign fun f => { f with uploads := f.uploads ++ [(assetType, key)] }

/-- The handler `except Exception`, which lets a cancellation through. The session is closed outside
of it. -/
def guarded {α : Type} (t : JobType) (body : Working α) : Working α :=
  tryCatch body fun
    | .cancelled => throw .cancelled
    | .closing => throw .closing
    | .error e => do
      failJobScript t
      throw (.error e)

/-- The temporary directory and the S3 client around the work, which starts with
`_download_original`. -/
def inWorkDir {α : Type} (work : Working α) : Working α := do
  Working.await .makeDir
  Routine.closing .workDir (Working.await .removeDir) do
    Working.await .openClient
    Routine.closing .s3Client (Working.await .closeClient) do
      Working.await (.download (← get).frame.video.current.originalObjectKey)
      work

/-- `extract_metadata_activity`. -/
def extractMetadataActivity (decimal : ℕ → Option ℕ) (videoId : UUID) :
    Opening (Option VideoMetadata) :=
  Routine.closing .session Opening.close do
    let video ← loadVideoScript videoId
    match ← claimJobScript .metadata video with
    | none =>
      match storedMetadata videoId video.current with
      | .ok metadata => return some metadata
      | .error e => throw (.error e)
    | some f => Routine.within ⟨f, ← get⟩ do
      let metadata ← guarded .metadata do
        let metadata ← inWorkDir (extractMetadataScript decimal)
        completeMetadataJobScript metadata
        return metadata
      return some metadata

/-- `generate_thumbnail_activity`. -/
def generateThumbnailActivity (videoId : UUID) : Opening (Option VideoMetadata) :=
  Routine.closing .session Opening.close do
    let video ← loadVideoScript videoId
    match ← claimJobScript .thumbnail video with
    | none => return none
    | some f => Routine.within ⟨f, ← get⟩ do
      guarded .thumbnail do
        inWorkDir do
          generateThumbnailScript
          uploadScript .thumbnail (thumbnailKey videoId)
        completeThumbnailJobScript (thumbnailKey videoId)
      return none

/-- `transcode_activity`. -/
def transcodeActivity (videoId : UUID) (sourceHeight : ℤ) : Opening (Option VideoMetadata) :=
  Routine.closing .session Opening.close do
    let video ← loadVideoScript videoId
    match ← claimJobScript .transcode video with
    | none => return none
    | some f => Routine.within ⟨f, ← get⟩ do
      if sourceHeight ≤ 0 then
        failJobScript .transcode
        throw (.error (noSourceHeight videoId sourceHeight))
      else
        guarded .transcode do
          inWorkDir do
            (renditionsForSourceHeight sourceHeight).forM fun rendition => do
              transcodeScript rendition
              uploadScript rendition.assetType (renditionKey videoId rendition)
          completeTranscodeJobScript (← get).frame.uploads
        return none

/-- The activity function. -/
def Activity.script (decimal : ℕ → Option ℕ) (videoId : UUID) :
    Activity → Opening (Option VideoMetadata)
  | .extractMetadata => extractMetadataActivity decimal videoId
  | .generateThumbnail => generateThumbnailActivity videoId
  | .transcode sourceHeight => transcodeActivity videoId sourceHeight

end VideoProcessing
