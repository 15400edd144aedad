import VideoProcessing.Worker.Resumes

/-!
# What a session holds at each await

The objects of an attempt's session have a fixed shape at each await, whatever other sessions do:
which attributes differ from the loaded row, and so which columns the next flush writes. `Shaped`
states it and `Resumes.shaped` that an attempt keeps it.
-/

namespace VideoProcessing

open Python UnitOfWork

/-! ## The shapes -/

/-- `claim_job` leaves a video processing or completed. -/
def VideoStatus.Claimed (status : VideoStatus) : Prop := status = .processing ∨ status = .completed

/-- The session at the last commit of `claim_job`. -/
def Frame.Claiming (f : Frame) : Prop :=
  ∃ now video job, job.status ≠ .completed ∧ f = claimJob now (.fresh video) (.fresh job)

/-- The session during the S3 and ffmpeg calls: what `claim_job` committed. -/
structure Frame.Working (f : Frame) : Prop where
  video : f.video.current = f.video.loaded
  videoStatus : f.video.loaded.status.Claimed
  job : f.job.current = f.job.loaded
  jobStatus : f.job.loaded.status = .processing
  assets : f.assets = []
  flushed : f.flushed = .empty
  tx : f.tx = .idle

/-- The columns of the video an activity sets when it completes. -/
def Activity.columns (act : Activity) (f : Frame) (row : Video) : Prop :=
  match act with
  | .extractMetadata => ∃ m, f.metadata = some m ∧
      row = { f.video.loaded with
        durationMs := some m.durationMs, width := some m.width, height := some m.height }
  | _ => row = f.video.loaded

/-- The session inside `complete_*_job`, before its flush. -/
structure Frame.Completing (act : Activity) (f : Frame) : Prop where
  video : act.columns f f.video.current
  videoStatus : f.video.loaded.status.Claimed
  jobStatus : f.job.loaded.status = .processing
  job : f.job.current =
    { f.job.loaded with status := .completed, completedAt := f.job.current.completedAt }
  flushed : f.flushed = .empty

/-- The session after the flush of `complete_*_job`. -/
structure Frame.Flushed (f : Frame) : Prop where
  /-- only the status may have changed since -/
  video : f.video.current = { f.video.loaded with status := f.video.current.status }
  videoStatus : f.video.loaded.status.Claimed
  status : f.video.current.status = f.video.loaded.status ∨ f.video.current.status = .completed
  job : f.job.current = f.job.loaded
  assets : ∀ asset ∈ f.assets, asset.2.current = asset.2.loaded
  flushedVideo : f.flushed.video.status = none
  flushedJob : f.flushed.job.status = some .completed

/-- The session at the commit of `fail_job`. -/
structure Frame.Failing (f : Frame) : Prop where
  video : f.video.current = { f.video.loaded with status := .failed }
  videoStatus : f.video.loaded.status.Claimed
  jobStatus : f.job.loaded.status = .processing
  /-- `completed_at` survives from an abandoned completion -/
  job : f.job.current =
    { f.job.loaded with status := .failed, completedAt := f.job.current.completedAt }
  assets : f.assets = []
  flushed : f.flushed = .empty

/-- The assets an activity uploads, with their keys. -/
def Activity.uploads (videoId : UUID) : Activity → List (AssetType × Str)
  | .extractMetadata => []
  | .generateThumbnail => [(.thumbnail, thumbnailKey videoId)]
  | .transcode sourceHeight => (renditionsForSourceHeight sourceHeight).map fun rendition =>
      (rendition.assetType, renditionKey videoId rendition)

/-- The uploads among the calls left. -/
def uploadsOf (todo : List Io) : List (AssetType × Str) :=
  todo.filterMap fun io => match io with
    | .uploadFile a key => some (a, key)
    | _ => none

/-- The key each asset object is about to store. -/
def Frame.assetKeys (f : Frame) : List (AssetType × Option Str) :=
  f.assets.map fun asset => (asset.1, asset.2.current)

/-- An activity has work to do. -/
def Activity.Usable : Activity → Prop
  | .transcode sourceHeight => 0 < sourceHeight
  | _ => True

/-- The shape of a session at each await. -/
def Phase.Shaped (videoId : UUID) (act : Activity) : Phase → Prop
  | .selectJob video | .insertJob video => video.current = video.loaded
  | .commitClaim f => f.Claiming
  | .work f todo => f.Working ∧ act.Usable ∧ f.uploads ++ uploadsOf todo = act.uploads videoId
  | .selectAsset f todo => f.Completing act ∧ act.Usable ∧ todo ≠ [] ∧
      (f.tx = .idle → f.assets = []) ∧
      f.assetKeys ++ todo.map (fun x => (x.1, some x.2)) =
        (act.uploads videoId).map fun x => (x.1, some x.2)
  | .flush f => f.Completing act ∧ act.Usable ∧
      f.assetKeys = (act.uploads videoId).map fun x => (x.1, some x.2)
  | .countCompleted f => f.Flushed ∧ f.video.current.status = f.video.loaded.status
  | .commitCompletion f => f.Flushed
  | .failJob f _ => f.tx ≠ .broken → f.Failing
  | _ => True

/-! ## One await to the next -/

/-- A claimed video is processing or completed. -/
theorem Video.claim_status (video : Video) : video.claim.status.Claimed := by
  rw [Video.claim]
  split
  · exact .inl rfl
  · exact .inr (not_not.mp ‹_›)

/-- `claim_job` changes no column of the video but its status. -/
theorem Video.claim_eq (video : Video) :
    video.claim = { video with status := video.claim.status } := by
  rw [Video.claim]
  split <;> rfl

/-- After its claim an attempt goes to work. -/
theorem Frame.Claiming.working {f : Frame} (h : f.Claiming) : f.committed.Working := by
  obtain ⟨now, video, job, -, rfl⟩ := h
  exact ⟨rfl, video.claim_status, rfl, rfl, rfl, rfl, rfl⟩

/-- Raising during the work leaves `fail_job` a session it can commit. -/
theorem Frame.Working.failing {f : Frame} (h : f.Working) (tx : Tx) :
    { f.failJob with tx := tx }.Failing where
  video := by simp only [Frame.failJob, Tracked.modify_current, Tracked.modify_loaded, h.video]
  videoStatus := h.videoStatus
  jobStatus := h.jobStatus
  job := by simp only [Frame.failJob, Tracked.modify_current, Tracked.modify_loaded, h.job]
  assets := h.assets
  flushed := h.flushed

/-- The list of uploads is a variable. -/
theorem Frame.Working.setUploads {f : Frame} (h : f.Working) (uploads : List (AssetType × Str)) :
    { f with uploads := uploads }.Working :=
  ⟨h.video, h.videoStatus, h.job, h.jobStatus, h.assets, h.flushed, h.tx⟩

/-- So is the metadata. -/
theorem Frame.Working.setProbe {f : Frame} (h : f.Working) (m : Option VideoMetadata) :
    { f with metadata := m }.Working :=
  ⟨h.video, h.videoStatus, h.job, h.jobStatus, h.assets, h.flushed, h.tx⟩

/-- The calls of an activity upload its assets. -/
theorem uploadsOf_io (videoId : UUID) (key : Str) (act : Activity) :
    uploadsOf (act.io videoId key) = act.uploads videoId := by
  cases act with
  | extractMetadata => rfl
  | generateThumbnail => rfl
  | transcode sourceHeight =>
    simp only [Activity.io, Activity.uploads, uploadsOf, List.filterMap_cons]
    induction renditionsForSourceHeight sourceHeight with
    | nil => rfl
    | cons rendition rest ih => simpa using ih

/-- Only uploads are listed. -/
theorem uploadsOf_cons {io : Io} (hupload : ∀ a key, io ≠ .uploadFile a key) (todo : List Io) :
    uploadsOf (io :: todo) = uploadsOf todo := by
  cases io with
  | uploadFile a key => exact absurd rfl (hupload a key)
  | downloadOriginal | extractMetadata | generateThumbnail | transcode => rfl

/-- What follows the claim has its shape. -/
theorem claimed_shaped {videoId : UUID} {act : Activity} {f : Frame} (h : f.Working)
    (huploads : f.uploads = []) : (claimed videoId act f).Shaped videoId act := by
  have hwork (huse : act.Usable) :
      (Phase.work f (act.io videoId f.video.current.originalObjectKey)).Shaped videoId act :=
    ⟨h, huse, by rw [uploadsOf_io, huploads, List.nil_append]⟩
  cases act with
  | transcode sourceHeight =>
    rw [claimed]
    split
    · exact fun _ => h.failing f.tx
    · exact hwork (not_le.mp ‹_›)
  | extractMetadata | generateThumbnail => exact hwork trivial

/-- The job is completed in the session. -/
theorem Frame.Working.completeJob {act : Activity} {f : Frame} (h : f.Working) (now : Time)
    (hact : act ≠ .extractMetadata) : (f.completeJob now).Completing act where
  video := by
    cases act with
    | extractMetadata => exact absurd rfl hact
    | generateThumbnail | transcode => exact h.video
  videoStatus := h.videoStatus
  jobStatus := h.jobStatus
  job := by simp only [Frame.completeJob, Tracked.modify_current, Tracked.modify_loaded, h.job]
  flushed := h.flushed

/-- So is the metadata job. -/
theorem Frame.Working.completeMetadata {f : Frame} (h : f.Working) (now : Time)
    {m : VideoMetadata} (hm : f.metadata = some m) :
    ((f.setMetadata m).completeJob now).Completing .extractMetadata where
  video := ⟨m, hm, by
    simp only [Frame.completeJob, Frame.setMetadata, Tracked.modify_current, h.video,
      Tracked.modify_loaded]⟩
  videoStatus := h.videoStatus
  jobStatus := h.jobStatus
  job := by
    simp only [Frame.completeJob, Frame.setMetadata, Tracked.modify_current, Tracked.modify_loaded,
      h.job]
  flushed := h.flushed

/-- A completion has its shape. -/
theorem completing_shaped {videoId : UUID} {act : Activity} {f : Frame}
    {todo : List (AssetType × Str)} (h : f.Completing act) (huse : act.Usable)
    (htx : f.tx = .idle → f.assets = [])
    (hassets : f.assetKeys ++ todo.map (fun x => (x.1, some x.2)) =
      (act.uploads videoId).map fun x => (x.1, some x.2)) :
    (completing f todo).Shaped videoId act := by
  cases todo with
  | nil => exact ⟨h, huse, by simpa using hassets⟩
  | cons x todo => exact ⟨h, huse, List.cons_ne_nil x todo, htx, hassets⟩

/-- So has its beginning. -/
theorem complete_shaped {videoId : UUID} {act : Activity} {f : Frame} {now : Time} {ph : Phase}
    (h : f.Working) (huse : act.Usable) (huploads : f.uploads = act.uploads videoId)
    (hph : complete videoId act f now = some ph) : ph.Shaped videoId act := by
  have hkeys : f.assetKeys = [] := by rw [Frame.assetKeys, h.assets, List.map_nil]
  cases act with
  | extractMetadata =>
    obtain ⟨m, hm, rfl⟩ := Option.map_eq_some_iff.mp hph
    exact completing_shaped (h.completeMetadata now hm) huse (fun _ => h.assets)
      (congrArg (· ++ []) hkeys)
  | generateThumbnail =>
    obtain rfl := Option.some.inj hph
    exact completing_shaped (h.completeJob now (by simp)) huse (fun _ => h.assets)
      (congrArg (· ++ [(AssetType.thumbnail, some (thumbnailKey videoId))]) hkeys)
  | transcode sourceHeight =>
    obtain rfl := Option.some.inj hph
    refine completing_shaped (h.completeJob now (by simp)) huse (fun _ => h.assets) ?_
    rw [huploads]
    exact congrArg (· ++ _) hkeys

/-- And the work. -/
theorem working_shaped {videoId : UUID} {act : Activity} {f : Frame} {now : Time}
    {todo : List Io} {ph : Phase} (h : f.Working) (huse : act.Usable)
    (huploads : f.uploads ++ uploadsOf todo = act.uploads videoId)
    (hph : working videoId act f now todo = some ph) : ph.Shaped videoId act := by
  cases todo with
  | nil =>
    refine complete_shaped h huse ?_ hph
    simpa [uploadsOf] using huploads
  | cons io todo =>
    obtain rfl := Option.some.inj hph
    exact ⟨h, huse, huploads⟩

/-- One more asset. -/
theorem Frame.Completing.upsertAsset {act : Activity} {f : Frame} (h : f.Completing act)
    (existing : Option Str) (a : AssetType) (key : Str) :
    (f.upsertAsset existing a key).Completing act where
  video := by
    cases act with
    | extractMetadata => exact h.video
    | generateThumbnail | transcode => exact h.video
  videoStatus := h.videoStatus
  jobStatus := h.jobStatus
  job := h.job
  flushed := h.flushed

/-- The status is not among the columns a completion sets before its count. -/
theorem Frame.Completing.status {act : Activity} {f : Frame} (h : f.Completing act) :
    f.video.current.status = f.video.loaded.status := by
  have hvideo := h.video
  cases act with
  | extractMetadata =>
    obtain ⟨m, -, hm⟩ := hvideo
    rw [hm]
  | generateThumbnail | transcode => exact congrArg Video.status hvideo

/-- The flush of a completion. -/
theorem Frame.Completing.flush {act : Activity} {f : Frame} (h : f.Completing act) :
    f.flush.Flushed where
  video := rfl
  videoStatus := by
    simp only [Frame.flush, Tracked.flushed_loaded, h.status]
    exact h.videoStatus
  status := .inl rfl
  job := rfl
  assets := by
    simp only [Frame.flush, List.mem_map, forall_exists_index, and_imp, forall_apply_eq_imp_iff₂,
      Tracked.flushed_current, Tracked.flushed_loaded, implies_true]
  flushedVideo := by
    simp only [Frame.flush, Frame.pending, dirtyVideo, dirty_eq_none, h.status]
  flushedJob := by
    simp only [Frame.flush, Frame.pending, dirtyJob]
    rw [h.job, h.jobStatus]
    rfl

/-- After the count the video may be completed. -/
theorem Frame.Flushed.completeVideo {f : Frame} (h : f.Flushed) (all : Bool) :
    (f.completeVideo all).Flushed := by
  cases all with
  | false => exact h
  | true =>
    refine ⟨?_, h.videoStatus, .inr rfl, h.job, h.assets, h.flushedVideo, h.flushedJob⟩
    simp only [Frame.completeVideo, if_true, Tracked.modify_current, Tracked.modify_loaded]
    rw [h.video]

/-- Without a connection `_upsert_asset` leaves no asset behind, and no column but the status of
the video is changed. -/
theorem Frame.Completing.failing {act : Activity} {f : Frame} (h : f.Completing act)
    (hact : act ≠ .extractMetadata) (hassets : f.assets = []) (tx : Tx) :
    { f.failJob with tx := tx }.Failing where
  video := by
    have hvideo := h.video
    cases act with
    | extractMetadata => exact absurd rfl hact
    | generateThumbnail | transcode =>
      simp only [Frame.failJob, Tracked.modify_current, Tracked.modify_loaded]
      rw [hvideo]
  videoStatus := h.videoStatus
  jobStatus := h.jobStatus
  job := by
    simp only [Frame.failJob, Tracked.modify_current, Tracked.modify_loaded]
    rw [h.job]
  assets := hassets
  flushed := h.flushed

/-- Only the activities with assets select any. -/
theorem Activity.ne_extractMetadata_of_uploads {videoId : UUID} {act : Activity}
    (h : act.uploads videoId ≠ []) : act ≠ .extractMetadata := by
  rintro rfl
  exact h rfl

/-- An attempt keeps the shape of its session. -/
theorem Resumes.shaped {videoId : UUID} {act : Activity} {st st' : Store} {ph ph' : Phase}
    {ans : Answer} (h : Resumes videoId act st ph ans st' ph') (hph : ph.Shaped videoId act) :
    ph'.Shaped videoId act := by
  cases h with
  | load => rfl
  | selectNone => exact hph
  | selectCompleted =>
    cases act with
    | extractMetadata =>
      simp only [alreadyCompleted]
      split <;> trivial
    | generateThumbnail | transcode => trivial
  | @selectJob now video job _ hstatus =>
    exact ⟨now, video.loaded, job, hstatus, congrArg (claimJob now · _) (Tracked.eq_fresh hph)⟩
  | @insert now video =>
    exact ⟨now, video.loaded, .new, by decide, congrArg (claimJob now · _) (Tracked.eq_fresh hph)⟩
  | commitClaim =>
    -- the frame that was committed is what the work begins with
    refine claimed_shaped hph.working ?_
    obtain ⟨_, _, _, -, rfl⟩ := hph
    rfl
  | call hprobe hupload hnext =>
    obtain ⟨hf, huse, huploads⟩ := hph
    exact working_shaped hf huse (by rw [← huploads, uploadsOf_cons hupload]) hnext
  | probe hnext =>
    obtain ⟨hf, huse, huploads⟩ := hph
    refine working_shaped (hf.setProbe _) huse ?_ hnext
    exact huploads
  | upload hnext =>
    obtain ⟨hf, huse, huploads⟩ := hph
    refine working_shaped (hf.setUploads _) huse ?_ hnext
    -- the asset moves from the uploads to come to those done
    rw [← huploads, List.append_assoc]
    rfl
  | workFails => exact fun _ => hph.1.failing .idle
  | @selectAsset _ f a key todo =>
    obtain ⟨hf, huse, -, -, hkeys⟩ := hph
    refine completing_shaped (hf.upsertAsset _ a key) huse (fun htx => by cases htx) ?_
    rw [← hkeys]
    simp [Frame.assetKeys, Frame.upsertAsset]
  | flush =>
    obtain ⟨hf, -, -⟩ := hph
    exact ⟨hf.flush, rfl⟩
  | countCompleted => exact hph.1.completeVideo _
  | completionFails => exact fun htx => absurd rfl htx
  | noConnection htx =>
    obtain ⟨hf, -, htodo, hassets, hkeys⟩ := hph
    -- an asset is still to be looked for, so the activity is one that uploads
    have hne : act.uploads videoId ≠ [] := by
      intro hnil
      rw [hnil, List.map_nil, List.append_eq_nil_iff, List.map_eq_nil_iff] at hkeys
      exact htodo hkeys.2
    exact fun _ => hf.failing (Activity.ne_extractMetadata_of_uploads hne) (hassets htx) .idle
  | insertLost | giveUp | commitCompletion | failJobBroken | failJob | failJobFails => trivial

end VideoProcessing
