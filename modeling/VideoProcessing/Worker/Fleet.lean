import VideoProcessing.Api.Videos
import VideoProcessing.Worker.Attempts

/-!
# The attempts of many videos

A fleet is the rows and the attempts of all videos. Attempts on different videos meet in one place,
`UNIQUE(object_key)` on `generated_assets`. A journal beside the fleet keeps the S3, ffprobe and
ffmpeg calls that have returned.
-/

namespace VideoProcessing

open Python UnitOfWork Transitions

variable {p p' : Pool} {l : PoolLabel}

/-- A step leaves the video's id alone. -/
theorem Pool.step_videoId (h : p.step l = some p') : p'.videoId = p.videoId := by
  cases l with
  | begin act =>
    obtain rfl := Option.some.inj h
    rfl
  | resume i ans => exact Pool.resume_videoId h
  | vanish i =>
    obtain ⟨_, -, rfl⟩ := Pool.vanish_eq_some h
    rfl

/-- The videos, each with its attempts. -/
structure Fleet where
  videos : List Pool
  /-- the primary key of `videos` -/
  ids : (videos.map Pool.videoId).Nodup

inductive FleetLabel where
  /-- `create_video` -/
  | create (videoId : UUID) (filename originalObjectKey : Str)
  /-- a step of the attempts on video `v` -/
  | attempt (v : ℕ) (l : PoolLabel)
deriving DecidableEq

/-- The asset objects the awaited flush sends. -/
def Pool.flushes (p : Pool) : PoolLabel → List (AssetType × Str)
  | .resume i (.ok _) =>
    match p.attempts[i]?.map Attempt.phase with
    | some (.flush f) => f.pending.assets
    | _ => []
  | _ => []

/-- A flush of an attempt on video `v` violates `UNIQUE(object_key)` with an asset of another
video. -/
def Fleet.collides (fl : Fleet) (v : ℕ) (p : Pool) (l : PoolLabel) : Bool :=
  (p.flushes l).any fun asset => (fl.videos.eraseIdx v).any fun q =>
    AssetType.members.any fun a => q.rows.assets a = some asset.2

/-- So does a step of the fleet. -/
theorem map_videoId_set {videos : List Pool} {v : ℕ} (hp : videos[v]? = some p)
    (hid : p'.videoId = p.videoId) :
    (videos.set v p').map Pool.videoId = videos.map Pool.videoId := map_set_of_eq hp hid

def Fleet.attempt (fl : Fleet) (v : ℕ) (l : PoolLabel) : Option Fleet :=
  match hp : fl.videos[v]? with
  | none => none
  | some p =>
    if fl.collides v p l then none
    else match hstep : p.step l with
      | none => none
      | some p' => some ⟨fl.videos.set v p', by
          rw [map_videoId_set hp (Pool.step_videoId hstep)]
          exact fl.ids⟩

def Fleet.create (fl : Fleet) (videoId : UUID) (filename originalObjectKey : Str) : Option Fleet :=
  if h : videoId ∈ fl.videos.map Pool.videoId then none
  else some ⟨fl.videos ++ [.created videoId filename originalObjectKey], by
    rw [List.map_append]
    exact List.nodup_append.mpr ⟨fl.ids, List.nodup_singleton _, by
      rintro id hid _ hmem rfl
      obtain rfl : id = videoId := List.mem_singleton.mp hmem
      exact h hid⟩⟩

def Fleet.step (fl : Fleet) : FleetLabel → Option Fleet
  | .create videoId filename originalObjectKey => fl.create videoId filename originalObjectKey
  | .attempt v l => fl.attempt v l

/-- No videos yet. -/
def Fleet.empty : Fleet := ⟨[], List.nodup_nil⟩

/-- The rows of `generated_assets`: `video_id`, `asset_type`, `object_key`. -/
def Fleet.generatedAssets (fl : Fleet) : List (UUID × AssetType × Str) :=
  fl.videos.flatMap fun p => p.rows.assetRows.map fun asset => (p.videoId, asset)

/-! ## The journal -/

/-- A call that has returned to attempt `attempt` on the video. -/
structure Call where
  videoId : UUID
  attempt : ℕ
  io : Io
deriving DecidableEq

/-- The calls that have returned, oldest first. -/
abbrev Journal := List Call

/-- The call an await makes, if it returns. -/
def Phase.call? : Phase → Answer → List Io
  | .work _ (io :: _), .ok _ | .work _ (io :: _), .probed _ _ => [io]
  | _, _ => []

/-- The calls that return at a step. -/
def Pool.calls (p : Pool) : PoolLabel → Journal
  | .resume i ans => (p.attempts[i]?.elim [] fun a => a.phase.call? ans).map fun io =>
      ⟨p.videoId, i, io⟩
  | _ => []

def Fleet.record (fl : Fleet) (l : FleetLabel) (journal : Journal) : Journal :=
  match l with
  | .create _ _ _ => journal
  | .attempt v l => journal ++ fl.videos[v]?.elim [] fun p => p.calls l

/-- The calls that have returned to one attempt. -/
def Journal.of (journal : Journal) (videoId : UUID) (i : ℕ) : List Io :=
  (journal.filter fun call => call.videoId = videoId ∧ call.attempt = i).map Call.io

variable {fl fl' : Fleet} {journal : Journal} {videoId : UUID} {i v : ℕ}

/-- The calls of an attempt, one journal after the other. -/
theorem Journal.of_append (journal journal' : Journal) (videoId : UUID) (i : ℕ) :
    Journal.of (journal ++ journal') videoId i =
      journal.of videoId i ++ Journal.of journal' videoId i := by
  simp [Journal.of]

/-- A step of the attempts on one video. -/
theorem Fleet.attempt_eq_some (h : fl.attempt v l = some fl') :
    ∃ p p', fl.videos[v]? = some p ∧ fl.collides v p l = false ∧ p.step l = some p' ∧
      fl'.videos = fl.videos.set v p' := by
  unfold Fleet.attempt at h
  split at h
  · cases h
  · rename_i p hp
    rw [Option.ite_none_left_eq_some] at h
    obtain ⟨hcollides, h⟩ := h
    split at h
    · cases h
    · rename_i p' hstep
      obtain rfl := Option.some.inj h
      exact ⟨p, p', hp, by simpa using hcollides, hstep, rfl⟩

/-- A video with a new id is added. -/
theorem Fleet.create_eq_some {filename key : Str}
    (h : fl.create videoId filename key = some fl') :
    videoId ∉ fl.videos.map Pool.videoId ∧
      fl'.videos = fl.videos ++ [.created videoId filename key] := by
  unfold Fleet.create at h
  split at h
  · cases h
  · rename_i hid
    obtain rfl := Option.some.inj h
    exact ⟨hid, rfl⟩

end VideoProcessing
