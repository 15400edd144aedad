import VideoProcessing.Common.Models

/-!
# Reading a video

`GET /videos/{video_id}` of `api/routes/videos.py` over what its two reads return: the row of the
video, then the list of its assets. `presign` stands for S3's presigned URLs.
-/

namespace VideoProcessing

open Python

/-- `GeneratedAssetResponse`. -/
structure GeneratedAssetResponse where
  type : AssetType
  downloadUrl : Str
  expiresAt : Time
deriving DecidableEq

/-- `GetVideoResponse`. -/
structure GetVideoResponse where
  id : UUID
  filename : Str
  status : VideoStatus
  metadata : Option VideoMetadata
  assets : List GeneratedAssetResponse
deriving DecidableEq

/-- The metadata of a response, present when no column is null. -/
def responseMetadata (video : Video) : Option VideoMetadata :=
  match video.durationMs, video.width, video.height with
  | some durationMs, some width, some height => some ⟨durationMs, width, height⟩
  | _, _, _ => none

/-- `get_asset_downloads` for the assets `list_for_video` returned, and the response's list. -/
def getAssetDownloads (presign : Str → Str × Time) (assets : List (AssetType × Str)) :
    List GeneratedAssetResponse :=
  assets.map fun asset =>
    let (downloadUrl, expiresAt) := presign asset.2
    ⟨asset.1, downloadUrl, expiresAt⟩

/-- `get_video`. -/
def getVideo (presign : Str → Str × Time) (videoId : UUID) (video : Video)
    (assets : List (AssetType × Str)) : GetVideoResponse where
  id := videoId
  filename := video.filename
  status := video.status
  metadata := responseMetadata video
  assets := getAssetDownloads presign assets

/-- The rows of `generated_assets`; a select may return them in any order. -/
def VideoRows.assetRows (rows : VideoRows) : List (AssetType × Str) :=
  AssetType.members.filterMap fun a => (rows.assets a).map (a, ·)

/-- Every asset is listed, in the order it was read in. -/
theorem getAssetDownloads_types (presign : Str → Str × Time) (assets : List (AssetType × Str)) :
    (getAssetDownloads presign assets).map GeneratedAssetResponse.type = assets.map Prod.fst := by
  simp only [getAssetDownloads, List.map_map]
  rfl

/-- The asset rows are those stored under the video. -/
theorem VideoRows.mem_assetRows {rows : VideoRows} {a : AssetType} {key : Str} :
    (a, key) ∈ rows.assetRows ↔ rows.assets a = some key := by
  simp only [VideoRows.assetRows, List.mem_filterMap, Option.map_eq_some_iff, Prod.mk.injEq]
  constructor
  · rintro ⟨_, -, _, hkey, rfl, rfl⟩
    exact hkey
  · intro hkey
    exact ⟨a, a.mem_members, key, hkey, rfl, rfl⟩

/-- A type is among the rows if an asset of it is stored. -/
theorem VideoRows.mem_assetRows_types {rows : VideoRows} {a : AssetType} :
    a ∈ rows.assetRows.map Prod.fst ↔ (rows.assets a).isSome := by
  simp only [List.mem_map, Prod.exists, exists_and_right, exists_eq_right, mem_assetRows,
    Option.isSome_iff_exists]

/-- One row per asset type. -/
theorem VideoRows.nodup_assetRows_types (rows : VideoRows) :
    (rows.assetRows.map Prod.fst).Nodup := by
  have hsub : (rows.assetRows.map Prod.fst).Sublist AssetType.members := by
    rw [VideoRows.assetRows]
    induction AssetType.members with
    | nil => exact .slnil
    | cons a as ih =>
      cases hkey : rows.assets a with
      | none => simpa [hkey] using ih.cons a
      | some key => simpa [hkey] using ih.cons_cons a
  have hnodup : AssetType.members.Nodup := by decide
  exact hnodup.sublist hsub

end VideoProcessing
