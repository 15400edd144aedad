import VideoProcessing.Common.Models

/-!
# The rendition ladder

`worker/transcode.py`: the renditions a source of a given height gets, and the S3 keys of the
generated assets.
-/

namespace VideoProcessing

open Python

structure Rendition where
  assetType : AssetType
  height : ℤ
  bitrateKbps : ℕ
deriving DecidableEq

/-- `_RENDITIONS`, largest to smallest. -/
def renditions : List Rendition :=
  [⟨.preview1080p, 1080, 5000⟩, ⟨.preview720p, 720, 2500⟩, ⟨.preview480p, 480, 1000⟩]

/-- `renditions_for_source_height`. -/
def renditionsForSourceHeight (sourceHeight : ℤ) : List Rendition :=
  renditions.filter fun rendition => rendition.height < sourceHeight

/-- The rungs a source gets are those strictly below its height. -/
theorem mem_renditionsForSourceHeight {rendition : Rendition} {h : ℤ} :
    rendition ∈ renditionsForSourceHeight h ↔ rendition ∈ renditions ∧ rendition.height < h := by
  simp [renditionsForSourceHeight]

example : (renditionsForSourceHeight 1080).map Rendition.assetType =
    [.preview720p, .preview480p] := by decide

/-- `assets/{video_id}/thumbnail.jpg`. -/
def thumbnailKey (videoId : UUID) : Str := str "assets/" ++ videoId.str ++ str "/thumbnail.jpg"

/-- `assets/{video_id}/{rendition.asset_type.value}.mp4`. -/
def renditionKey (videoId : UUID) (rendition : Rendition) : Str :=
  str "assets/" ++ videoId.str ++ str "/" ++ rendition.assetType.value ++ str ".mp4"

/-- The asset types a video whose source has this height ends up with. -/
def expectedAssets (sourceHeight : ℤ) : List AssetType :=
  .thumbnail :: (renditionsForSourceHeight sourceHeight).map Rendition.assetType

/-- The key each asset type is stored under. -/
def assetKey (videoId : UUID) : AssetType → Str
  | .thumbnail => thumbnailKey videoId
  | t => str "assets/" ++ videoId.str ++ str "/" ++ t.value ++ str ".mp4"

/-- No rung of the ladder is a thumbnail. -/
theorem assetType_ne_thumbnail {h : ℤ} {rendition : Rendition}
    (hr : rendition ∈ renditionsForSourceHeight h) : rendition.assetType ≠ .thumbnail := by
  have hall : ∀ r ∈ renditions, r.assetType ≠ .thumbnail := by decide
  exact hall rendition (mem_renditionsForSourceHeight.mp hr).1

/-- A rung is stored under the key of its asset type. -/
theorem renditionKey_eq (videoId : UUID) {h : ℤ} {rendition : Rendition}
    (hr : rendition ∈ renditionsForSourceHeight h) :
    renditionKey videoId rendition = assetKey videoId rendition.assetType := by
  have hne := assetType_ne_thumbnail hr
  rcases rendition with ⟨t, _, _⟩
  cases t with
  | thumbnail => exact absurd rfl hne
  | preview1080p | preview720p | preview480p => rfl

/-- A video should have a thumbnail, and a preview for each rung strictly below its height. -/
theorem mem_expectedAssets {a : AssetType} {h : ℤ} : a ∈ expectedAssets h ↔
    a = .thumbnail ∨ ∃ r ∈ renditions, r.height < h ∧ a = r.assetType := by
  simp only [expectedAssets, List.mem_cons, List.mem_map, mem_renditionsForSourceHeight, and_assoc,
    eq_comm (a := a) (b := Rendition.assetType _)]

/-- The rungs have distinct asset types. -/
theorem expectedAssets_nodup (h : ℤ) : (expectedAssets h).Nodup := by
  refine List.nodup_cons.mpr ⟨?_, ?_⟩
  · intro hmem
    obtain ⟨r, hr, heq⟩ := List.mem_map.mp hmem
    exact assetType_ne_thumbnail hr heq
  · have hnodup : (renditions.map Rendition.assetType).Nodup := by decide
    exact hnodup.sublist (List.Sublist.map _ List.filter_sublist)

end VideoProcessing
