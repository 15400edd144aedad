import VideoProcessing.Platform.Stored

/-!
# What readers of a completed video find

With an original whose ffprobe result does not change, the two reads of `GET /videos/{id}` agree
whenever the first one says completed: the metadata is that result, and the assets are the
thumbnail and the ladder below its height.

The two reads are separate transactions, so a commit may come between them. What is completed in the
first is by the invariant complete in every later snapshot, and that is what the second one sees.
-/

namespace VideoProcessing

open Python UnitOfWork Transitions

/-- ffprobe always reports `M`. -/
def Readings.of (M : VideoMetadata) : Readings := fun c v => v = M.column c

/-- The label does not report anything else. -/
def Label.probes (M : VideoMetadata) : Label → Bool
  | .resume _ (.probed m _) => m = M
  | _ => true

abbrev Label.Probes (M : VideoMetadata) (_ : State) (l : Label) : Prop := l.probes M = true

variable {M : VideoMetadata} {videoId : UUID} {rows : VideoRows} {s s' : State} {l : Label}

/-- Such a label is one of these readings. -/
theorem Label.Probes.reports (h : l.Probes M s) : (Readings.of M).Reports l := by
  cases l with
  | resume i ans =>
    cases ans with
    | probed m now =>
      obtain rfl : m = M := of_decide_eq_true h
      exact fun _ => rfl
    | ok | error | noConnection => trivial
  | _ => trivial

/-- The rows have everything a completed video needs. -/
def VideoRows.Full (M : VideoMetadata) (videoId : UUID) (rows : VideoRows) : Prop :=
  ∀ t, (Readings.of M).Stored videoId t rows

/-- The transcode was completed with the height of the original. -/
theorem VideoRows.Full.height_pos (h : rows.Full M videoId) : 0 < M.height := by
  obtain ⟨act, hact, hsuits, hstored⟩ := h .transcode
  cases act with
  | transcode sourceHeight =>
    obtain rfl : sourceHeight = M.height := hsuits
    exact hstored.usable
  | extractMetadata | generateThumbnail => exact nomatch hact

/-- The columns hold ffprobe's result. -/
theorem VideoRows.Full.column (h : rows.Full M videoId)
    (hrows : rows.Faithful (Readings.of M) videoId) (c : Column) :
    rows.video.column c = some (M.column c) := by
  obtain ⟨act, hact, -, hstored⟩ := h .metadata
  cases act with
  | extractMetadata =>
    obtain ⟨v, hv⟩ := Option.isSome_iff_exists.mp (hstored.columns rfl c)
    rw [hv, hrows.columns c v hv]
  | generateThumbnail | transcode => exact nomatch hact

/-- The columns together are ffprobe's result. -/
theorem VideoRows.Full.metadata (h : rows.Full M videoId)
    (hrows : rows.Faithful (Readings.of M) videoId) : rows.video.metadata = M.columns := by
  have hd := h.column hrows .durationMs
  have hw := h.column hrows .width
  have hh := h.column hrows .height
  simp only [Video.column, VideoMetadata.column] at hd hw hh
  rw [Video.metadata, hd, hw, hh]
  rfl

/-- The response shows ffprobe's result. -/
theorem VideoRows.Full.responseMetadata (h : rows.Full M videoId)
    (hrows : rows.Faithful (Readings.of M) videoId) : responseMetadata rows.video = some M := by
  have hmetadata := h.metadata hrows
  simp only [Video.metadata, VideoMetadata.columns, Prod.mk.injEq] at hmetadata
  obtain ⟨hd, hw, hh⟩ := hmetadata
  simp only [VideoProcessing.responseMetadata, hd, hw, hh]

/-- An upload of some activity on this original is an asset the video should have. -/
theorem mem_expectedAssets_of_uploads {act : Activity} {a : AssetType} {key : Str}
    (hsuits : (Readings.of M).Suits act) (hmem : (a, key) ∈ act.uploads videoId) :
    a ∈ expectedAssets M.height := by
  cases act with
  | extractMetadata => exact nomatch hmem
  | generateThumbnail =>
    obtain rfl : a = .thumbnail := congrArg Prod.fst (List.mem_singleton.mp hmem)
    exact List.mem_cons_self
  | transcode sourceHeight =>
    obtain rfl : sourceHeight = M.height := hsuits
    obtain ⟨rendition, hrendition, heq⟩ := List.mem_map.mp hmem
    obtain rfl : rendition.assetType = a := congrArg Prod.fst heq
    exact List.mem_cons_of_mem _ (List.mem_map_of_mem hrendition)

/-- Every asset the video should have is stored under its key. -/
theorem VideoRows.Full.asset (h : rows.Full M videoId) {a : AssetType}
    (ha : a ∈ expectedAssets M.height) : rows.assets a = some (assetKey videoId a) := by
  rcases List.mem_cons.mp ha with rfl | ha
  · obtain ⟨act, hact, -, hstored⟩ := h .thumbnail
    cases act with
    | generateThumbnail => exact hstored.assets _ List.mem_cons_self
    | extractMetadata | transcode => exact nomatch hact
  · obtain ⟨rendition, hrendition, rfl⟩ := List.mem_map.mp ha
    obtain ⟨act, hact, hsuits, hstored⟩ := h .transcode
    cases act with
    | transcode sourceHeight =>
      obtain rfl : sourceHeight = M.height := hsuits
      have hasset := hstored.assets _ (List.mem_map_of_mem hrendition)
      rw [renditionKey_eq videoId hrendition] at hasset
      exact hasset
    | extractMetadata | generateThumbnail => exact nomatch hact

/-- The assets of a full video are exactly those it should have. -/
theorem VideoRows.Full.assets_eq (h : rows.Full M videoId)
    (hrows : rows.Faithful (Readings.of M) videoId) (a : AssetType) :
    rows.assets a = if a ∈ expectedAssets M.height then some (assetKey videoId a) else none := by
  by_cases ha : a ∈ expectedAssets M.height
  · rw [if_pos ha, h.asset ha]
  · rw [if_neg ha]
    cases hkey : rows.assets a with
    | none => rfl
    | some key =>
      obtain ⟨act, hsuits, hmem⟩ := hrows.assets a key hkey
      exact absurd (mem_expectedAssets_of_uploads hsuits hmem) ha

/-- The asset rows are those the video should have, each once. -/
theorem VideoRows.Full.assetRows_perm (h : rows.Full M videoId)
    (hrows : rows.Faithful (Readings.of M) videoId) :
    (rows.assetRows.map Prod.fst).Perm (expectedAssets M.height) := by
  refine (List.perm_ext_iff_of_nodup rows.nodup_assetRows_types (expectedAssets_nodup _)).mpr ?_
  intro a
  rw [VideoRows.mem_assetRows_types, h.assets_eq hrows]
  split <;> simp [*]

/-! ## Runs -/

/-- A video just created has nothing to be faithful about. -/
theorem State.faithful_created (R : Readings) (videoId : UUID) (filename key : Str) :
    (State.created videoId filename key).Faithful R where
  pool := Pool.faithful_created R videoId filename key
  tasks := nofun
  placed := nofun
  requests := fun _ hmem => nomatch hmem

/-- Along a run the data is faithful and what is stored stays. -/
theorem State.Faithful.exec {ls : List Label} (h : s.Faithful (Readings.of M))
    (hrun : exec (restrict (Label.Probes M) State.step) s ls = some s') :
    s'.Faithful (Readings.of M) ∧ s.rows.Keeps s'.rows := by
  refine exec_rel (fun q q' : State => q.rows.Keeps q'.rows) (fun q => .refl q.rows)
    VideoRows.Keeps.trans ?_ h hrun
  intro q l q' hq hstep
  obtain ⟨hl, hstep⟩ := restrict_eq_some.mp hstep
  exact hq.step (Label.Probes.reports hl) hstep

/-- A step leaves the video's id alone. -/
theorem State.step_videoId (h : s.step l = some s') : s'.pool.videoId = s.pool.videoId := by
  cases State.step_moves h with
  | resume hpool => exact Pool.resume_videoId hpool
  | vanish hpool =>
    obtain ⟨_, -, rfl⟩ := Pool.vanish_eq_some hpool
    rfl
  | _ => rfl

/-- So does a run. -/
theorem State.exec_videoId {ls : List Label} (hrun : exec State.step s ls = some s') :
    s'.pool.videoId = s.pool.videoId :=
  exec_invariant (fun _ _ _ (hq : _ = s.pool.videoId) hstep => (State.step_videoId hstep).trans hq)
    rfl hrun

/-- A response that says completed has the metadata, with a positive height, and lists, each once, a
thumbnail and a preview for each rung of the ladder strictly below that height and no other,
whatever happens before the row is read (up to `s₁`) and between it and the asset list (up to
`s₂`). -/
theorem getVideo_complete {videoId : UUID} {filename key : Str} {M : VideoMetadata} {s₁ s₂ : State}
    {ls₁ ls₂ : List Label} (presign : Str → Str × Time) {assets : List (AssetType × Str)}
    (h₁ : exec (restrict (Label.Probes M) State.step) (.created videoId filename key) ls₁ = some s₁)
    (h₂ : exec (restrict (Label.Probes M) State.step) s₁ ls₂ = some s₂)
    (hassets : assets.Perm s₂.rows.assetRows)
    (hstatus : (getVideo presign videoId s₁.rows.video assets).status = .completed) :
    ∃ m, (getVideo presign videoId s₁.rows.video assets).metadata = some m ∧ 0 < m.height ∧
      ((getVideo presign videoId s₁.rows.video assets).assets.map
        GeneratedAssetResponse.type).Nodup ∧
      ∀ a, a ∈ (getVideo presign videoId s₁.rows.video assets).assets.map
          GeneratedAssetResponse.type ↔
        a = .thumbnail ∨ ∃ r ∈ renditions, r.height < m.height ∧ a = r.assetType := by
  obtain ⟨hs₁, -⟩ := (State.faithful_created (Readings.of M) videoId filename key).exec h₁
  obtain ⟨hs₂, hkeeps⟩ := hs₁.exec h₂
  have hid₁ : s₁.pool.videoId = videoId := State.exec_videoId (exec_of_restrict h₁)
  have hid₂ : s₂.pool.videoId = videoId := (State.exec_videoId (exec_of_restrict h₂)).trans hid₁
  have hrows₁ := hs₁.pool.rows
  have hrows₂ := hs₂.pool.rows
  rw [hid₁] at hrows₁
  rw [hid₂] at hrows₂
  have hfull₁ : s₁.rows.Full M videoId := hrows₁.published hstatus
  have hfull₂ : s₂.rows.Full M videoId := fun t => (hfull₁ t).mono hkeeps
  have hperm : ((getVideo presign videoId s₁.rows.video assets).assets.map
      GeneratedAssetResponse.type).Perm (expectedAssets M.height) := by
    rw [getVideo, getAssetDownloads_types]
    exact (hassets.map Prod.fst).trans (hfull₂.assetRows_perm hrows₂)
  exact ⟨M, hfull₁.responseMetadata hrows₁, hfull₁.height_pos,
    hperm.nodup_iff.mpr (expectedAssets_nodup _), fun a => hperm.mem_iff.trans mem_expectedAssets⟩

/-- The platform with the video `clip.mp4` just created. -/
def State.clip : State :=
  .created ⟨7⟩ (str "clip.mp4") (str "uploads/00000000-0000-0000-0000-000000000007/original.mp4")

/-- The next `n` awaits of attempt `i` return. -/
def Label.resumes (i n : ℕ) : List Label := List.replicate n (.resume i (.ok 0))

/-- An upload of 1280 by 720 pixels is processed, and nothing fails. -/
def State.processing : List Label := List.flatten [
  [.notify, .receive 0, .start 0 .received, .delete 0 true, .dispatch .metadata,
    .dispatch .thumbnail],
  Label.resumes 0 5, [.resume 0 (.probed ⟨1000, 1280, 720⟩ 0)], Label.resumes 0 3,
  Label.resumes 1 11, [.report .metadata, .report .thumbnail, .decide, .dispatch .transcode],
  Label.resumes 2 11, [.report .transcode, .decide]]

/-- The row is read right after the video was completed, the assets at the end. -/
theorem getVideo_complete_clip : ∃ s₁ s₂,
    exec (restrict (Label.Probes ⟨1000, 1280, 720⟩) State.step) State.clip
      (State.processing.take 41) = some s₁ ∧
    exec (restrict (Label.Probes ⟨1000, 1280, 720⟩) State.step) s₁
      (State.processing.drop 41) = some s₂ ∧
    ∃ m, (getVideo (·, 0) ⟨7⟩ s₁.rows.video s₂.rows.assetRows).metadata = some m ∧ 0 < m.height ∧
      ((getVideo (·, 0) ⟨7⟩ s₁.rows.video s₂.rows.assetRows).assets.map
        GeneratedAssetResponse.type).Nodup ∧
      ∀ a, a ∈ (getVideo (·, 0) ⟨7⟩ s₁.rows.video s₂.rows.assetRows).assets.map
          GeneratedAssetResponse.type ↔
        a = .thumbnail ∨ ∃ r ∈ renditions, r.height < m.height ∧ a = r.assetType := by
  have hrun : (exec (restrict (Label.Probes ⟨1000, 1280, 720⟩) State.step) State.clip
      (State.processing.take 41)).any fun s₁ => decide (s₁.status = .completed) &&
        (exec (restrict (Label.Probes ⟨1000, 1280, 720⟩) State.step) s₁
          (State.processing.drop 41)).isSome := by decide +kernel
  obtain ⟨s₁, h₁, hs₁⟩ := (Option.any_eq_true _ _).mp hrun
  obtain ⟨hstatus, h₂⟩ := Bool.and_eq_true_iff.mp hs₁
  obtain ⟨s₂, h₂⟩ := Option.isSome_iff_exists.mp h₂
  exact ⟨s₁, s₂, h₁, h₂, getVideo_complete (·, 0) h₁ h₂ (.refl _) (of_decide_eq_true hstatus)⟩

end VideoProcessing
