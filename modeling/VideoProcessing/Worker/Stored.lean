import VideoProcessing.Worker.Attempts

/-!
# The data behind a completed job

A completed metadata job has its three columns filled, a completed thumbnail or transcode job its
assets stored, and a completed video all of them, whatever attempts overlap and wherever they stop:
a completion writes its data in the transaction that completes the job, and no statement takes
data back. What ffprobe may report is a parameter.

The invariant is on the rows and on the frame of each session. A completion's frame carries the data
its job stands for, and what a session has seen stored is still stored when it commits.
-/

namespace VideoProcessing

open Python UnitOfWork

/-! ## The metadata columns -/

/-- The columns that hold ffprobe's results. -/
inductive Column where
  | durationMs
  | width
  | height
deriving DecidableEq

def Video.column (video : Video) : Column → Option ℤ
  | .durationMs => video.durationMs
  | .width => video.width
  | .height => video.height

def VideoMetadata.column (m : VideoMetadata) : Column → ℤ
  | .durationMs => m.durationMs
  | .width => m.width
  | .height => m.height

def VideoSet.column (set : VideoSet) : Column → Option (Option ℤ)
  | .durationMs => set.durationMs
  | .width => set.width
  | .height => set.height

@[simp] theorem VideoSet.apply_column (set : VideoSet) (row : Video) (c : Column) :
    (set.apply row).column c = put (set.column c) (row.column c) := by
  cases c <;> rfl

@[simp] theorem dirtyVideo_column (video : Tracked Video) (c : Column) :
    (dirtyVideo video).column c = dirty (video.loaded.column c) (video.current.column c) := by
  cases c <;> rfl

/-- The status is none of the columns. -/
theorem Video.column_status (video : Video) (status : VideoStatus) (c : Column) :
    ({ video with status := status } : Video).column c = video.column c := by
  cases c <;> rfl

/-- The values ffprobe may report for the originals under consideration. -/
abbrev Readings := Column → ℤ → Prop

/-- ffprobe may report anything. -/
def Readings.any : Readings := fun _ _ => True

/-- Every value of the metadata may be reported. -/
def Readings.Admits (R : Readings) (m : VideoMetadata) : Prop := ∀ c, R c (m.column c)

/-- A transcode is given a height that may be reported. -/
def Readings.Suits (R : Readings) : Activity → Prop
  | .transcode sourceHeight => R .height sourceHeight
  | _ => True

/-! ## What is stored -/

/-- Every activity uploads under the key of the asset type. -/
theorem key_of_mem_uploads {videoId : UUID} {act : Activity} {x : AssetType × Str}
    (hx : x ∈ act.uploads videoId) : x.2 = assetKey videoId x.1 := by
  cases act with
  | extractMetadata => simp [Activity.uploads] at hx
  | generateThumbnail =>
    obtain rfl := List.mem_singleton.mp hx
    rfl
  | transcode sourceHeight =>
    obtain ⟨rendition, hrendition, rfl⟩ := List.mem_map.mp hx
    exact renditionKey_eq videoId hrendition

/-- What an activity stores when it completes. -/
structure Activity.Stored (videoId : UUID) (act : Activity) (rows : VideoRows) : Prop where
  usable : act.Usable
  columns : act = .extractMetadata → ∀ c, (rows.video.column c).isSome
  assets : ∀ x ∈ act.uploads videoId, rows.assets x.1 = some x.2

/-- The job's data is stored, by some activity that may have run. -/
def Readings.Stored (R : Readings) (videoId : UUID) (t : JobType) (rows : VideoRows) : Prop :=
  ∃ act : Activity, act.jobType = t ∧ R.Suits act ∧ act.Stored videoId rows

/-- What the rows of a video may hold. -/
structure VideoRows.Faithful (R : Readings) (videoId : UUID) (rows : VideoRows) : Prop where
  columns : ∀ c v, rows.video.column c = some v → R c v
  assets : ∀ a key, rows.assets a = some key →
    ∃ act : Activity, R.Suits act ∧ (a, key) ∈ act.uploads videoId
  stored : ∀ t, rows.Completed t → R.Stored videoId t rows
  published : rows.video.status = .completed → ∀ t, R.Stored videoId t rows

/-- Data once stored is still there. -/
structure VideoRows.Keeps (before after : VideoRows) : Prop where
  columns : ∀ c, (before.video.column c).isSome → (after.video.column c).isSome
  assets : ∀ a key, before.assets a = some key → after.assets a = some key

variable {R : Readings} {videoId : UUID} {act : Activity} {rows rows' : VideoRows} {t : JobType}
  {f : Frame}

/-- Rows keep what they have. -/
theorem VideoRows.Keeps.refl (rows : VideoRows) : rows.Keeps rows :=
  ⟨fun _ => id, fun _ _ => id⟩

/-- And go on keeping it. -/
theorem VideoRows.Keeps.trans {rows₁ rows₂ rows₃ : VideoRows} (h : rows₁.Keeps rows₂)
    (h' : rows₂.Keeps rows₃) : rows₁.Keeps rows₃ :=
  ⟨fun c hc => h'.columns c (h.columns c hc), fun a key ha => h'.assets a key (h.assets a key ha)⟩

/-- What is stored stays. -/
theorem Activity.Stored.mono (h : act.Stored videoId rows) (hkeeps : rows.Keeps rows') :
    act.Stored videoId rows' :=
  ⟨h.usable, fun hact c => hkeeps.columns c (h.columns hact c),
    fun x hx => hkeeps.assets _ _ (h.assets x hx)⟩

/-- Whoever stored it. -/
theorem Readings.Stored.mono (h : R.Stored videoId t rows) (hkeeps : rows.Keeps rows') :
    R.Stored videoId t rows' := by
  obtain ⟨act, ht, hsuits, hstored⟩ := h
  exact ⟨act, ht, hsuits, hstored.mono hkeeps⟩

/-- An asset has the key of its type. -/
theorem VideoRows.Faithful.asset_key (h : rows.Faithful R videoId) {a : AssetType} {key : Str}
    (ha : rows.assets a = some key) : key = assetKey videoId a := by
  obtain ⟨act, -, hmem⟩ := h.assets a key ha
  exact key_of_mem_uploads hmem

/-- The rows differ in statuses and bookkeeping only. -/
structure VideoRows.SameData (before after : VideoRows) : Prop where
  columns : ∀ c, after.video.column c = before.video.column c
  assets : after.assets = before.assets

/-- The same data are kept. -/
theorem VideoRows.SameData.keeps (h : rows.SameData rows') : rows.Keeps rows' :=
  ⟨fun c hc => by rwa [h.columns c], fun a key ha => by rwa [h.assets]⟩

/-- A status is none of the data. -/
theorem VideoRows.sameData_status (rows : VideoRows) (status : VideoStatus) :
    rows.SameData { rows with video := { rows.video with status := status } } :=
  ⟨fun c => Video.column_status rows.video status c, rfl⟩

/-- Statuses and timestamps are none. -/
theorem Writes.StatusOnly.sameData {w : Writes} (h : w.StatusOnly) :
    rows.SameData (w.apply t rows) := by
  rw [h.apply_eq]
  exact ⟨fun c => Video.column_status rows.video _ c, rfl⟩

/-- Rows with the same data are as faithful. -/
theorem VideoRows.Faithful.of_sameData (h : rows.Faithful R videoId) (hdata : rows.SameData rows')
    (hjobs : ∀ t, rows'.Completed t → rows.Completed t)
    (hstatus : rows'.video.status = .completed → rows.video.status = .completed) :
    rows'.Faithful R videoId where
  columns := fun c v hv => h.columns c v (by rwa [hdata.columns c] at hv)
  assets := fun a key ha => h.assets a key (by rwa [hdata.assets] at ha)
  stored := fun t ht => (h.stored t (hjobs t ht)).mono hdata.keeps
  published := fun hs t => (h.published (hstatus hs) t).mono hdata.keeps

/-! ## What a session holds -/

/-- The copy of the row was loaded from rows that had its data. -/
structure Video.Seen (R : Readings) (rows : VideoRows) (copy : Video) : Prop where
  columns : ∀ c v, copy.column c = some v → R c v
  stored : ∀ c, (copy.column c).isSome → (rows.video.column c).isSome

/-- An asset object that would not be written is stored. -/
def Frame.AssetsSeen (f : Frame) (rows : VideoRows) : Prop :=
  ∀ asset ∈ f.assets, ∀ key, asset.2.current = some key → asset.2.loaded = some key →
    rows.assets asset.1 = some key

/-- What a completion has flushed is its job's data. -/
structure Frame.Carries (R : Readings) (videoId : UUID) (act : Activity) (f : Frame)
    (rows : VideoRows) : Prop where
  columns : ∀ c x, f.flushed.video.column c = some x → ∃ v, x = some v ∧ R c v
  assets : ∀ x ∈ f.flushed.assets, x ∈ act.uploads videoId
  stored : act.Stored videoId (f.flushed.apply act.jobType rows)

/-- The data a session holds at each await. -/
def Phase.Faithful (R : Readings) (videoId : UUID) (act : Activity) (rows : VideoRows) :
    Phase → Prop
  | .selectJob video | .insertJob video => video.loaded.Seen R rows
  | .commitClaim f | .work f _ => f.video.loaded.Seen R rows ∧ ∀ m, f.metadata = some m → R.Admits m
  | .selectAsset f _ | .flush f => f.video.loaded.Seen R rows ∧ f.AssetsSeen rows ∧
      ∀ m, f.metadata = some m → R.Admits m
  | .countCompleted f => f.Carries R videoId act rows ∧ ∀ m, f.metadata = some m → R.Admits m
  | .commitCompletion f => f.Carries R videoId act rows ∧
      (f.pending.video.status = some .completed →
        ∀ t, R.Stored videoId t (f.flushed.apply act.jobType rows)) ∧
      ∀ m, f.metadata = some m → R.Admits m
  | .returned result => ∀ m, result = some m → R.Admits m
  | _ => True

structure Attempt.Faithful (R : Readings) (videoId : UUID) (rows : VideoRows) (a : Attempt) :
    Prop where
  suits : R.Suits a.activity
  phase : a.phase.Faithful R videoId a.activity rows

/-- A copy was seen in rows that keep it. -/
theorem Video.Seen.mono {copy : Video} (h : copy.Seen R rows) (hkeeps : rows.Keeps rows') :
    copy.Seen R rows' :=
  ⟨h.columns, fun c hc => hkeeps.columns c (h.stored c hc)⟩

/-- The row itself is seen. -/
theorem VideoRows.Faithful.seen (h : rows.Faithful R videoId) : rows.video.Seen R rows :=
  ⟨h.columns, fun _ => id⟩

/-- Writing over rows that hold more leaves more. -/
theorem VideoRows.Keeps.apply (h : rows.Keeps rows') (w : Writes) :
    (w.apply t rows).Keeps (w.apply t rows') where
  columns := fun c => by
    simp only [Writes.apply, VideoSet.apply_column]
    cases w.video.column c with
    | none => exact h.columns c
    | some x => exact id
  assets := fun a key => by
    simp only [Writes.apply_assets]
    cases w.assets.lookup a with
    | none => exact h.assets a key
    | some x => exact id

/-- What a session carries was seen in rows that keep it. -/
theorem Frame.Carries.mono (h : f.Carries R videoId act rows) (hkeeps : rows.Keeps rows') :
    f.Carries R videoId act rows' :=
  ⟨h.columns, h.assets, h.stored.mono (hkeeps.apply _)⟩

/-- So were its assets. -/
theorem Frame.AssetsSeen.mono (h : f.AssetsSeen rows) (hkeeps : rows.Keeps rows') :
    f.AssetsSeen rows' :=
  fun asset hasset key hcurrent hloaded =>
    hkeeps.assets _ _ (h asset hasset key hcurrent hloaded)

/-- And so is an attempt faithful. -/
theorem Phase.Faithful.mono {ph : Phase} (h : ph.Faithful R videoId act rows)
    (hkeeps : rows.Keeps rows') : ph.Faithful R videoId act rows' := by
  cases ph with
  | selectJob | insertJob => exact Video.Seen.mono h hkeeps
  | commitClaim | work => exact ⟨h.1.mono hkeeps, h.2⟩
  | selectAsset | flush => exact ⟨h.1.mono hkeeps, h.2.1.mono hkeeps, h.2.2⟩
  | countCompleted => exact ⟨h.1.mono hkeeps, h.2⟩
  | commitCompletion =>
    exact ⟨h.1.mono hkeeps, fun hp t => (h.2.1 hp t).mono (hkeeps.apply _), h.2.2⟩
  | _ => exact h

/-! ## The flush of a completion -/

/-- A completion changes the columns to what ffprobe returned, and only the metadata job does. -/
theorem Frame.Completing.column (h : f.Completing act) (c : Column) :
    f.video.current.column c = f.video.loaded.column c ∧ act ≠ .extractMetadata ∨
    act = .extractMetadata ∧ ∃ m, f.metadata = some m ∧
      f.video.current.column c = some (m.column c) := by
  have hvideo := h.video
  cases act with
  | extractMetadata =>
    obtain ⟨m, hm, heq⟩ := hvideo
    exact .inr ⟨rfl, m, hm, by rw [heq]; cases c <;> rfl⟩
  | generateThumbnail | transcode =>
    exact .inl ⟨congrArg (Video.column · c) hvideo, nofun⟩

/-- An asset object of a completion is one of the uploads. -/
theorem Frame.mem_uploads_of_assetKeys
    (h : f.assetKeys = (act.uploads videoId).map fun x => (x.1, some x.2)) {asset : AssetObject}
    (hasset : asset ∈ f.assets) {key : Str} (hkey : asset.2.current = some key) :
    (asset.1, key) ∈ act.uploads videoId := by
  have hmem : (asset.1, some key) ∈ f.assetKeys := List.mem_map.mpr ⟨asset, hasset, by rw [hkey]⟩
  rw [h] at hmem
  obtain ⟨x, hx, heq⟩ := List.mem_map.mp hmem
  simp only [Prod.mk.injEq, Option.some.injEq] at heq
  rw [← heq.1, ← heq.2]
  exact hx

/-- An asset is written if its key was changed. -/
theorem mem_filterMap_dirtyAsset {x : AssetType × Str} {assets : List AssetObject} :
    x ∈ assets.filterMap dirtyAsset ↔ ∃ asset ∈ assets, asset.1 = x.1 ∧
      asset.2.current = some x.2 ∧ asset.2.loaded ≠ some x.2 := by
  simp only [List.mem_filterMap, dirtyAsset, Option.map_eq_some_iff, Option.join_eq_some_iff,
    dirty_eq_some]
  constructor
  · rintro ⟨asset, hasset, key, ⟨hcurrent, hloaded⟩, rfl⟩
    exact ⟨asset, hasset, rfl, hcurrent, Ne.symm hloaded⟩
  · rintro ⟨asset, hasset, ha, hcurrent, hloaded⟩
    exact ⟨asset, hasset, x.2, ⟨hcurrent, Ne.symm hloaded⟩, by rw [ha]⟩

/-- A flush stores all an activity is to store. -/
theorem Frame.flush_stored (hf : f.Completing act) (huse : act.Usable)
    (hkeys : f.assetKeys = (act.uploads videoId).map fun x => (x.1, some x.2))
    (hseen : f.video.loaded.Seen R rows) (hassets : f.AssetsSeen rows) :
    act.Stored videoId (f.pending.apply t rows) where
  usable := huse
  columns := fun hact c => by
    simp only [Writes.apply, VideoSet.apply_column, Frame.pending, dirtyVideo_column, put_dirty]
    rcases hf.column c with ⟨-, hne⟩ | ⟨-, m, -, hm⟩
    · exact absurd hact hne
    · split
      · rename_i heq
        exact hseen.stored c (by rw [← heq, hm]; rfl)
      · rw [hm]
        rfl
  assets := fun x hx => by
    have hmem : (x.1, some x.2) ∈ f.assetKeys := by
      rw [hkeys]
      exact List.mem_map_of_mem hx
    obtain ⟨asset, hasset, heq⟩ := List.mem_map.mp hmem
    simp only [Prod.mk.injEq] at heq
    rw [Writes.apply_assets]
    -- an asset is written now, or its row had the key when it was looked for
    cases hlookup : f.pending.assets.lookup x.1 with
    | some key =>
      obtain ⟨l₁, l₂, heq', -⟩ := List.lookup_eq_some_iff.mp hlookup
      have hpending : (x.1, key) ∈ f.pending.assets := by rw [heq']; simp
      obtain ⟨asset', hasset', ha', hcurrent', -⟩ := mem_filterMap_dirtyAsset.mp hpending
      have hup := Frame.mem_uploads_of_assetKeys hkeys hasset' hcurrent'
      rw [ha'] at hup
      have hkey : key = x.2 := (key_of_mem_uploads hup).trans (key_of_mem_uploads hx).symm
      rw [hkey]
      rfl
    | none =>
      have hloaded : asset.2.loaded = some x.2 := by
        by_contra hne
        have hpending : x ∈ f.pending.assets :=
          mem_filterMap_dirtyAsset.mpr ⟨asset, hasset, heq.1, heq.2, hne⟩
        have := List.lookup_eq_none_iff.mp hlookup x hpending
        simp at this
      have hrow := hassets asset hasset x.2 heq.2 hloaded
      rw [heq.1] at hrow
      exact hrow

/-- And carries it to the commit. -/
theorem Frame.flush_carries (hf : f.Completing act) (huse : act.Usable)
    (hkeys : f.assetKeys = (act.uploads videoId).map fun x => (x.1, some x.2))
    (hseen : f.video.loaded.Seen R rows) (hassets : f.AssetsSeen rows)
    (hprobe : ∀ m, f.metadata = some m → R.Admits m) :
    f.flush.Carries R videoId act rows where
  columns := fun c x hx => by
    simp only [Frame.flush, Frame.pending, dirtyVideo_column, dirty_eq_some] at hx
    rcases hf.column c with ⟨heq, -⟩ | ⟨-, m, hm, heq⟩
    · exact absurd (hx.1.symm.trans heq) hx.2
    · exact ⟨m.column c, hx.1.symm.trans heq, hprobe m hm c⟩
  assets := fun x hx => by
    obtain ⟨asset, hasset, ha, hcurrent, -⟩ := mem_filterMap_dirtyAsset.mp hx
    have hup := Frame.mem_uploads_of_assetKeys hkeys hasset hcurrent
    rwa [ha] at hup
  stored := Frame.flush_stored hf huse hkeys hseen hassets

/-! ## The commit of a completion -/

/-- What a completion has flushed takes nothing back. -/
theorem Frame.Carries.keeps (h : f.Carries R videoId act rows) (hrows : rows.Faithful R videoId) :
    rows.Keeps (f.flushed.apply act.jobType rows) where
  columns := fun c hc => by
    simp only [Writes.apply, VideoSet.apply_column]
    cases hset : f.flushed.video.column c with
    | none => exact hc
    | some x =>
      obtain ⟨v, rfl, -⟩ := h.columns c x hset
      rfl
  assets := fun a key ha => by
    rw [Writes.apply_assets]
    cases hlookup : f.flushed.assets.lookup a with
    | none => exact ha
    | some key' =>
      obtain ⟨l₁, l₂, heq, -⟩ := List.lookup_eq_some_iff.mp hlookup
      have hmem := key_of_mem_uploads (h.assets (a, key') (by rw [heq]; simp))
      rw [hrows.asset_key ha, ← hmem]
      rfl

/-- The rows with a completion's writes, whatever becomes of the video's status. -/
theorem Frame.Carries.commit_faithful (h : f.Carries R videoId act rows)
    (hrows : rows.Faithful R videoId) (hsuits : R.Suits act) {status : VideoStatus}
    (hstatus : status = .completed →
      ∀ t, R.Stored videoId t (f.flushed.apply act.jobType rows)) :
    VideoRows.Faithful R videoId
      { f.flushed.apply act.jobType rows with
        video := { (f.flushed.apply act.jobType rows).video with status := status } } where
  columns := fun c v hv => by
    rw [Video.column_status] at hv
    simp only [Writes.apply, VideoSet.apply_column] at hv
    cases hset : f.flushed.video.column c with
    | none =>
      rw [hset] at hv
      exact hrows.columns c v hv
    | some x =>
      obtain ⟨v', rfl, hR⟩ := h.columns c x hset
      rw [hset, put_some, Option.some.injEq] at hv
      exact hv ▸ hR
  assets := fun a key ha => by
    rw [Writes.apply_assets] at ha
    cases hlookup : f.flushed.assets.lookup a with
    | none =>
      rw [hlookup] at ha
      exact hrows.assets a key ha
    | some key' =>
      rw [hlookup] at ha
      obtain rfl : key' = key := Option.some.inj ha
      obtain ⟨l₁, l₂, heq, -⟩ := List.lookup_eq_some_iff.mp hlookup
      exact ⟨act, hsuits, h.assets (a, key') (by rw [heq]; simp)⟩
  stored := fun t ht => by
    have hstored : R.Stored videoId t (f.flushed.apply act.jobType rows) := by
      -- the job completed now, whose data the frame carries, or one completed before
      by_cases hta : t = act.jobType
      · exact ⟨act, hta.symm, hsuits, h.stored⟩
      · exact (hrows.stored t ((Writes.apply_completed_of_ne hta).mp ht)).mono (h.keeps hrows)
    exact hstored.mono (VideoRows.sameData_status _ _).keeps
  published := fun hs t => (hstatus hs t).mono (VideoRows.sameData_status _ _).keeps

/-! ## One await -/

/-- The rows stay faithful and keep their data. -/
theorem RowChange.faithful {ph : Phase} (h : RowChange act rows ph rows')
    (hrows : rows.Faithful R videoId) (hsuits : R.Suits act)
    (hph : ph.Faithful R videoId act rows) :
    rows'.Faithful R videoId ∧ rows.Keeps rows' := by
  have hcompleted (t : JobType) (ht : rows'.Completed t) (hne : ∀ f, ph ≠ .commitCompletion f) :
      rows.Completed t :=
    (h.completed_cases ht).resolve_right fun ⟨_, f, hf, _⟩ => hne f hf
  have hstatus (hs : rows'.video.status = .completed) (hne : ∀ f, ph ≠ .commitCompletion f) :
      rows.video.status = .completed :=
    (h.status_cases hs).resolve_right fun ⟨f, hf, _⟩ => hne f hf
  -- a change that completes nothing and leaves the data is faithful
  have hsame (hdata : rows.SameData rows') (hne : ∀ f, ph ≠ .commitCompletion f) :
      rows'.Faithful R videoId ∧ rows.Keeps rows' :=
    ⟨hrows.of_sameData hdata (fun t ht => hcompleted t ht hne) (fun hs => hstatus hs hne),
      hdata.keeps⟩
  cases h with
  | same => exact ⟨hrows, .refl _⟩
  | insert => exact hsame ⟨fun _ => rfl, rfl⟩ fun _ heq => nomatch heq
  | claim hf =>
    rw [hf.commit_eq] at hsame ⊢
    exact hsame hf.statusOnly.sameData fun _ heq => nomatch heq
  | fail _ hf =>
    rw [hf.commit_eq] at hsame ⊢
    exact hsame hf.statusOnly.sameData fun _ heq => nomatch heq
  | @complete f hf =>
    obtain ⟨hcarries, hpublish, -⟩ := hph
    rw [hf.commit_eq]
    constructor
    · refine hcarries.commit_faithful hrows hsuits fun hs => ?_
      -- the completion publishes the video or leaves its status
      rcases hf.pending_status with hp | hp
      · rw [hp, put_none] at hs
        exact fun t => (hrows.published hs t).mono (hcarries.keeps hrows)
      · exact hpublish hp
    · have hkeeps := hcarries.keeps hrows
      exact ⟨fun c hc => by rw [Video.column_status]; exact hkeeps.columns c hc, hkeeps.assets⟩

/-- ffprobe reports values it may report. -/
def Readings.Answers (R : Readings) : Answer → Prop
  | .probed m _ => R.Admits m
  | _ => True

/-- Metadata from the row were read from the original. -/
theorem storedMetadata_admits {video : Video} {m : VideoMetadata} (hseen : video.Seen R rows)
    (h : storedMetadata videoId video = .ok m) : R.Admits m := by
  rw [storedMetadata] at h
  split at h
  · rename_i d w h' hd hw hh
    obtain rfl := Except.ok.inj h
    intro c
    cases c
    exacts [hseen.columns .durationMs d hd, hseen.columns .width w hw, hseen.columns .height h' hh]
  · exact nomatch h

/-- The work is faithful. -/
theorem working_faithful {now : Time} {todo : List Io} {ph : Phase}
    (hseen : f.video.loaded.Seen R rows) (hprobe : ∀ m, f.metadata = some m → R.Admits m)
    (hassets : f.assets = []) (h : working videoId act f now todo = some ph) :
    ph.Faithful R videoId act rows := by
  -- no asset has been looked for yet
  have hnone : f.AssetsSeen rows := by
    intro asset hasset
    rw [hassets] at hasset
    exact nomatch hasset
  cases todo with
  | cons io todo =>
    obtain rfl := Option.some.inj h
    exact ⟨hseen, hprobe⟩
  | nil =>
    cases act with
    | extractMetadata =>
      obtain ⟨m, hm, rfl⟩ := Option.map_eq_some_iff.mp h
      exact ⟨hseen, hnone, hprobe⟩
    | generateThumbnail =>
      obtain rfl := Option.some.inj h
      exact ⟨hseen, hnone, hprobe⟩
    | transcode =>
      obtain rfl := Option.some.inj h
      rw [completeTranscodeJob]
      cases f.uploads <;> exact ⟨hseen, hnone, hprobe⟩

/-- So is what follows the claim. -/
theorem claimed_faithful (hseen : f.video.loaded.Seen R rows)
    (hprobe : ∀ m, f.metadata = some m → R.Admits m) :
    (claimed videoId act f).Faithful R videoId act rows := by
  cases act with
  | transcode sourceHeight =>
    rw [claimed]
    split
    · trivial
    · exact ⟨hseen, hprobe⟩
  | extractMetadata | generateThumbnail => exact ⟨hseen, hprobe⟩

/-- An asset is seen before it is written. -/
theorem Frame.AssetsSeen.upsertAsset (h : f.AssetsSeen rows) (a : AssetType) (key : Str) :
    (f.upsertAsset (rows.assets a) a key).AssetsSeen rows := by
  intro asset hasset key' hcurrent hloaded
  rcases List.mem_append.mp hasset with hasset | hasset
  · exact h asset hasset key' hcurrent hloaded
  · obtain rfl := List.mem_singleton.mp hasset
    exact hloaded

/-- A completion is faithful. -/
theorem completing_faithful {todo : List (AssetType × Str)} (hseen : f.video.loaded.Seen R rows)
    (hassets : f.AssetsSeen rows) (hprobe : ∀ m, f.metadata = some m → R.Admits m) :
    (completing f todo).Faithful R videoId act rows := by
  cases todo <;> exact ⟨hseen, hassets, hprobe⟩

@[simp] theorem Frame.completeVideo_flushed (f : Frame) (all : Bool) :
    (f.completeVideo all).flushed = f.flushed := by
  cases all <;> rfl

@[simp] theorem Frame.completeVideo_metadata (f : Frame) (all : Bool) :
    (f.completeVideo all).metadata = f.metadata := by
  cases all <;> rfl

/-- A count that publishes the video has seen every job completed, so all the data is stored. -/
theorem Frame.Carries.counted (h : f.Carries R videoId act rows) (hrows : rows.Faithful R videoId)
    (hsuits : R.Suits act) (hstatus : f.video.current.status = f.video.loaded.status)
    (hp : (f.completeVideo (allJobsCompleted
      (f.flushed.apply act.jobType rows))).pending.video.status = some .completed) :
    ∀ t, R.Stored videoId t (f.flushed.apply act.jobType rows) := by
  intro t
  by_cases hta : t = act.jobType
  · exact ⟨act, hta.symm, hsuits, h.stored⟩
  · have hall := allJobsCompleted_iff.mp (Frame.all_of_pending_status hstatus hp) t
    exact (hrows.stored t ((Writes.apply_completed_of_ne hta).mp hall)).mono (h.keeps hrows)

/-- An attempt keeps hold of its data. -/
theorem Resumes.faithful {st st' : Store} {ph ph' : Phase} {ans : Answer}
    (h : Resumes videoId act st ph ans st' ph') (hshaped : ph.Shaped videoId act)
    (hrows : st.rows.Faithful R videoId) (hsuits : R.Suits act)
    (hph : ph.Faithful R videoId act st.rows) (hans : R.Answers ans) :
    ph'.Faithful R videoId act st'.rows := by
  -- what the attempt knows of the rows stays true of the new ones
  have hkeeps := ((h.rowChange hshaped).faithful hrows hsuits hph).2
  cases h with
  | load => exact hrows.seen
  | selectNone => exact hph
  | @selectCompleted _ video _ =>
    cases act with
    | extractMetadata =>
      have hcurrent : video.current.Seen R st.rows := by
        have hshaped : video.current = video.loaded := hshaped
        rwa [hshaped]
      simp only [alreadyCompleted]
      split
      · rename_i hm
        rintro m ⟨⟩
        -- it returns what the row holds
        exact storedMetadata_admits hcurrent hm
      · trivial
    | generateThumbnail | transcode => exact fun m hm => by cases hm
  | selectJob => exact ⟨hph, fun m hm => by cases hm⟩
  | insert => exact ⟨Video.Seen.mono hph hkeeps, fun m hm => by cases hm⟩
  | @commitClaim _ f =>
    refine claimed_faithful ?_ hph.2
    obtain ⟨now, video, job, -, rfl⟩ := hshaped
    refine Video.Seen.mono ?_ hkeeps
    simp only [Frame.committed, Frame.flush, claimJob, Tracked.flushed_loaded,
      Tracked.modify_current, Tracked.fresh_current]
    rw [video.claim_eq]
    exact ⟨fun c v hv => hph.1.columns c v (by rwa [Video.column_status] at hv),
      fun c hc => hph.1.stored c (by rwa [Video.column_status] at hc)⟩
  | call _ _ hwork => exact working_faithful hph.1 hph.2 hshaped.1.assets hwork
  | probe hwork =>
    refine working_faithful ?_ ?_ ?_ hwork
    · exact hph.1
    · rintro m ⟨⟩
      exact hans
    · exact hshaped.1.assets
  | upload hwork =>
    refine working_faithful ?_ ?_ ?_ hwork
    exacts [hph.1, hph.2, hshaped.1.assets]
  | selectAsset => exact completing_faithful hph.1 (hph.2.1.upsertAsset _ _) hph.2.2
  | flush =>
    obtain ⟨hf, huse, hkeys⟩ := hshaped
    exact ⟨Frame.flush_carries hf huse hkeys hph.1 hph.2.1 hph.2.2, hph.2.2⟩
  | countCompleted =>
    obtain ⟨hcarries, hprobe⟩ := hph
    refine ⟨⟨?_, ?_, ?_⟩, fun hp => ?_, ?_⟩
    · simpa using hcarries.columns
    · simpa using hcarries.assets
    · simpa using hcarries.stored
    · simpa using hcarries.counted hrows hsuits hshaped.2 hp
    · simpa using hprobe
  | commitCompletion => exact hph.2.2
  | insertLost | giveUp | workFails | completionFails | noConnection | failJobBroken | failJob
  | failJobFails => trivial

/-! ## The pool -/

/-- Rows and attempts hold the data they should. -/
structure Pool.Faithful (R : Readings) (p : Pool) : Prop where
  sound : p.Sound
  rows : p.rows.Faithful R p.videoId
  attempts : p.Each (Attempt.Faithful R p.videoId)

variable {p p' : Pool}

/-- The rows of a faithful pool can change without harm to its attempts. -/
theorem Pool.Faithful.setRows (h : p.Faithful R) (hrows : rows.Faithful R p.videoId)
    (hkeeps : p.rows.Keeps rows) (hjobs : ∀ t, p.rows.jobs t ≠ none → rows.jobs t ≠ none)
    {objects : List Str} : Pool.Faithful R { p with store := ⟨rows, objects⟩ } where
  sound := h.sound.mono fun _ ha => ha.mono hjobs
  rows := hrows
  attempts := h.attempts.mono fun _ ha => ⟨ha.suits, ha.phase.mono hkeeps⟩

/-- An await of a pool. -/
theorem Pool.Faithful.resume {i : ℕ} {ans : Answer} (h : p.Faithful R) (hans : R.Answers ans)
    (hresume : p.resume i ans = some p') : p'.Faithful R := by
  have hid := Pool.resume_videoId hresume
  refine ⟨h.sound.resume hresume, ?_, ?_⟩
  · obtain ⟨a, st, ph, ha, hres, rfl⟩ := Pool.resume_eq_some hresume
    obtain ⟨hsuits, hph⟩ := h.attempts i a ha
    exact ((hres.rowChange (h.sound i a ha).shaped).faithful h.rows hsuits hph).1
  · rw [hid]
    refine h.attempts.resume hresume ?_ ?_
    · intro a st ph ha hfaithful hres
      exact ⟨hfaithful.suits, hres.faithful (h.sound i a ha).shaped h.rows hfaithful.suits
        hfaithful.phase hans⟩
    · intro a st ph j b ha hres _ hb hfaithful
      obtain ⟨hsuits, hph⟩ := h.attempts i a ha
      exact ⟨hfaithful.suits, hfaithful.phase.mono
        ((hres.rowChange (h.sound i a ha).shaped).faithful h.rows hsuits hph).2⟩

/-- A new attempt. -/
theorem Pool.Faithful.begin (h : p.Faithful R) {act : Activity} (hsuits : R.Suits act) :
    (p.begin act).Faithful R :=
  ⟨h.sound.begin act, h.rows, h.attempts.begin ⟨hsuits, trivial⟩⟩

/-- A kill. -/
theorem Pool.Faithful.vanish {i : ℕ} (h : p.Faithful R) (hvanish : p.vanish i = some p') :
    p'.Faithful R := by
  refine ⟨h.sound.vanish hvanish, ?_, ?_⟩ <;>
    obtain ⟨a, ha, rfl⟩ := Pool.vanish_eq_some hvanish
  · exact h.rows
  · intro j b hb
    rcases getElem?_set_cases hb with ⟨-, rfl⟩ | ⟨-, hb⟩
    · exact ⟨(h.attempts i a ha).suits, trivial⟩
    · exact h.attempts j b hb

/-- A new video. -/
theorem Pool.faithful_created (R : Readings) (videoId : UUID) (filename key : Str) :
    (Pool.created videoId filename key).Faithful R where
  sound := Pool.sound_of_nil rfl
  rows :=
    { columns := fun c v hv => by cases c <;> exact nomatch hv
      assets := fun a key ha => nomatch ha
      stored := fun t ht => nomatch ht
      published := fun hs => nomatch hs }
  attempts := Pool.each_of_nil rfl

end VideoProcessing
