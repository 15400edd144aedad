import VideoProcessing.Migrations.AddTranscodeJobTypes
import VideoProcessing.Platform.Projection
import VideoProcessing.Platform.Readers
import VideoProcessing.Platform.Undisturbed
import VideoProcessing.Worker.Ranges

/-!
# The rows as the database has them

The model keeps the rows of a video as values in which most of what the schema forbids cannot be
written down. Here they are spelled out as rows of the three tables and held against the constraints
of the migrations: lengths, integer ranges, checks, keys and foreign keys.
-/

namespace VideoProcessing

open Python UnitOfWork Transitions Sql

/-! ## What holds of the attempts around a video -/

/-- The attempts with another status of their video. -/
def Pool.withStatus (p : Pool) (status : VideoStatus) : Pool :=
  { p with store := { p.store with
      rows := { p.rows with video := { p.rows.video with status := status } } } }

variable {s s' : State} {l : Label} {p : Pool}

/-- The commit of a request writes the status and nothing else. -/
theorem RetryPhase.Shaped.apply_eq {video : Tracked Video} (h : (RetryPhase.commit video).Shaped)
    (row : Video) : (dirtyVideo video).apply row =
      { row with status := put (dirtyVideo video).status row.status } := by
  have h : video.current = { video.loaded with status := .processing } := h
  simp only [VideoSet.apply, dirtyVideo, h, dirty_self, put_none]

/-- What attempts keep and what does not depend on the status of the video, requests keep too. -/
theorem State.Faithful.pool_step (h : s.Faithful Readings.any) {I : Pool → Prop}
    (hpool : ∀ p l p', I p → Pool.step p l = some p' → I p')
    (hstatus : ∀ p status, I p → I (p.withStatus status)) (hs : I s.pool)
    (hstep : s.step l = some s') : I s'.pool := by
  cases State.step_moves hstep with
  | @resume i ans pool hresume => exact hpool _ (.resume i ans) _ hs hresume
  | @vanish i pool hvanish => exact hpool _ (.vanish i) _ hs hvanish
  | @dispatch t tasks task => exact hpool _ (.begin task.activity) _ hs rfl
  | @retryCommit r video hr =>
    have hshaped : (RetryPhase.commit video).Shaped := h.requests _ (List.mem_of_getElem? hr)
    change I (s.withVideo ((dirtyVideo video).apply s.rows.video)).pool
    rw [hshaped.apply_eq]
    exact hstatus s.pool _ hs
  | retryVideo => exact hstatus s.pool .processing hs
  | _ => exact hs

/-- The same over whole runs. -/
theorem State.pool_of_reaches {I : Pool → Prop} {videoId : UUID} {filename key : Str}
    (hcreated : I (.created videoId filename key))
    (hpool : ∀ p l p', I p → Pool.step p l = some p' → I p')
    (hstatus : ∀ p status, I p → I (p.withStatus status))
    (hreach : Reaches State.step (.created videoId filename key) s) : I s.pool := by
  have hboth : s.Faithful Readings.any ∧ I s.pool := by
    refine hreach.invariant (I := fun s => s.Faithful Readings.any ∧ I s.pool) ?_
      ⟨State.faithful_created _ videoId filename key, hcreated⟩
    rintro q l q' ⟨hfaithful, hI⟩ hstep
    exact ⟨(hfaithful.step (Readings.any_reports l) hstep).1,
      hfaithful.pool_step hpool hstatus hI hstep⟩
  exact hboth.2

/-- Every state reached is faithful to what it has read. -/
theorem State.faithful_of_reaches {videoId : UUID} {filename key : Str}
    (hreach : Reaches State.step (.created videoId filename key) s) : s.Faithful Readings.any :=
  hreach.invariant (fun _ l _ h hstep => (h.step (Readings.any_reports l) hstep).1)
    (State.faithful_created _ videoId filename key)

/-- What `create_video` has written into the row besides the status stays. -/
def Pool.Named (videoId : UUID) (filename key : Str) (p : Pool) : Prop :=
  p.videoId = videoId ∧ p.rows.video.filename = filename ∧ p.rows.video.originalObjectKey = key

/-- An await leaves the filename alone. -/
theorem Resumes.filename {videoId : UUID} {act : Activity} {st st' : Store} {ph ph' : Phase}
    {ans : Answer} (h : Resumes videoId act st ph ans st' ph') :
    st'.rows.video.filename = st.rows.video.filename := by
  rcases h.rows_cases with heq | ⟨-, heq⟩ | ⟨f, -, heq⟩
  · rw [heq]
  · rw [heq]
  · rw [heq]
    rfl

/-- So does every step. -/
theorem Pool.Named.step {videoId : UUID} {filename key : Str} {l : PoolLabel} {p' : Pool}
    (h : p.Named videoId filename key) (hstep : p.step l = some p') :
    p'.Named videoId filename key := by
  refine ⟨(Pool.step_videoId hstep).trans h.1, ?_⟩
  cases l with
  | begin act =>
    obtain rfl := Option.some.inj hstep
    exact h.2
  | vanish i =>
    obtain ⟨_, -, rfl⟩ := Pool.vanish_eq_some hstep
    exact h.2
  | resume i ans =>
    obtain ⟨a, st, ph, -, hres, rfl⟩ := Pool.resume_eq_some hstep
    exact ⟨hres.filename.trans h.2.1, hres.originalObjectKey.trans h.2.2⟩

/-- A retry changes no number. -/
theorem Pool.InRange.withStatus (h : p.InRange) (status : VideoStatus) :
    (p.withStatus status).InRange where
  sound := fun i a ha => (h.sound i a ha).mono fun _ => id
  rows := ⟨fun c v hv => h.rows.columns c v ((Video.column_status ..).symm.trans hv),
    h.rows.attempts⟩
  flushed := h.flushed

/-! ## The rows of one video -/

/-- What the tables ask of the rows of a video. -/
structure VideoRows.Storable (videoId : UUID) (rows : VideoRows) : Prop where
  inRange : rows.InRange
  filename : ∃ request : CreateVideoRequest, rows.video.filename = request.filename
  originalObjectKey :
    rows.video.originalObjectKey = buildUploadObjectKey videoId rows.video.filename
  assets : ∀ a key, rows.assets a = some key → key = assetKey videoId a

/-- The rows of every state reached fit their tables. -/
theorem State.storable_of_reaches {videoId : UUID} {request : CreateVideoRequest}
    (hreach : Reaches State.step (.created videoId request.filename
      (buildUploadObjectKey videoId request.filename)) s) : s.rows.Storable videoId := by
  have hrange : s.pool.InRange := State.pool_of_reaches (Pool.inRange_created ..)
    (fun _ _ _ => Pool.InRange.step) (fun _ status h => h.withStatus status) hreach
  obtain ⟨hid, hfilename, hkey⟩ : s.pool.Named videoId request.filename
      (buildUploadObjectKey videoId request.filename) :=
    State.pool_of_reaches ⟨rfl, rfl, rfl⟩ (fun _ _ _ => Pool.Named.step) (fun _ _ h => h) hreach
  refine ⟨hrange.rows, ⟨request, hfilename⟩, ?_, fun a key ha => ?_⟩
  · rw [hfilename, hkey]
  · rw [← hid]
    exact (State.faithful_of_reaches hreach).pool.rows.asset_key ha

/-- The rows and the attempts of a video are those of a run of the platform around it. -/
theorem Deployment.reaches_site {settings : Settings} {dep : Deployment}
    {ls : List DeploymentLabel} {videoId : UUID} {site : Site}
    (hrun : exec (Deployment.step settings) .empty ls = some dep)
    (hsite : dep.sites videoId = some site) : ∃ (request : CreateVideoRequest) (s : State),
      Reaches State.step (.created videoId request.filename
        (buildUploadObjectKey videoId request.filename)) s ∧ s.pool = site.pool := by
  have hsome : dep.sites videoId ≠ none := hsite ▸ Option.some_ne_none site
  obtain ⟨request, -, s, ms, ds, hreach, hsim⟩ := Deployment.exec_simulates hrun hsome
  obtain rfl := Option.some.inj (hsite.symm.trans hsim.site)
  exact ⟨request, s, hreach, rfl⟩

/-- So do those of every video of the platform. -/
theorem Deployment.storable {settings : Settings} {dep : Deployment} {ls : List DeploymentLabel}
    {videoId : UUID} {site : Site}
    (hrun : exec (Deployment.step settings) .empty ls = some dep)
    (hsite : dep.sites videoId = some site) : site.pool.rows.Storable videoId := by
  obtain ⟨request, s, hreach, hpool⟩ := Deployment.reaches_site hrun hsite
  rw [← hpool]
  exact State.storable_of_reaches hreach

/-! ## The tables -/

/-- The values the code leaves to `uuid4` and to the database: the keys of the rows and
`created_at`. -/
structure RowDefaults where
  jobId : UUID → JobType → UUID
  assetId : UUID → AssetType → UUID
  videoCreatedAt : UUID → Time
  assetCreatedAt : UUID → AssetType → Time

/-- `uuid4` has drawn no identifier twice for the rows of these videos. -/
structure RowDefaults.Distinct (defaults : RowDefaults) (ids : List UUID) : Prop where
  jobId : ∀ v ∈ ids, ∀ v' ∈ ids, ∀ t t',
    defaults.jobId v t = defaults.jobId v' t' → v = v' ∧ t = t'
  assetId : ∀ v ∈ ids, ∀ v' ∈ ids, ∀ a a',
    defaults.assetId v a = defaults.assetId v' a' → v = v' ∧ a = a'

/-- A value of a `uuid` column. -/
def uuidValue (id : UUID) : Value := .uuid (BitVec.ofFin id.int)

/-- A value of an `INTEGER` column that may be null. -/
def integerValue : Option ℤ → Value
  | none => .null
  | some n => .integer n

/-- A value of a `TIMESTAMP` column that may be null. -/
def timestampValue : Option Time → Value
  | none => .null
  | some t => .timestamp t

def videoRow (defaults : RowDefaults) (videoId : UUID) (video : Video) : Row Migrations.Column
  | .id => uuidValue videoId
  | .filename => .text video.filename
  | .originalObjectKey => .text video.originalObjectKey
  | .status => .text video.status.value
  | .durationMs => integerValue video.durationMs
  | .width => integerValue video.width
  | .height => integerValue video.height
  | .createdAt => .timestamp (defaults.videoCreatedAt videoId)
  | _ => .null

def assetRow (defaults : RowDefaults) (videoId : UUID) (a : AssetType) (objectKey : Str) :
    Row Migrations.Column
  | .id => uuidValue (defaults.assetId videoId a)
  | .videoId => uuidValue videoId
  | .assetType => .text a.value
  | .objectKey => .text objectKey
  | .createdAt => .timestamp (defaults.assetCreatedAt videoId a)
  | _ => .null

def jobRow (defaults : RowDefaults) (videoId : UUID) (t : JobType) (job : ProcessingJob) :
    Row Migrations.Column
  | .id => uuidValue (defaults.jobId videoId t)
  | .videoId => uuidValue videoId
  | .jobType => .text t.value
  | .status => .text job.status.value
  | .attempts => .integer job.attempts
  | .startedAt => timestampValue job.startedAt
  | .completedAt => timestampValue job.completedAt
  | _ => .null

/-- The rows of the videos, in the order they were created. -/
def Deployment.records (dep : Deployment) : List (UUID × VideoRows) :=
  dep.created.filterMap fun id => (dep.sites id).map fun site => (id, site.pool.rows)

/-- What there is of each kind for each video. -/
def entries {β γ : Type} (kinds : List β) (f : VideoRows → β → Option γ)
    (records : List (UUID × VideoRows)) : List (UUID × β × γ) :=
  records.flatMap fun (id, rows) => kinds.filterMap fun b => (f rows b).map fun c => (id, b, c)

/-- The three tables. -/
def tables (defaults : RowDefaults) (records : List (UUID × VideoRows)) : Migrations.Rows
  | .videos => records.map fun (id, rows) => videoRow defaults id rows.video
  | .generatedAssets => (entries AssetType.members VideoRows.assets records).map
      fun (id, a, key) => assetRow defaults id a key
  | .processingJobs => (entries JobType.members VideoRows.jobs records).map
      fun (id, t, job) => jobRow defaults id t job

/-! ### Keys -/

variable {defaults : RowDefaults} {records : List (UUID × VideoRows)} {β γ : Type}
  {kinds : List β} {f : VideoRows → β → Option γ}

/-- Identifiers are told apart in the database. -/
theorem uuidValue_injective : Function.Injective uuidValue := by
  intro v w h
  obtain ⟨i⟩ := v
  obtain ⟨j⟩ := w
  exact congrArg UUID.mk (BitVec.ofFin.inj (Value.uuid.inj h))

/-- An entry comes from the rows of one video. -/
theorem mem_entries {e : UUID × β × γ} : e ∈ entries kinds f records ↔
    ∃ rows, (e.1, rows) ∈ records ∧ e.2.1 ∈ kinds ∧ f rows e.2.1 = some e.2.2 := by
  obtain ⟨id, b, c⟩ := e
  simp only [entries, List.mem_flatMap, List.mem_filterMap, Option.map_eq_some_iff, Prod.mk.injEq,
    Prod.exists]
  constructor
  · rintro ⟨id, rows, hmem, b, hb, c, hc, rfl, rfl, rfl⟩
    exact ⟨rows, hmem, hb, hc⟩
  · rintro ⟨rows, hmem, hb, hc⟩
    exact ⟨id, rows, hmem, b, hb, c, hc, rfl, rfl, rfl⟩

/-- There is at most one entry for a video and a kind. -/
theorem entries_pairwise (hrecords : (records.map Prod.fst).Nodup) (hkinds : kinds.Nodup) :
    (entries kinds f records).Pairwise fun e e' => ¬ (e.1 = e'.1 ∧ e.2.1 = e'.2.1) := by
  rw [entries, List.pairwise_flatMap]
  constructor
  · rintro ⟨id, rows⟩ -
    refine List.pairwise_filterMap.mpr (hkinds.imp ?_)
    rintro b b' hne e he e' he' ⟨-, heq⟩
    obtain ⟨c, -, rfl⟩ := Option.map_eq_some_iff.mp he
    obtain ⟨c', -, rfl⟩ := Option.map_eq_some_iff.mp he'
    exact hne heq
  · refine (List.pairwise_map.mp hrecords).imp ?_
    rintro ⟨id, rows⟩ ⟨id', rows'⟩ hne e he e' he' ⟨heq, -⟩
    obtain ⟨b, -, hb⟩ := List.mem_filterMap.mp he
    obtain ⟨b', -, hb'⟩ := List.mem_filterMap.mp he'
    obtain ⟨c, -, rfl⟩ := Option.map_eq_some_iff.mp hb
    obtain ⟨c', -, rfl⟩ := Option.map_eq_some_iff.mp hb'
    exact hne heq

/-- Rows that differ in a column of a key do not collide under it. -/
theorem not_collide {κ : Type} {key : List κ} {r r' : Row κ} {c : κ} (hc : c ∈ key)
    (hne : r' c ≠ r c) : ¬ Collide key r r' := fun h => hne (h c hc).2

/-- The keys of the table of videos hold. -/
theorem videos_unique (hrecords : (records.map Prod.fst).Nodup)
    (hstorable : ∀ id rows, (id, rows) ∈ records → rows.Storable id) :
    ∀ key ∈ Migrations.Models.video.keys,
      (tables defaults records .videos).Pairwise fun r r' => ¬ Collide key r r' := by
  intro key hkey
  refine List.pairwise_map.mpr ((List.pairwise_map.mp hrecords).imp_of_mem ?_)
  rintro ⟨id, rows⟩ ⟨id', rows'⟩ hmem hmem' hne
  rcases List.mem_cons.mp hkey with rfl | hkey
  · exact not_collide (List.mem_singleton_self _) fun heq => hne (uuidValue_injective heq.symm)
  · obtain rfl := List.mem_singleton.mp hkey
    refine not_collide (List.mem_singleton_self _) fun heq => hne ?_
    have hkeys : rows'.video.originalObjectKey = rows.video.originalObjectKey := Value.text.inj heq
    rw [(hstorable _ _ hmem).originalObjectKey, (hstorable _ _ hmem').originalObjectKey] at hkeys
    exact (buildUploadObjectKey_id hkeys).symm

/-- Those of the table of assets. -/
theorem generatedAssets_unique (hdistinct : defaults.Distinct (records.map Prod.fst))
    (hrecords : (records.map Prod.fst).Nodup)
    (hstorable : ∀ id rows, (id, rows) ∈ records → rows.Storable id) :
    ∀ key ∈ Migrations.Models.generatedAsset.keys,
      (tables defaults records .generatedAssets).Pairwise fun r r' => ¬ Collide key r r' := by
  intro key hkey
  refine List.pairwise_map.mpr
    ((entries_pairwise hrecords (by decide : AssetType.members.Nodup)).imp_of_mem ?_)
  rintro ⟨id, a, k⟩ ⟨id', a', k'⟩ hmem hmem' hne
  obtain ⟨rows, hrows, -, ha⟩ := mem_entries.mp hmem
  obtain ⟨rows', hrows', -, ha'⟩ := mem_entries.mp hmem'
  have hown : k = assetKey id a := (hstorable _ _ hrows).assets a k ha
  have hown' : k' = assetKey id' a' := (hstorable _ _ hrows').assets a' k' ha'
  -- the primary key, the object key, and the pair of the video and the type
  rcases List.mem_cons.mp hkey with rfl | hkey
  · refine not_collide (List.mem_singleton_self _) fun heq => hne ?_
    exact hdistinct.assetId id (List.mem_map_of_mem hrows) id' (List.mem_map_of_mem hrows') a a'
      (uuidValue_injective heq.symm)
  rcases List.mem_cons.mp hkey with rfl | hkey
  · refine not_collide (List.mem_singleton_self _) fun heq => hne ?_
    have hkeys : k' = k := Value.text.inj heq
    exact assetKey_inj (hown.symm.trans (hkeys.symm.trans hown'))
  · obtain rfl := List.mem_singleton.mp hkey
    intro hcollide
    have hid := (hcollide .videoId (by decide)).2
    have htype := (hcollide .assetType (by decide)).2
    exact hne ⟨uuidValue_injective hid.symm, AssetType.value_injective (Value.text.inj htype.symm)⟩

/-- And those of the table of jobs. -/
theorem processingJobs_unique (hdistinct : defaults.Distinct (records.map Prod.fst))
    (hrecords : (records.map Prod.fst).Nodup) :
    ∀ key ∈ Migrations.Models.processingJob.keys,
      (tables defaults records .processingJobs).Pairwise fun r r' => ¬ Collide key r r' := by
  intro key hkey
  refine List.pairwise_map.mpr
    ((entries_pairwise hrecords (by decide : JobType.members.Nodup)).imp_of_mem ?_)
  rintro ⟨id, t, job⟩ ⟨id', t', job'⟩ hmem hmem' hne
  obtain ⟨rows, hrows, -, -⟩ := mem_entries.mp hmem
  obtain ⟨rows', hrows', -, -⟩ := mem_entries.mp hmem'
  rcases List.mem_cons.mp hkey with rfl | hkey
  · refine not_collide (List.mem_singleton_self _) fun heq => hne ?_
    exact hdistinct.jobId id (List.mem_map_of_mem hrows) id' (List.mem_map_of_mem hrows') t t'
      (uuidValue_injective heq.symm)
  · obtain rfl := List.mem_singleton.mp hkey
    intro hcollide
    have hid := (hcollide .videoId (by decide)).2
    have htype := (hcollide .jobType (by decide)).2
    exact hne ⟨uuidValue_injective hid.symm, JobType.value_injective (Value.text.inj htype.symm)⟩

/-! ### Types and checks -/

/-- A filename fits its column. -/
theorem CreateVideoRequest.length_filename (request : CreateVideoRequest) :
    request.filename.length ≤ 255 := (strField_eq_ok.mp request.filename_ok).2.1

/-- The suffix is a part of the filename, so the key is not longer than its column. -/
theorem CreateVideoRequest.length_key (request : CreateVideoRequest) (videoId : UUID) :
    (buildUploadObjectKey videoId request.filename).length ≤ 1024 := by
  obtain ⟨-, -, hvalid⟩ := strField_eq_ok.mp request.filename_ok
  obtain ⟨-, hname, hsuffix⟩ := validateFilename_eq_ok.mp hvalid
  obtain ⟨extension, hextension⟩ := Pathlib.suffix_ne_nil.mp hsuffix
  rw [Pathlib.suffix, hname] at hextension
  obtain ⟨-, stem, hparts, -⟩ := Pathlib.splitext_snd.mp hextension
  have hpart : (46 :: extension).length ≤ request.filename.length := by
    rw [hparts, List.length_append]
    exact Nat.le_add_left ..
  have hlength := request.length_filename
  have hfront : (str "uploads/").length = 8 := rfl
  have hmiddle : (str "/original").length = 9 := rfl
  rw [buildUploadObjectKey, Pathlib.suffix, hname, hextension]
  simp only [List.length_append, UUID.length_str, hfront, hmiddle]
  omega

/-- So does the key of an asset. -/
theorem length_assetKey (videoId : UUID) (a : AssetType) : (assetKey videoId a).length ≤ 61 := by
  cases a <;> simp only [assetKey, thumbnailKey, List.length_append, UUID.length_str] <;> decide

/-- An optional integer in range is a value of a nullable `INTEGER` column. -/
theorem admits_integerValue {o : Option ℤ} (h : ∀ v, o = some v → fitsInteger v = true) :
    ColumnDef.admits ⟨.integer, true⟩ (integerValue o) = true := by
  cases o with
  | none => rfl
  | some v => exact h v rfl

/-- A timestamp may be missing. -/
theorem admits_timestampValue (o : Option Time) :
    ColumnDef.admits ⟨.timestamptz, true⟩ (timestampValue o) = true := by
  cases o <;> rfl

/-- A text that is short enough. -/
theorem admits_text {n : ℕ} {s : Str} (h : s.length ≤ n) :
    ColumnDef.admits ⟨.varchar n, false⟩ (.text s) = true := decide_eq_true h

/-- A row of a video fits its table. -/
theorem stores_videoRow {videoId : UUID} {rows : VideoRows} (h : rows.Storable videoId)
    (c : Migrations.Column) :
    Migrations.Models.video.stores c (videoRow defaults videoId rows.video c) = true := by
  cases c with
  | filename =>
    obtain ⟨request, hfilename⟩ := h.filename
    refine admits_text ?_
    rw [hfilename]
    exact request.length_filename
  | originalObjectKey =>
    obtain ⟨request, hfilename⟩ := h.filename
    refine admits_text ?_
    rw [h.originalObjectKey, hfilename]
    exact request.length_key videoId
  | status =>
    refine admits_text ?_
    cases rows.video.status <;> decide
  | durationMs => exact admits_integerValue (h.inRange.columns .durationMs)
  | width => exact admits_integerValue (h.inRange.columns .width)
  | height => exact admits_integerValue (h.inRange.columns .height)
  | _ => rfl

/-- So does the row of an asset. -/
theorem stores_assetRow {videoId : UUID} {a : AssetType} {key : Str}
    (h : key = assetKey videoId a) (c : Migrations.Column) :
    Migrations.Models.generatedAsset.stores c (assetRow defaults videoId a key c) = true := by
  cases c with
  | assetType =>
    refine admits_text ?_
    cases a <;> decide
  | objectKey =>
    refine admits_text ?_
    rw [h]
    exact (length_assetKey videoId a).trans (by decide)
  | _ => rfl

/-- And the row of a job. -/
theorem stores_jobRow {videoId : UUID} {t : JobType} {job : ProcessingJob}
    (h : fitsInteger job.attempts = true) (c : Migrations.Column) :
    Migrations.Models.processingJob.stores c (jobRow defaults videoId t job c) = true := by
  cases c with
  | jobType =>
    refine admits_text ?_
    cases t <;> decide
  | status =>
    refine admits_text ?_
    cases job.status <;> decide
  | attempts => exact h
  | startedAt => exact admits_timestampValue job.startedAt
  | completedAt => exact admits_timestampValue job.completedAt
  | _ => rfl

/-- The table of videos as a whole. -/
theorem videos_fit (hrecords : (records.map Prod.fst).Nodup)
    (hstorable : ∀ id rows, (id, rows) ∈ records → rows.Storable id) :
    Migrations.Models.video.Fits (tables defaults records .videos) := by
  refine ⟨fun r hr c => ?_, fun r hr name check hcheck => ?_, videos_unique hrecords hstorable⟩
  · obtain ⟨⟨id, rows⟩, hmem, rfl⟩ := List.mem_map.mp hr
    exact stores_videoRow (hstorable id rows hmem) c
  · obtain ⟨⟨id, rows⟩, hmem, rfl⟩ := List.mem_map.mp hr
    cases name <;> cases hcheck
    refine .inr ⟨rows.video.status.value, ?_, rfl⟩
    cases rows.video.status <;> decide

/-- The table of assets. -/
theorem generatedAssets_fit (hdistinct : defaults.Distinct (records.map Prod.fst))
    (hrecords : (records.map Prod.fst).Nodup)
    (hstorable : ∀ id rows, (id, rows) ∈ records → rows.Storable id) :
    Migrations.Models.generatedAsset.Fits (tables defaults records .generatedAssets) := by
  refine ⟨fun r hr c => ?_, fun r hr name check hcheck => ?_,
    generatedAssets_unique hdistinct hrecords hstorable⟩
  · obtain ⟨⟨id, a, key⟩, hmem, rfl⟩ := List.mem_map.mp hr
    obtain ⟨rows, hrows, -, ha⟩ := mem_entries.mp hmem
    exact stores_assetRow ((hstorable id rows hrows).assets a key ha) c
  · obtain ⟨⟨id, a, key⟩, hmem, rfl⟩ := List.mem_map.mp hr
    cases name <;> cases hcheck
    exact .inr ⟨a.value, List.mem_map_of_mem a.mem_members, rfl⟩

/-- The table of jobs. -/
theorem processingJobs_fit (hdistinct : defaults.Distinct (records.map Prod.fst))
    (hrecords : (records.map Prod.fst).Nodup)
    (hstorable : ∀ id rows, (id, rows) ∈ records → rows.Storable id) :
    Migrations.Models.processingJob.Fits (tables defaults records .processingJobs) := by
  refine ⟨fun r hr c => ?_, fun r hr name check hcheck => ?_,
    processingJobs_unique hdistinct hrecords⟩
  · obtain ⟨⟨id, t, job⟩, hmem, rfl⟩ := List.mem_map.mp hr
    obtain ⟨rows, hrows, -, hjob⟩ := mem_entries.mp hmem
    exact stores_jobRow ((hstorable id rows hrows).inRange.attempts t job hjob) c
  · obtain ⟨⟨id, t, job⟩, hmem, rfl⟩ := List.mem_map.mp hr
    cases name <;> cases hcheck
    · exact .inr ⟨t.value, List.mem_map_of_mem t.mem_members, rfl⟩
    · refine .inr ⟨job.status.value, ?_, rfl⟩
      cases job.status <;> decide

/-- Whoever refers to a video of the records finds its row. -/
theorem exists_videoRow {id : UUID} {rows : VideoRows} (hmem : (id, rows) ∈ records) :
    ∃ r ∈ tables defaults records .videos, r .id = uuidValue id :=
  ⟨_, List.mem_map_of_mem hmem, rfl⟩

/-- **The rows satisfy the schema.** -/
theorem tables_hold (hdistinct : defaults.Distinct (records.map Prod.fst))
    (hrecords : (records.map Prod.fst).Nodup)
    (hstorable : ∀ id rows, (id, rows) ∈ records → rows.Storable id) :
    Migrations.Models.schema.Holds (tables defaults records) := by
  refine ⟨fun t ht => ?_, fun t d hd => ?_, fun t d hd fk hfk r hr => ?_⟩
  -- the schema has every table
  · cases t <;> cases ht
  · cases t with
    | videos =>
      obtain rfl := Option.some.inj hd
      exact videos_fit hrecords hstorable
    | generatedAssets =>
      obtain rfl := Option.some.inj hd
      exact generatedAssets_fit hdistinct hrecords hstorable
    | processingJobs =>
      obtain rfl := Option.some.inj hd
      exact processingJobs_fit hdistinct hrecords hstorable
  · cases t with
    | videos =>
      obtain rfl := Option.some.inj hd
      cases hfk
    | generatedAssets =>
      obtain rfl := Option.some.inj hd
      obtain rfl := List.mem_singleton.mp hfk
      obtain ⟨⟨id, a, key⟩, hmem, rfl⟩ := List.mem_map.mp hr
      obtain ⟨rows, hrows, -, -⟩ := mem_entries.mp hmem
      -- a job or an asset is listed under its video, so the row it refers to is there
      exact .inr (exists_videoRow hrows)
    | processingJobs =>
      obtain rfl := Option.some.inj hd
      obtain rfl := List.mem_singleton.mp hfk
      obtain ⟨⟨id, t, job⟩, hmem, rfl⟩ := List.mem_map.mp hr
      obtain ⟨rows, hrows, -, -⟩ := mem_entries.mp hmem
      exact .inr (exists_videoRow hrows)

/-! ## The whole platform -/

/-- The videos created are distinct, and all are there. -/
structure Deployment.Listed (dep : Deployment) : Prop where
  nodup : dep.created.Nodup
  known : ∀ id ∈ dep.created, dep.sites id ≠ none

variable {settings : Settings} {dep dep' : Deployment}

/-- Steps that create no video and lose none. -/
theorem Deployment.Listed.of_eq (h : dep.Listed) (hcreated : dep'.created = dep.created)
    (hsites : ∀ id, dep.sites id ≠ none → dep'.sites id ≠ none) : dep'.Listed where
  nodup := hcreated ▸ h.nodup
  known := fun id hid => hsites id (h.known id (hcreated ▸ hid))

/-- A start creates no video. -/
theorem Deployment.created_serve (dep : Deployment) (videoId : UUID) :
    (dep.serve videoId).1.created = dep.created := by
  rw [Deployment.serve]
  split <;> rfl

/-- Every step keeps the list of the videos. -/
theorem Deployment.Listed.step {l : DeploymentLabel} (h : dep.Listed)
    (hstep : dep.step settings l = some dep') : dep'.Listed := by
  -- what becomes of a delivery does not touch the tables
  have hput (d m : ℕ) (handling : Option Shim.Handling) : (dep.put d m handling).Listed :=
    h.of_eq rfl fun _ => id
  cases l with
  | create videoId request =>
    obtain ⟨hsite, -, rfl⟩ := Deployment.create_eq_some hstep
    constructor
    · refine List.nodup_append.mpr ⟨h.nodup, List.nodup_singleton _, ?_⟩
      rintro id hid _ hnew rfl
      obtain rfl := List.mem_singleton.mp hnew
      exact h.known id hid hsite
    · intro id hid
      -- the listed videos are those with a site
      by_cases heq : id = videoId
      · subst heq
        simp
      · show Function.update dep.sites videoId _ id ≠ none
        rw [Function.update_of_ne heq]
        refine h.known id ((List.mem_append.mp hid).resolve_right fun hnew => heq ?_)
        exact List.mem_singleton.mp hnew
  | onSite videoId l =>
    obtain ⟨site, s, -, -, -, hpost⟩ := Deployment.onSite_eq_some hstep
    have hsite : (dep.withSite videoId s).Listed := by
      refine h.of_eq rfl fun id hid => ?_
      by_cases heq : id = videoId
      · subst heq
        rw [Deployment.withSite_sites_self]
        exact Option.some_ne_none _
      · rwa [dep.withSite_sites_of_ne s heq]
    rcases hpost with ⟨-, rfl⟩ | ⟨video, body, -, -, rfl⟩
    · exact hsite
    · exact hsite.of_eq rfl fun _ => id
  | post body =>
    rw [Deployment.step, Option.ite_none_right_eq_some] at hstep
    obtain rfl := Option.some.inj hstep.2
    exact h.of_eq rfl fun _ => id
  | receive m =>
    obtain ⟨posted, -, -, rfl⟩ := Deployment.receive_eq_some hstep
    exact h.of_eq rfl fun _ => id
  | read d ok =>
    obtain ⟨m, _, _, _, _, -, rfl | rfl⟩ := Deployment.read_eq_some hstep <;> exact hput d m _
  | start d reply =>
    obtain ⟨m, _, videoId, _, -, hcases⟩ := Deployment.start_eq_some hstep
    have hserve (handling : Option Shim.Handling) :
        ((dep.serve videoId).1.put d m handling).Listed := by
      refine h.of_eq (dep.created_serve videoId) fun id hid => ?_
      change (dep.serve videoId).1.sites id ≠ none
      rwa [Deployment.sites_serve]
    rcases hcases with ⟨-, rfl⟩ | ⟨-, rfl⟩ | ⟨-, rfl⟩
    exacts [hput d m _, hserve _, hserve _]
  | delete d reply =>
    obtain ⟨m, _, -, -, rfl | rfl⟩ := Deployment.delete_eq_some hstep
    · exact hput d m _
    · exact h.of_eq rfl fun _ => id
  | cutOff d =>
    obtain ⟨receipt, -, rfl⟩ := Option.map_eq_some_iff.mp hstep
    exact hput d receipt.message none

/-- So does every run. -/
theorem Deployment.listed_exec {ls : List DeploymentLabel}
    (hrun : exec (Deployment.step settings) .empty ls = some dep) : dep.Listed :=
  exec_invariant (fun _ _ _ h hstep => Deployment.Listed.step h hstep)
    ⟨List.nodup_nil, fun _ hid => by cases hid⟩ hrun

/-- The records are the rows of the videos there are. -/
theorem Deployment.mem_records {id : UUID} {rows : VideoRows} (h : (id, rows) ∈ dep.records) :
    ∃ site, dep.sites id = some site ∧ rows = site.pool.rows := by
  obtain ⟨id', -, hrecord⟩ := List.mem_filterMap.mp h
  obtain ⟨site, hsite, heq⟩ := Option.map_eq_some_iff.mp hrecord
  obtain ⟨rfl, rfl⟩ := Prod.mk.inj heq
  exact ⟨site, hsite, rfl⟩

/-- Every video created has its row. -/
theorem Deployment.Listed.records_fst (h : dep.Listed) :
    dep.records.map Prod.fst = dep.created := by
  have hid : ∀ id ∈ dep.created, (dep.sites id).map (fun _ => id) = some id := by
    intro id hmem
    obtain ⟨site, hsite⟩ := Option.ne_none_iff_exists'.mp (h.known id hmem)
    rw [hsite, Option.map_some]
  rw [Deployment.records, List.map_filterMap]
  simp only [Option.map_map]
  exact (List.filterMap_congr hid).trans List.filterMap_some

/-- **The platform keeps the schema the migrations leave.** Both migrations run on an empty
database; whatever the platform then does, with any number of videos, overlapping attempts and any
readings of ffprobe, its rows satisfy every constraint they have created: lengths, integer ranges,
checks, keys across videos and foreign keys. -/
theorem deployment_conforms {ls : List DeploymentLabel}
    (hrun : exec (Deployment.step settings) .empty ls = some dep)
    (hdistinct : defaults.Distinct dep.created) :
    ∃ db, exec Database.step Database.empty
        (Migrations.CreateInitialTables.upgrade ++ Migrations.AddTranscodeJobTypes.upgrade) =
          some db ∧
      db.schema.Holds (tables defaults dep.records) := by
  obtain ⟨h, hmigrated⟩ := Migrations.upgrade_head
  have hlisted := Deployment.listed_exec hrun
  have hfst := hlisted.records_fst
  refine ⟨_, hmigrated, tables_hold (hfst ▸ hdistinct) (hfst ▸ hlisted.nodup) ?_⟩
  intro id rows hmem
  obtain ⟨site, hsite, rfl⟩ := Deployment.mem_records hmem
  exact Deployment.storable hrun hsite

/-- Some defaults: identifiers after that of the video. -/
def RowDefaults.counting : RowDefaults where
  jobId := fun v t => ⟨v.int + match t with
    | .metadata => 100
    | .thumbnail => 200
    | .transcode => 300⟩
  assetId := fun v a => ⟨v.int + match a with
    | .thumbnail => 100
    | .preview1080p => 200
    | .preview720p => 300
    | .preview480p => 400⟩
  videoCreatedAt := fun _ => 0
  assetCreatedAt := fun _ _ => 0

/-- The rows of two videos in the migrated database. -/
theorem deployment_conforms_clip : ∃ dep db,
    exec (Deployment.step videosBucket) .empty Deployment.twoVideos = some dep ∧
    exec Database.step Database.empty
      (Migrations.CreateInitialTables.upgrade ++ Migrations.AddTranscodeJobTypes.upgrade) =
        some db ∧
    db.schema.Holds (tables .counting dep.records) := by
  have hruns : (exec (Deployment.step videosBucket) .empty Deployment.twoVideos).any fun dep =>
      dep.created = [⟨7⟩, ⟨8⟩] := by decide +kernel
  obtain ⟨dep, hrun, hcreated⟩ := (Option.any_eq_true _ _).mp hruns
  have hdistinct : RowDefaults.counting.Distinct dep.created := by
    rw [of_decide_eq_true hcreated]
    exact ⟨by decide +kernel, by decide +kernel⟩
  obtain ⟨db, hmigrated, hholds⟩ := deployment_conforms hrun hdistinct
  exact ⟨dep, db, hrun, hmigrated, hholds⟩

end VideoProcessing
