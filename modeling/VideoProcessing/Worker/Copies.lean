import VideoProcessing.Worker.Stored

/-!
# Copies of the metadata columns

A session reads the videos row once. What its copy has of the metadata is stored, as long as no
completion of the metadata job replaces stored values; what its copy lacks may have been stored
since.
-/

namespace VideoProcessing

open Python UnitOfWork

/-- What the copy has of the metadata, the row has. -/
def Video.Within (copy row : Video) : Prop :=
  ∀ c v, copy.column c = some v → row.column c = some v

/-- The row has this metadata. -/
def Video.Shows (row : Video) (m : VideoMetadata) : Prop :=
  ∀ c, row.column c = some (m.column c)

/-- The copy a session has loaded, up to the flush of a completion. -/
def Phase.loaded? : Phase → Option Video
  | .selectJob video | .insertJob video => some video.loaded
  | .commitClaim f | .work f _ | .selectAsset f _ | .flush f => some f.video.loaded
  | _ => none

/-- After the flush of a completion: the metadata job has flushed the columns that its result
changes, and the other jobs none. -/
def Frame.Flushes (act : Activity) (row : Video) (f : Frame) : Prop :=
  act = .extractMetadata ∧ (∃ m, f.metadata = some m ∧ ∀ c,
    f.flushed.video.column c = some (some (m.column c)) ∨
      f.flushed.video.column c = none ∧ row.column c = some (m.column c)) ∨
  act ≠ .extractMetadata ∧ ∀ c, f.flushed.video.column c = none

/-- What the session of an attempt has of the metadata. -/
structure Attempt.Copies (rows : VideoRows) (a : Attempt) : Prop where
  loaded : ∀ copy, a.phase.loaded? = some copy → copy.Within rows.video
  flushed : ∀ f, a.phase = .countCompleted f ∨ a.phase = .commitCompletion f →
    f.Flushes a.activity rows.video
  failing : a.activity = .extractMetadata → ∀ f error, a.phase = .failJob f error →
    error.nonRetryable = false

variable {videoId : UUID} {act : Activity} {st st' : Store} {rows rows' : VideoRows}
  {ph ph' : Phase} {ans : Answer} {f : Frame} {a : Attempt} {m : VideoMetadata}
  {copy row row' : Video}

/-! ## Columns -/

/-- A row is within itself. -/
theorem Video.Within.refl (row : Video) : row.Within row := fun _ _ => id

/-- What is within a row stays within what the row becomes. -/
theorem Video.Within.trans (h : copy.Within row) (h' : row.Within row') : copy.Within row' :=
  fun c v hv => h' c v (h c v hv)

/-- By its columns. -/
theorem Video.within_of_column (h : ∀ c, copy.column c = row.column c) : copy.Within row :=
  fun c _ hv => (h c).symm.trans hv

/-- What is shown goes on being shown. -/
theorem Video.Shows.mono (h : row.Shows m) (hwithin : row.Within row') : row'.Shows m :=
  fun c => hwithin c _ (h c)

/-- All three columns hold the metadata. -/
theorem Video.shows_iff : row.Shows m ↔ row.metadata = m.columns := by
  simp only [Video.metadata, VideoMetadata.columns, Prod.mk.injEq]
  constructor
  · intro h
    exact ⟨h .durationMs, h .width, h .height⟩
  · rintro ⟨hd, hw, hh⟩ (_ | _ | _)
    exacts [hd, hw, hh]

/-- A copy that has all of the metadata yields it. -/
theorem storedMetadata_eq_ok : storedMetadata videoId copy = .ok m ↔ copy.Shows m := by
  rw [Video.shows_iff, storedMetadata]
  obtain ⟨durationMs, width, height⟩ := m
  rcases copy with ⟨_, _, _, _ | d, _ | w, _ | h⟩ <;>
    simp [Video.metadata, VideoMetadata.columns]

/-- And one that lacks some of it raises the error. -/
theorem storedMetadata_eq_error (h : ∀ m, ¬ copy.Shows m) :
    storedMetadata videoId copy = .error (noStoredMetadata videoId) := by
  cases hresult : storedMetadata videoId copy with
  | ok m => exact absurd (storedMetadata_eq_ok.mp hresult) (h m)
  | error e =>
    rw [storedMetadata] at hresult
    split at hresult
    · cases hresult
    · exact hresult.symm

/-! ## One await to the next -/

/-- A completion goes on with the copy that was loaded. -/
theorem completing_loaded (assets : List (AssetType × Str)) :
    (completing f assets).loaded? = some f.video.loaded := by
  cases assets <;> rfl

/-- So does its beginning. -/
theorem complete_loaded {now : Time} (h : complete videoId act f now = some ph) :
    ph.loaded? = some f.video.loaded := by
  cases act with
  | extractMetadata =>
    obtain ⟨m, -, rfl⟩ := Option.map_eq_some_iff.mp h
    exact completing_loaded _
  | generateThumbnail | transcode =>
    obtain rfl := Option.some.inj h
    exact completing_loaded _

/-- And the work. -/
theorem working_loaded {now : Time} {todo : List Io}
    (h : working videoId act f now todo = some ph) : ph.loaded? = some f.video.loaded := by
  cases todo with
  | nil => exact complete_loaded h
  | cons io todo =>
    obtain rfl := Option.some.inj h
    rfl

/-- And the attempt that has claimed. -/
theorem claimed_loaded (h : (claimed videoId act f).loaded? = some copy) :
    copy = f.video.loaded := by
  cases act with
  | transcode =>
    rw [claimed] at h
    split at h
    · cases h
    · exact (Option.some.inj h).symm
  | extractMetadata | generateThumbnail => exact (Option.some.inj h).symm

/-- One that is over has no copy. -/
theorem alreadyCompleted_loaded (video : Tracked Video) :
    (alreadyCompleted videoId act video).loaded? = none := by
  cases act with
  | extractMetadata =>
    rw [alreadyCompleted]
    split <;> rfl
  | generateThumbnail | transcode => rfl

/-- A claim changes no metadata in its session. -/
theorem Frame.Claiming.column (h : f.Claiming) (c : Column) :
    f.video.current.column c = f.video.loaded.column c := by
  obtain ⟨now, video, job, -, rfl⟩ := h
  change video.claim.column c = video.column c
  rw [video.claim_eq, Video.column_status]

/-- A session has what it had, or what it has just read. -/
theorem Resumes.loaded_cases (h : Resumes videoId act st ph ans st' ph')
    (hshaped : ph.Shaped videoId act) (hcopy : ph'.loaded? = some copy) :
    copy = st.rows.video ∨ ∃ copy₀, ph.loaded? = some copy₀ ∧
      ∀ c, copy.column c = copy₀.column c := by
  cases h with
  | load => exact .inl (Option.some.inj hcopy).symm
  | selectNone | selectJob | insert => exact .inr ⟨copy, hcopy, fun _ => rfl⟩
  | commitClaim =>
    obtain rfl := claimed_loaded hcopy
    exact .inr ⟨_, rfl, hshaped.column⟩
  | call _ _ hwork | probe hwork | upload hwork =>
    exact .inr ⟨copy, (working_loaded hwork).symm.trans hcopy, fun _ => rfl⟩
  | selectAsset =>
    obtain rfl := Option.some.inj ((completing_loaded _).symm.trans hcopy)
    exact .inr ⟨_, rfl, fun _ => rfl⟩
  | selectCompleted => cases (alreadyCompleted_loaded _).symm.trans hcopy
  | _ => cases hcopy

/-- The flush of a completion. -/
theorem Frame.Completing.flushes (h : f.Completing act) (hwithin : f.video.loaded.Within row) :
    f.flush.Flushes act row := by
  have hcolumn (c : Column) : f.flush.flushed.video.column c =
      dirty (f.video.loaded.column c) (f.video.current.column c) := dirtyVideo_column f.video c
  by_cases hact : act = .extractMetadata
  · have hvideo := h.video
    subst hact
    obtain ⟨m, hm, hcurrent⟩ := hvideo
    refine .inl ⟨rfl, m, hm, fun c => ?_⟩
    have hcurrent : f.video.current.column c = some (m.column c) := by
      rw [hcurrent]
      cases c <;> rfl
    rw [hcolumn, hcurrent]
    by_cases heq : some (m.column c) = f.video.loaded.column c
    · exact .inr ⟨dirty_eq_none.mpr heq, hwithin c _ heq.symm⟩
    · exact .inl (dirty_of_ne heq)
  · refine .inr ⟨hact, fun c => ?_⟩
    rw [hcolumn, dirty_eq_none]
    rcases h.column c with ⟨heq, -⟩ | ⟨heq, -⟩
    · exact heq
    · exact absurd heq hact

/-- What was flushed is still within the row. -/
theorem Frame.Flushes.mono (h : f.Flushes act row) (hwithin : row.Within row') :
    f.Flushes act row' := by
  rcases h with ⟨hact, m, hm, hcolumns⟩ | h
  · exact .inl ⟨hact, m, hm, fun c => (hcolumns c).imp_right (And.imp_right (hwithin c _))⟩
  · exact .inr h

/-- Copies stay within a row that keeps its columns. -/
theorem Attempt.Copies.mono (h : a.Copies rows) (hwithin : rows.video.Within rows'.video) :
    a.Copies rows' :=
  ⟨fun copy hcopy => (h.loaded copy hcopy).trans hwithin,
    fun f hf => (h.flushed f hf).mono hwithin, h.failing⟩

/-- The handler of the metadata activity has caught an error of S3, ffprobe or the database. -/
theorem Resumes.failJob_retryable {error : ActivityError}
    (h : Resumes videoId .extractMetadata st ph ans st' ph') (hph' : ph' = .failJob f error) :
    error.nonRetryable = false := by
  cases h with
  | workFails | completionFails | noConnection =>
    obtain ⟨-, rfl⟩ := Phase.failJob.inj hph'
    rfl
  | selectCompleted =>
    rw [alreadyCompleted] at hph'
    split at hph' <;> cases hph'
  | commitClaim => cases hph'
  | call _ _ hwork | probe hwork | upload hwork =>
    subst hph'
    exact absurd (working_underway hwork) Bool.false_ne_true
  | @selectAsset _ _ _ _ todo => cases todo <;> cases hph'
  | _ => cases hph'

/-- Before the load and after the end there is no copy. -/
theorem Attempt.copies_idle (hph : ph = .loadVideo ∨ ph = .vanished) :
    Attempt.Copies rows ⟨act, ph⟩ where
  loaded := fun copy hcopy => by rcases hph with rfl | rfl <;> cases hcopy
  flushed := fun f hf => by rcases hph with rfl | rfl <;> rcases hf with hf | hf <;> cases hf
  failing := fun _ f error hf => by rcases hph with rfl | rfl <;> cases hf

/-- An await keeps the copy within the row. -/
theorem Resumes.copies (h : Resumes videoId act st ph ans st' ph')
    (hshaped : ph.Shaped videoId act) (hcopies : Attempt.Copies st.rows ⟨act, ph⟩)
    (hwithin : st.rows.video.Within st'.rows.video) : Attempt.Copies st'.rows ⟨act, ph'⟩ where
  loaded := fun copy hcopy => by
    rcases h.loaded_cases hshaped hcopy with rfl | ⟨copy₀, hcopy₀, hcolumns⟩
    · exact hwithin
    · exact (Video.within_of_column hcolumns).trans ((hcopies.loaded copy₀ hcopy₀).trans hwithin)
  flushed := fun g hg => by
    refine Frame.Flushes.mono ?_ hwithin
    rcases hg with hg | hg
    · obtain ⟨f, rfl, -, rfl⟩ := h.countCompleted_cases hg
      exact hshaped.1.flushes (hcopies.loaded _ rfl)
    · obtain ⟨f, rfl, -, rfl⟩ := h.commitCompletion_cases hg
      have hflushes := hcopies.flushed f (.inl rfl)
      cases allJobsCompleted (f.flushed.apply act.jobType st.rows) <;> exact hflushes
  failing := fun hact f error hf => by
    obtain rfl : act = .extractMetadata := hact
    exact h.failJob_retryable hf

/-! ## What a completion stores -/

/-- The commit stores the columns that were flushed. -/
theorem Frame.Flushed.commit_column (h : f.Flushed) (t : JobType) (c : Column) :
    (f.commit t rows).video.column c = put (f.flushed.video.column c) (rows.video.column c) := by
  rw [h.commit_eq, Video.column_status]
  exact VideoSet.apply_column _ _ c

/-- The metadata job leaves its result in the row. -/
theorem Frame.Flushes.commit_shows (h : f.Flushes .extractMetadata rows.video) (hf : f.Flushed)
    (t : JobType) : ∃ m, f.metadata = some m ∧ (f.commit t rows).video.Shows m := by
  rcases h with ⟨-, m, hm, hcolumns⟩ | ⟨hact, -⟩
  · refine ⟨m, hm, fun c => ?_⟩
    rw [hf.commit_column]
    rcases hcolumns c with heq | ⟨heq, hrow⟩ <;> rw [heq]
    · rfl
    · exact hrow
  · exact absurd rfl hact

/-- The other jobs leave the metadata as it is. -/
theorem Frame.Flushes.commit_column_of_ne (h : f.Flushes act rows.video) (hf : f.Flushed)
    (hact : act ≠ .extractMetadata) (t : JobType) (c : Column) :
    (f.commit t rows).video.column c = rows.video.column c := by
  rcases h with ⟨heq, -⟩ | ⟨-, hcolumns⟩
  · exact absurd heq hact
  · rw [hf.commit_column, hcolumns c, put_none]

/-- What the row has stays, unless a completion of the metadata job has another result. -/
theorem Resumes.within (h : Resumes videoId act st ph ans st' ph')
    (hshaped : ph.Shaped videoId act) (hcopies : Attempt.Copies st.rows ⟨act, ph⟩)
    (hkeep : ∀ now f, ans = .ok now → act = .extractMetadata → ph = .commitCompletion f →
      ∀ m, f.metadata = some m → ∀ c v, st.rows.video.column c = some v → v = m.column c) :
    st.rows.video.Within st'.rows.video := by
  have hstatus {w : Writes} (hw : w.StatusOnly) :
      st.rows.video.Within (w.apply act.jobType st.rows).video :=
    Video.within_of_column fun c => (hw.sameData.columns c).symm
  cases h with
  | commitClaim =>
    rw [hshaped.commit_eq]
    exact hstatus hshaped.statusOnly
  | failJob htx =>
    rw [(hshaped htx).commit_eq]
    exact hstatus (hshaped htx).statusOnly
  | @commitCompletion now f =>
    have hflushes := hcopies.flushed f (.inr rfl)
    -- a column that is set keeps its value, and the other activities write no column
    by_cases hact : act = .extractMetadata
    · subst hact
      obtain ⟨m, hm, hshows⟩ := hflushes.commit_shows hshaped Activity.extractMetadata.jobType
      intro c v hv
      rw [hkeep now f rfl rfl rfl m hm c v hv]
      exact hshows c
    · exact Video.within_of_column fun c =>
        (hflushes.commit_column_of_ne hshaped hact act.jobType c).symm
  | _ => exact .refl _

/-! ## What the metadata activity comes to -/

/-- The metadata activity has not found a completed job without metadata, and what it has returned
is stored. -/
def Attempt.Yields (videoId : UUID) (rows : VideoRows) (a : Attempt) : Prop :=
  a.activity = .extractMetadata → a.phase ≠ .raised (noStoredMetadata videoId) ∧
    ∀ result, a.phase = .returned result →
      ∃ m, result = some m ∧ rows.video.metadata = m.columns

/-- What was reported is still shown. -/
theorem Attempt.Yields.mono (h : a.Yields videoId rows)
    (hwithin : rows.video.Within rows'.video) : a.Yields videoId rows' := by
  intro hact
  obtain ⟨hraised, hreturned⟩ := h hact
  refine ⟨hraised, fun result hresult => ?_⟩
  obtain ⟨m, hm, hmetadata⟩ := hreturned result hresult
  exact ⟨m, hm, Video.shows_iff.mp ((Video.shows_iff.mpr hmetadata).mono hwithin)⟩

/-- Before the load and after the end nothing is reported. -/
theorem Attempt.yields_idle (hph : ph = .loadVideo ∨ ph = .vanished) :
    Attempt.Yields videoId rows ⟨act, ph⟩ := by
  refine fun _ => ⟨fun heq => ?_, fun result hresult => ?_⟩
  · rcases hph with rfl | rfl <;> cases heq
  · rcases hph with rfl | rfl <;> cases hresult

/-- The select that finds the job completed: whatever it finds is stored, and it finds it exactly
when the copy is as the row. -/
theorem yields_alreadyCompleted {video : Tracked Video} (hcurrent : video.current = video.loaded)
    (hwithin : video.loaded.Within rows.video) (hstored : ∃ m, rows.video.Shows m) :
    Attempt.Yields videoId rows
        ⟨.extractMetadata, alreadyCompleted videoId .extractMetadata video⟩ ↔
      video.current.metadata = rows.video.metadata := by
  obtain ⟨m, hm⟩ := hstored
  have hrow := Video.shows_iff.mp hm
  by_cases hcopy : video.current.Shows m
  · have hmetadata := Video.shows_iff.mp hcopy
    have hreturned : alreadyCompleted videoId .extractMetadata video = .returned (some m) := by
      simp only [alreadyCompleted, storedMetadata_eq_ok.mpr hcopy]
    rw [hreturned]
    refine iff_of_true (fun _ => ⟨fun heq => (by cases heq), fun result hresult => ?_⟩)
      (hmetadata.trans hrow.symm)
    exact ⟨m, (Phase.returned.inj hresult).symm, hrow⟩
  · have hnone (m' : VideoMetadata) : ¬ video.current.Shows m' := by
      intro hshows
      have hm' : rows.video.Shows m' := hshows.mono (hcurrent ▸ hwithin)
      refine hcopy fun c => (hshows c).trans ?_
      exact (hm' c).symm.trans (hm c)
    refine iff_of_false (fun hyields => ?_) fun hmetadata => ?_
    · refine (hyields rfl).1 ?_
      simp only [alreadyCompleted, storedMetadata_eq_error hnone]
    · exact hcopy (Video.shows_iff.mpr (hmetadata.trans hrow))

/-- Every other await of the metadata activity comes to what is stored. -/
theorem Resumes.yields (h : Resumes videoId act st ph ans st' ph')
    (hshaped : ph.Shaped videoId act) (hcopies : Attempt.Copies st.rows ⟨act, ph⟩)
    (hselect : act = .extractMetadata → ∀ video now, ph = .selectJob video → ans = .ok now →
      ¬ st.rows.Completed .metadata) : Attempt.Yields videoId st'.rows ⟨act, ph'⟩ := by
  intro hact
  obtain rfl : act = .extractMetadata := hact
  cases h with
  | selectCompleted hjob hstatus =>
    refine absurd ?_ (hselect rfl _ _ rfl rfl)
    rw [VideoRows.Completed, VideoRows.jobStatus]
    rw [Activity.jobType] at hjob
    rw [hjob, Option.map_some, hstatus]
  -- it returns what it has just written
  | commitCompletion =>
    refine ⟨fun heq => (by cases heq), fun result hresult => ?_⟩
    obtain ⟨m, hm, hshows⟩ := (hcopies.flushed _ (.inr rfl)).commit_shows hshaped .metadata
    exact ⟨m, (Phase.returned.inj hresult).symm.trans hm, Video.shows_iff.mp hshows⟩
  | failJob htx =>
    have hretryable := hcopies.failing rfl _ _ rfl
    refine ⟨fun heq => ?_, fun result hresult => by cases hresult⟩
    rw [Phase.raised.inj heq] at hretryable
    cases hretryable
  | call _ _ hwork | probe hwork | upload hwork =>
    rcases working_cases hwork with ⟨rfl, -⟩ | ⟨-, g, assets, rfl⟩
    · exact ⟨fun heq => (by cases heq), fun result hresult => by cases hresult⟩
    · cases assets <;> exact ⟨fun heq => (by cases heq), fun result hresult => by cases hresult⟩
  | @selectAsset _ _ _ _ todo =>
    cases todo <;> exact ⟨fun heq => (by cases heq), fun result hresult => by cases hresult⟩
  | _ => exact ⟨fun heq => (by cases heq), fun result hresult => by cases hresult⟩

end VideoProcessing
