import VideoProcessing.Worker.Attempts

/-!
# What an attempt reads and writes

The footprint of an activity in the rows: the row of its own job, and the metadata columns for
`extract_metadata_activity`, the assets for the others. The status of the video is in no footprint:
every attempt reads and writes it, and nothing else an attempt does depends on it. `Phase.step`
commutes with the restriction to the footprint, and leaves what only others have in theirs alone.

The two directions are what makes steps of different owners independent: a step depends on its own
footprint only, and changes no other.
-/

namespace VideoProcessing

open Python UnitOfWork

/-! ## Restriction to a footprint -/

/-- What is kept of a metadata column. -/
def Activity.ofColumn {α : Type*} (act : Activity) (x : Option α) : Option α :=
  match act with
  | .extractMetadata => x
  | _ => none

/-- What is kept of an asset. -/
def Activity.ofAsset {α : Type*} (act : Activity) (x : Option α) : Option α :=
  match act with
  | .extractMetadata => none
  | _ => x

def Video.footprint (act : Activity) (video : Video) : Video :=
  { video with
    -- the one status that `claim_job` and the end of a completion leave as it is
    status := .completed
    durationMs := act.ofColumn video.durationMs
    width := act.ofColumn video.width
    height := act.ofColumn video.height }

def VideoSet.footprint (act : Activity) (set : VideoSet) : VideoSet where
  status := none
  durationMs := act.ofColumn set.durationMs
  width := act.ofColumn set.width
  height := act.ofColumn set.height

def Writes.footprint (act : Activity) (w : Writes) : Writes :=
  { w with video := w.video.footprint act }

def Frame.footprint (act : Activity) (f : Frame) : Frame :=
  { f with video := f.video.map (Video.footprint act), flushed := f.flushed.footprint act }

def Phase.footprint (act : Activity) : Phase → Phase
  | .loadVideo => .loadVideo
  | .selectJob video => .selectJob (video.map (Video.footprint act))
  | .insertJob video => .insertJob (video.map (Video.footprint act))
  | .commitClaim f => .commitClaim (f.footprint act)
  | .work f todo => .work (f.footprint act) todo
  | .selectAsset f todo => .selectAsset (f.footprint act) todo
  | .flush f => .flush (f.footprint act)
  | .countCompleted f => .countCompleted (f.footprint act)
  | .commitCompletion f => .commitCompletion (f.footprint act)
  | .failJob f error => .failJob (f.footprint act) error
  | .returned result => .returned result
  | .raised error => .raised error
  | .vanished => .vanished

def VideoRows.footprint (act : Activity) (rows : VideoRows) : VideoRows where
  video := rows.video.footprint act
  jobs := fun t => if t = act.jobType then rows.jobs t else none
  assets := fun a => act.ofAsset (rows.assets a)

def Store.footprint (act : Activity) (st : Store) : Store where
  rows := st.rows.footprint act
  objects := match act with
    | .extractMetadata => []
    | _ => st.objects

variable {videoId : UUID} {act : Activity} {f : Frame} {rows rows' : VideoRows} {st st' : Store}
  {ph ph' : Phase} {ans : Answer}

@[simp] theorem Activity.ofColumn_none {α : Type*} (act : Activity) :
    act.ofColumn (none : Option α) = none := by
  cases act <;> rfl

@[simp] theorem Activity.ofColumn_ofColumn {α : Type*} (act : Activity) (x : Option α) :
    act.ofColumn (act.ofColumn x) = act.ofColumn x := by
  cases act <;> rfl

@[simp] theorem Activity.ofAsset_ofAsset {α : Type*} (act : Activity) (x : Option α) :
    act.ofAsset (act.ofAsset x) = act.ofAsset x := by
  cases act <;> rfl

@[simp] theorem Video.footprint_footprint (act : Activity) (video : Video) :
    (video.footprint act).footprint act = video.footprint act := by
  simp [Video.footprint]

@[simp] theorem VideoSet.footprint_footprint (act : Activity) (set : VideoSet) :
    (set.footprint act).footprint act = set.footprint act := by
  simp [VideoSet.footprint]

@[simp] theorem Writes.footprint_footprint (act : Activity) (w : Writes) :
    (w.footprint act).footprint act = w.footprint act := by
  simp [Writes.footprint]

@[simp] theorem Frame.footprint_footprint (act : Activity) (f : Frame) :
    (f.footprint act).footprint act = f.footprint act := by
  simp [Frame.footprint, Tracked.map]

@[simp] theorem VideoRows.footprint_jobs_self (act : Activity) (rows : VideoRows) :
    (rows.footprint act).jobs act.jobType = rows.jobs act.jobType := if_pos rfl

@[simp] theorem VideoRows.footprint_footprint (act : Activity) (rows : VideoRows) :
    (rows.footprint act).footprint act = rows.footprint act := by
  simp only [VideoRows.footprint, Video.footprint_footprint, Activity.ofAsset_ofAsset]
  congr 1
  funext t
  split <;> rfl

@[simp] theorem Store.footprint_footprint (act : Activity) (st : Store) :
    (st.footprint act).footprint act = st.footprint act := by
  cases act <;> simp [Store.footprint]

@[simp] theorem Store.footprint_rows (act : Activity) (st : Store) :
    (st.footprint act).rows = st.rows.footprint act := rfl

@[simp] theorem Phase.footprint_footprint (act : Activity) (ph : Phase) :
    (ph.footprint act).footprint act = ph.footprint act := by
  cases ph <;> simp [Phase.footprint, Tracked.map]

/-! ## The operations on a session -/

/-- A claim is outside the columns of an activity. -/
theorem Video.claim_footprint (act : Activity) (video : Video) :
    video.claim.footprint act = video.footprint act := by
  rw [video.claim_eq]
  rfl

/-- And the columns are outside the claim. -/
theorem Video.footprint_claim (act : Activity) (video : Video) :
    (video.footprint act).claim = video.footprint act := rfl

@[simp] theorem claimJob_footprint (act : Activity) (now : Time) (video : Tracked Video)
    (job : Tracked ProcessingJob) :
    (claimJob now video job).footprint act =
      claimJob now (video.map (Video.footprint act)) job := by
  simp only [Frame.footprint, claimJob, Tracked.map, Tracked.modify, Video.claim_footprint,
    Video.footprint_claim]
  cases act <;> rfl

/-- What is dirty within the footprint. -/
theorem dirtyVideo_footprint (act : Activity) (video : Tracked Video) :
    dirtyVideo (video.map (Video.footprint act)) = (dirtyVideo video).footprint act := by
  cases act <;> simp [dirtyVideo, VideoSet.footprint, Tracked.map, Video.footprint,
    Activity.ofColumn]

/-- What is pending within it. -/
theorem Frame.footprint_pending (act : Activity) (f : Frame) :
    (f.footprint act).pending = f.pending.footprint act := by
  simp only [Frame.pending, Writes.footprint, Frame.footprint, dirtyVideo_footprint]

/-- A flush stays within it. -/
theorem Frame.flush_footprint (act : Activity) (f : Frame) :
    f.flush.footprint act = (f.footprint act).flush := by
  simp only [Frame.flush, Frame.footprint_pending]
  rfl

/-- So does a commit. -/
theorem Frame.committed_footprint (act : Activity) (f : Frame) :
    f.committed.footprint act = (f.footprint act).committed := by
  cases act <;> rfl

/-- The count of completed jobs goes into the status of the video alone. -/
theorem Frame.completeVideo_footprint (act : Activity) (f : Frame) (all : Bool) :
    (f.completeVideo all).footprint act = f.footprint act := by
  cases all <;> rfl

/-- And an asset. -/
theorem Frame.upsertAsset_footprint (act : Activity) (f : Frame) (existing : Option Str)
    (a : AssetType) (key : Str) :
    (f.upsertAsset existing a key).footprint act =
      (f.footprint act).upsertAsset existing a key := rfl

/-- And the handler. -/
theorem handle_footprint (act : Activity) (f : Frame) (tx : Tx) (error : ActivityError) :
    (handle (f.footprint act) tx error).footprint act = (handle f tx error).footprint act := by
  cases act <;> simp [handle, Phase.footprint, Frame.footprint, Frame.failJob, Writes.footprint,
    Tracked.map, Tracked.modify, Video.footprint]

/-- And the completion. -/
theorem completing_footprint (act : Activity) (f : Frame) (todo : List (AssetType × Str)) :
    (completing f todo).footprint act = completing (f.footprint act) todo := by
  cases todo <;> rfl

/-- And the work. -/
theorem working_footprint (videoId : UUID) (act : Activity) (f : Frame) (now : Time)
    (todo : List Io) :
    (working videoId act f now todo).map (Phase.footprint act) =
      working videoId act (f.footprint act) now todo := by
  cases todo with
  | cons io todo => rfl
  | nil =>
    cases act with
    | extractMetadata =>
      simp only [working, complete, Option.map_map]
      rfl
    | generateThumbnail => rfl
    | transcode => exact congrArg some (completing_footprint _ _ _)

/-- And what follows the claim. -/
theorem claimed_footprint (videoId : UUID) (act : Activity) (f : Frame) :
    (claimed videoId act (f.footprint act)).footprint act =
      (claimed videoId act f).footprint act := by
  have hwork : (Phase.work (f.footprint act)
        (act.io videoId (f.footprint act).video.current.originalObjectKey)).footprint act =
      (Phase.work f (act.io videoId f.video.current.originalObjectKey)).footprint act :=
    congrArg (Phase.work · _) (f.footprint_footprint act)
  cases act with
  | transcode sourceHeight =>
    simp only [claimed]
    split
    · exact handle_footprint _ f f.tx _
    · exact hwork
  | extractMetadata | generateThumbnail => exact hwork

/-- And what is returned without it. -/
theorem alreadyCompleted_footprint (videoId : UUID) (act : Activity) (video : Tracked Video) :
    alreadyCompleted videoId act (video.map (Video.footprint act)) =
      alreadyCompleted videoId act video := by
  cases act <;> rfl

/-! ## Writes inside the footprint -/

/-- The statements write no metadata column and no asset that is not the activity's to write. -/
def Writes.Confined (act : Activity) (w : Writes) : Prop :=
  match act with
  | .extractMetadata => w.assets = []
  | _ => w.video.durationMs = none ∧ w.video.width = none ∧ w.video.height = none

/-- Statuses are within every footprint. -/
theorem Writes.StatusOnly.confined {w : Writes} (h : w.StatusOnly) (act : Activity) :
    w.Confined act := by
  cases act with
  | extractMetadata => exact h.assets
  | generateThumbnail | transcode => exact ⟨h.durationMs, h.width, h.height⟩

/-- A completion writes within the footprint of its activity. -/
theorem Frame.Completing.confined (h : f.Completing act)
    (hkeys : act = .extractMetadata → f.assets = []) : f.pending.Confined act := by
  cases act with
  | extractMetadata =>
    rw [Writes.Confined, Frame.pending, hkeys rfl]
    rfl
  | generateThumbnail | transcode =>
    have hvideo : f.video.current = f.video.loaded := h.video
    refine ⟨?_, ?_, ?_⟩ <;> rw [Frame.pending, dirtyVideo, hvideo] <;> exact dirty_self _

/-- What a completion has flushed is inside the footprint. -/
def Phase.Confined (act : Activity) : Phase → Prop
  | .countCompleted f | .commitCompletion f => f.flushed.Confined act
  | _ => True

/-- An attempt stays inside its footprint. -/
theorem Resumes.confined (h : Resumes videoId act st ph ans st' ph')
    (hshaped : ph.Shaped videoId act) (hph : ph.Confined act) : ph'.Confined act := by
  cases hph' : ph' with
  | countCompleted f =>
    obtain ⟨g, rfl, -, rfl⟩ := h.countCompleted_cases hph'
    obtain ⟨hg, -, hkeys⟩ := hshaped
    refine hg.confined fun hact => ?_
    subst hact
    exact List.map_eq_nil_iff.mp hkeys
  | commitCompletion f =>
    obtain ⟨g, rfl, -, rfl⟩ := h.commitCompletion_cases hph'
    have hflushed (all : Bool) : (g.completeVideo all).flushed = g.flushed := by
      cases all <;> rfl
    rw [Phase.Confined, hflushed]
    exact hph
  | _ => trivial

/-! ## The rows after a commit -/

/-- Writing the columns within it. -/
theorem VideoSet.apply_footprint (act : Activity) (set : VideoSet) (row : Video) :
    (set.apply row).footprint act = (set.footprint act).apply (row.footprint act) := by
  cases act <;> rfl

/-- What the statements leave in the footprint depends on what was there. -/
theorem Writes.apply_footprint (w : Writes) (h : rows.footprint act = rows'.footprint act) :
    (w.apply act.jobType rows).footprint act =
      ((w.footprint act).apply act.jobType rows').footprint act := by
  have hvideo : rows.video.footprint act = rows'.video.footprint act :=
    congrArg VideoRows.video h
  have hjobs : rows.jobs act.jobType = rows'.jobs act.jobType := by
    rw [← VideoRows.footprint_jobs_self, h, VideoRows.footprint_jobs_self]
  have hassets (a : AssetType) : act.ofAsset (rows.assets a) = act.ofAsset (rows'.assets a) :=
    congrFun (congrArg VideoRows.assets h) a
  -- the video's columns, the activity's own job, and the assets of its types
  simp only [VideoRows.footprint, VideoRows.mk.injEq]
  refine ⟨?_, ?_, ?_⟩
  · simp only [Writes.apply, VideoSet.apply_footprint, Writes.footprint, hvideo,
      VideoSet.footprint_footprint]
  · funext t
    split
    · subst t
      simp only [Writes.apply_jobs_self, hjobs]
      rfl
    · rfl
  · funext a
    cases act with
    | extractMetadata => rfl
    | generateThumbnail | transcode => exact congrArg (w.assets.lookup a <|> ·) (hassets a)

/-- A commit within it. -/
theorem Frame.commit_footprint (act : Activity) (f : Frame) (rows : VideoRows) :
    (f.commit act.jobType rows).footprint act =
      ((f.footprint act).commit act.jobType (rows.footprint act)).footprint act := by
  rw [Frame.commit, Frame.commit, Frame.footprint_pending]
  refine Writes.apply_footprint _ ?_
  exact Writes.apply_footprint _ (VideoRows.footprint_footprint act rows).symm

/-- A new job row. -/
theorem VideoRows.insert_footprint (act : Activity) (rows : VideoRows) (job : ProcessingJob) :
    VideoRows.footprint act { rows.footprint act with
        jobs := Function.update (rows.footprint act).jobs act.jobType (some job) } =
      VideoRows.footprint act { rows with
        jobs := Function.update rows.jobs act.jobType (some job) } := by
  simp only [VideoRows.footprint, Video.footprint_footprint, Activity.ofAsset_ofAsset,
    VideoRows.mk.injEq, and_true, true_and]
  funext t
  split
  · subst t
    rw [Function.update_self, Function.update_self]
  · rfl

/-- Whether the database accepts a flush depends on the footprint. -/
theorem Frame.accepted_footprint (h : f.pending.Confined act) (rows : VideoRows) :
    (f.footprint act).accepted (rows.footprint act) = f.accepted rows := by
  rw [Frame.accepted, Frame.accepted, Frame.footprint_pending]
  cases act with
  | extractMetadata =>
    have hnone : ∀ asset ∈ f.assets, dirtyAsset asset = none := List.filterMap_eq_nil_iff.mp h
    have hcollides (rows' : VideoRows) : f.assets.any (AssetObject.collides rows') = false := by
      refine List.any_eq_false.mpr fun asset hasset => ?_
      rw [AssetObject.collides, hnone asset hasset]
      exact Bool.false_ne_true
    exact congrArg (f.pending.inRange && !·) ((hcollides _).trans (hcollides _).symm)
  | generateThumbnail | transcode =>
    obtain ⟨hduration, hwidth, hheight⟩ := h
    refine congrArg (· && !f.assets.any (AssetObject.collides rows)) ?_
    simp only [Writes.inRange, Writes.footprint, VideoSet.footprint, hduration, hwidth, hheight,
      Activity.ofColumn]

/-! ## One await -/

/-- The state of an attempt inside its footprint. -/
def restricted (act : Activity) (x : Store × Phase) : Store × Phase :=
  (x.1.footprint act, x.2.footprint act)

/-- An await that leaves the store alone. -/
theorem restricted_congr {next next' : Phase} (h : next'.footprint act = next.footprint act)
    (st : Store) : (some (st.footprint act, next')).map (restricted act) =
      (some (st, next)).map (restricted act) := by
  simp only [Option.map_some, restricted, Store.footprint_footprint, h]

/-- A commit that the database accepts or not. -/
theorem commit_step_footprint (h : f.pending.Confined act) (st : Store) {next next' : Phase}
    (hnext : next'.footprint act = next.footprint act) :
    (if (f.footprint act).accepted (st.footprint act).rows then
        some (({ st.footprint act with
          rows := (f.footprint act).commit act.jobType (st.footprint act).rows } : Store), next')
      else none).map (restricted act) =
    (if f.accepted st.rows then
        some (({ st with rows := f.commit act.jobType st.rows } : Store), next)
      else none).map (restricted act) := by
  rw [Store.footprint_rows, Frame.accepted_footprint h]
  split
  · simp only [Option.map_some, restricted, hnext, Store.footprint, ← Frame.commit_footprint]
    cases act <;> rfl
  · rfl

/-- A call that returns. -/
theorem working_step_footprint (f : Frame) (now : Time) (todo : List Io) {st st' : Store}
    (hst : st'.footprint act = st.footprint act) :
    ((working videoId act (f.footprint act) now todo).map (st', ·)).map (restricted act) =
      ((working videoId act f now todo).map (st, ·)).map (restricted act) := by
  rw [← working_footprint]
  simp only [Option.map_map]
  refine congrArg (Option.map · _) (funext fun ph => ?_)
  simp only [Function.comp_apply, restricted, hst, Phase.footprint_footprint]

/-- An await that returns. -/
theorem Phase.step_footprint_ok (hshaped : ph.Shaped videoId act) (st : Store) (now : Time) :
    ((ph.footprint act).step videoId act (st.footprint act) (.ok now)).map (restricted act) =
      (ph.step videoId act st (.ok now)).map (restricted act) := by
  cases ph with
  | loadVideo =>
    refine restricted_congr ?_ st
    simp only [Phase.footprint, Tracked.map, Tracked.fresh, Store.footprint_rows,
      VideoRows.footprint, Video.footprint_footprint]
  | selectJob video =>
    simp only [Phase.footprint, Phase.step, Store.footprint_rows, VideoRows.footprint_jobs_self]
    split
    · exact restricted_congr (Phase.footprint_footprint act (.insertJob video)) st
    · split
      · refine restricted_congr ?_ st
        rw [alreadyCompleted_footprint]
      · refine restricted_congr ?_ st
        simp only [Phase.footprint, ← claimJob_footprint, Frame.footprint_footprint]
  | insertJob video =>
    simp only [Phase.footprint, Phase.step, Store.footprint_rows, VideoRows.footprint_jobs_self]
    split
    · simp only [Option.map_some, restricted, Phase.footprint, ← claimJob_footprint,
        Frame.footprint_footprint, Option.some.injEq, Prod.mk.injEq, and_true]
      simp only [Store.footprint, VideoRows.insert_footprint]
      cases act <;> rfl
    · exact restricted_congr rfl st
  | commitClaim f =>
    refine commit_step_footprint (hshaped.statusOnly.confined act) st ?_
    rw [← Frame.committed_footprint]
    exact claimed_footprint videoId act f.committed
  | work f todo =>
    cases todo with
    | nil => rfl
    | cons io todo =>
      cases io with
      | extractMetadata => rfl
      | uploadFile a key =>
        refine working_step_footprint { f with uploads := f.uploads ++ [(a, key)] } now todo ?_
        cases act <;> simp [Store.footprint]
      | downloadOriginal | generateThumbnail | transcode =>
        exact working_step_footprint f now todo (st.footprint_footprint act)
  | selectAsset f todo =>
    obtain ⟨-, -, htodo, -, hkeys⟩ := hshaped
    obtain ⟨⟨a, key⟩, todo, rfl⟩ := List.exists_cons_of_ne_nil htodo
    -- only the activities with uploads come here, and they keep the assets
    have hasset : (st.footprint act).rows.assets a = st.rows.assets a := by
      cases act with
      | extractMetadata => simp [Activity.uploads] at hkeys
      | generateThumbnail | transcode => rfl
    refine restricted_congr ?_ st
    rw [hasset, ← Frame.upsertAsset_footprint, ← completing_footprint, Phase.footprint_footprint]
  | flush f =>
    obtain ⟨hf, -, hkeys⟩ := hshaped
    -- an activity without assets has none to flush
    have hconfined : f.pending.Confined act := by
      refine hf.confined fun hact => ?_
      subst hact
      exact List.map_eq_nil_iff.mp hkeys
    simp only [Phase.footprint, Phase.step, Store.footprint_rows,
      Frame.accepted_footprint hconfined]
    split
    · refine restricted_congr ?_ st
      rw [← Frame.flush_footprint]
      exact Phase.footprint_footprint act (.countCompleted f.flush)
    · rfl
  | countCompleted f =>
    refine restricted_congr ?_ st
    simp only [Phase.footprint, Frame.completeVideo_footprint, Frame.footprint_footprint]
  | commitCompletion f => exact commit_step_footprint (hshaped.statusOnly.confined act) st rfl
  | failJob f error =>
    by_cases htx : f.tx = .broken
    · have htx' : (f.footprint act).tx = .broken := htx
      simp only [Phase.footprint, Phase.step, if_pos htx, if_pos htx']
      exact restricted_congr rfl st
    · have htx' : ¬ (f.footprint act).tx = .broken := htx
      simp only [Phase.footprint, Phase.step, if_neg htx, if_neg htx']
      exact commit_step_footprint ((hshaped htx).statusOnly.confined act) st rfl
  | returned | raised | vanished => rfl

/-- An await that raises. -/
theorem Phase.step_footprint_error (st : Store) :
    ((ph.footprint act).step videoId act (st.footprint act) .error).map (restricted act) =
      (ph.step videoId act st .error).map (restricted act) := by
  cases ph with
  | loadVideo | selectJob | insertJob | commitClaim => exact restricted_congr rfl st
  | work f todo =>
    cases todo with
    | nil => rfl
    | cons io todo => exact restricted_congr (handle_footprint act f .idle .io) st
  | selectAsset f todo =>
    cases todo <;> exact restricted_congr (handle_footprint act f .broken .database) st
  | flush f | countCompleted f | commitCompletion f =>
    exact restricted_congr (handle_footprint act f .broken .database) st
  | failJob f error =>
    by_cases htx : f.tx = .broken
    · have htx' : (f.footprint act).tx = .broken := htx
      simp only [Phase.footprint, Phase.step, if_pos htx, if_pos htx']
    · have htx' : ¬ (f.footprint act).tx = .broken := htx
      simp only [Phase.footprint, Phase.step, if_neg htx, if_neg htx']
      exact restricted_congr rfl st
  | returned | raised | vanished => rfl

/-- **An attempt runs inside its footprint.** What it does next is determined by the part of the
rows and of its session that is in its footprint. -/
theorem Phase.step_footprint (hshaped : ph.Shaped videoId act) (st : Store) (ans : Answer) :
    ((ph.footprint act).step videoId act (st.footprint act) ans).map (restricted act) =
      (ph.step videoId act st ans).map (restricted act) := by
  cases ans with
  | ok now => exact Phase.step_footprint_ok hshaped st now
  | error => exact Phase.step_footprint_error st
  | probed m now =>
    cases ph with
    | work f todo =>
      cases todo with
      | nil => rfl
      | cons io todo =>
        cases io with
        | extractMetadata =>
          exact working_step_footprint { f with metadata := some m } now todo
            (st.footprint_footprint act)
        | downloadOriginal | generateThumbnail | transcode | uploadFile => rfl
    | selectAsset f todo => cases todo <;> rfl
    | _ => rfl
  | noConnection =>
    cases ph with
    | work f todo => cases todo <;> rfl
    | selectAsset f todo =>
      -- the guard reads the transaction, which the footprint keeps
      by_cases htx : f.tx = .idle
      · have htx' : (f.footprint act).tx = .idle := htx
        cases todo <;> simp only [Phase.footprint, Phase.step, if_pos htx, if_pos htx'] <;>
          exact restricted_congr (handle_footprint act f .idle .database) st
      · have htx' : ¬ (f.footprint act).tx = .idle := htx
        cases todo <;> simp only [Phase.footprint, Phase.step, if_neg htx, if_neg htx']
    | _ => rfl

/-! ## The footprint of others -/

variable {act' : Activity} {w : Writes}

/-- One of two activities is `extract_metadata_activity` and the other is not. -/
def Activity.Apart (act act' : Activity) : Prop := act = .extractMetadata ↔ act' ≠ .extractMetadata

/-- Activities apart have different jobs. -/
theorem Activity.Apart.jobType_ne (h : act.Apart act') : act'.jobType ≠ act.jobType := by
  cases act <;> cases act' <;> simp [Activity.Apart, Activity.jobType] at h ⊢

/-- Statements inside one footprint change nothing in the other. -/
theorem Writes.Confined.apply_footprint (hw : w.Confined act) (h : act.Apart act')
    (rows : VideoRows) : (w.apply act.jobType rows).footprint act' = rows.footprint act' := by
  simp only [VideoRows.footprint, VideoRows.mk.injEq]
  refine ⟨?_, ?_, ?_⟩
  -- the video's columns are in the footprint of the metadata activity only
  · cases act' with
    | extractMetadata =>
      have hact : act ≠ .extractMetadata := fun hact => h.mp hact rfl
      cases act with
      | extractMetadata => exact absurd rfl hact
      | generateThumbnail | transcode =>
        obtain ⟨hduration, hwidth, hheight⟩ := hw
        simp [Writes.apply, VideoSet.apply, Video.footprint, hduration, hwidth, hheight]
    | generateThumbnail | transcode => rfl
  · funext t
    split
    · subst t
      exact Writes.apply_jobs_of_ne h.jobType_ne
    · rfl
  · funext a
    cases act' with
    | extractMetadata => rfl
    | generateThumbnail | transcode =>
      obtain rfl : act = .extractMetadata := h.mpr (by simp)
      have hassets : w.assets = [] := hw
      rw [Writes.apply_assets, hassets, List.lookup_nil]
      rfl

/-- What a commit writes is inside the footprint. -/
theorem RowChange.footprint (h : RowChange act rows ph rows') (hph : ph.Confined act)
    (hapart : act.Apart act') : rows'.footprint act' = rows.footprint act' := by
  cases h with
  | same => rfl
  | insert =>
    simp only [VideoRows.footprint, VideoRows.mk.injEq, true_and, and_true]
    funext t
    split
    · subst t
      exact Function.update_of_ne hapart.jobType_ne ..
    · rfl
  | claim hf =>
    rw [hf.commit_eq]
    exact (hf.statusOnly.confined act).apply_footprint hapart rows
  | fail _ hf =>
    rw [hf.commit_eq]
    exact (hf.statusOnly.confined act).apply_footprint hapart rows
  | @complete f hf =>
    have hflushed : f.flushed.Confined act := hph
    rw [Frame.commit, (hf.statusOnly.confined act).apply_footprint hapart,
      hflushed.apply_footprint hapart]

/-- The footprint is a matter of the rows and the objects in it. -/
theorem Store.footprint_congr (hrows : st'.rows.footprint act = st.rows.footprint act)
    (hobjects : act ≠ .extractMetadata → st'.objects = st.objects) :
    st'.footprint act = st.footprint act := by
  cases act with
  | extractMetadata => exact congrArg (Store.mk · []) hrows
  | generateThumbnail | transcode =>
    exact congrArg₂ Store.mk hrows (hobjects (by simp))

/-- **An attempt leaves the footprint of the other activity alone.** -/
theorem Resumes.footprint (h : Resumes videoId act st ph ans st' ph')
    (hshaped : ph.Shaped videoId act) (hph : ph.Confined act) (hapart : act.Apart act') :
    st'.footprint act' = st.footprint act' := by
  refine Store.footprint_congr ((h.rowChange hshaped).footprint hph hapart) fun hne => ?_
  obtain rfl : act = .extractMetadata := hapart.mpr hne
  cases h with
  | upload =>
    -- extract_metadata_activity uploads nothing
    obtain ⟨-, -, huploads⟩ := hshaped
    simp [Activity.uploads, uploadsOf] at huploads
  | _ => rfl

end VideoProcessing
