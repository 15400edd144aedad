import VideoProcessing.Worker.Assets
import VideoProcessing.Worker.Siblings
import VideoProcessing.Worker.Tally

/-!
# Attempts at which nothing goes wrong

An attempt whose awaits all return, with no other live attempt of its activity beside it. The
database accepts whatever it flushes, its next await can always return, and it never gets to its
handler.

These are the facts about one attempt that a healthy run of the platform needs: a step keeps the
attempt on its way, and there is a step to take.
-/

namespace VideoProcessing

open Python UnitOfWork Transitions

/-- The columns of the metadata take it. -/
def VideoMetadata.Fits (m : VideoMetadata) : Prop := ∀ c, fitsInteger (m.column c) = true

/-- The `attempts` column takes one more claim. -/
def VideoRows.Room (rows : VideoRows) (t : JobType) : Prop := rows.attempts t < 2147483647

/-- An attempt at which nothing has gone wrong: it is not in its handler, the calls left are the
last ones of its activity, and the assets it has selected are still as they were. -/
def Attempt.Succeeding (videoId : UUID) (rows : VideoRows) (a : Attempt) : Prop :=
  match a.phase with
  | .loadVideo | .selectJob _ | .insertJob _ => rows.Room a.activity.jobType
  | .commitClaim f => f.job.loaded.attempts < 2147483647
  | .work _ todo => todo ≠ [] ∧ ∃ key, todo <:+ a.activity.io videoId key
  | .selectAsset f _ | .flush f => ∀ asset ∈ f.assets, asset.2.loaded = rows.assets asset.1
  | .countCompleted _ | .commitCompletion _ | .returned _ => True
  | .failJob _ _ | .raised _ | .vanished => False

/-- How an await of an attempt at which nothing goes wrong ends. -/
def Answer.healthy (M : VideoMetadata) : Answer → Bool
  | .ok _ => true
  | .probed m _ => m = M
  | _ => false

variable {M : VideoMetadata} {videoId : UUID} {act act' : Activity} {st st' : Store}
  {ph ph' : Phase} {ans : Answer} {f : Frame} {rows rows' : VideoRows} {t : JobType}
  {a b : Attempt} {p : Pool} {i : ℕ}

/-! ## One await -/

/-- Every activity makes a call. -/
theorem io_ne_nil (videoId : UUID) (key : Str) (act : Activity) : act.io videoId key ≠ [] := by
  cases act <;> exact List.cons_ne_nil _ _

/-- What is left of the calls after one of them. -/
theorem suffix_of_cons {io : Io} {todo calls : List Io} (h : io :: todo <:+ calls) :
    todo <:+ calls := (List.suffix_cons io todo).trans h

/-- After a call an attempt makes the next one, or begins its completion without an asset. -/
theorem working_succeeding {now : Time} {todo : List Io} {key : Str}
    (hsuffix : todo <:+ act.io videoId key) (hassets : f.assets = [])
    (h : working videoId act f now todo = some ph) :
    Attempt.Succeeding videoId rows ⟨act, ph⟩ := by
  have hcompleting (g : Frame) (assets : List (AssetType × Str)) (hg : g.assets = []) :
      Attempt.Succeeding videoId rows ⟨act, completing g assets⟩ := by
    cases assets <;>
    · intro asset hasset
      rw [hg] at hasset
      cases hasset
  cases todo with
  | cons io todo =>
    obtain rfl := Option.some.inj h
    exact ⟨List.cons_ne_nil io todo, key, hsuffix⟩
  | nil =>
    cases act with
    | extractMetadata =>
      obtain ⟨m, -, rfl⟩ := Option.map_eq_some_iff.mp h
      exact hcompleting _ _ hassets
    | generateThumbnail | transcode =>
      obtain rfl := Option.some.inj h
      exact hcompleting _ _ hassets

/-- A claim with work to do begins all of it. -/
theorem claimed_succeeding (huse : act.Usable) :
    Attempt.Succeeding videoId rows ⟨act, claimed videoId act f⟩ := by
  have hwork (key : Str) : Attempt.Succeeding videoId rows ⟨act, .work f (act.io videoId key)⟩ :=
    ⟨io_ne_nil videoId key act, key, List.suffix_refl _⟩
  cases act with
  | extractMetadata | generateThumbnail => exact hwork _
  | transcode sourceHeight =>
    rw [claimed, if_neg (not_le.mpr huse)]
    exact hwork _

/-- A session that finds the job completed finds its metadata too. -/
theorem alreadyCompleted_succeeding {video : Tracked Video}
    (hstored : act = .extractMetadata → ∀ c, (video.current.column c).isSome) :
    Attempt.Succeeding videoId rows ⟨act, alreadyCompleted videoId act video⟩ := by
  cases act with
  | extractMetadata =>
    obtain ⟨d, hd⟩ := Option.isSome_iff_exists.mp (hstored rfl .durationMs)
    obtain ⟨w, hw⟩ := Option.isSome_iff_exists.mp (hstored rfl .width)
    obtain ⟨h, hh⟩ := Option.isSome_iff_exists.mp (hstored rfl .height)
    simp only [Video.column] at hd hw hh
    simp only [alreadyCompleted, storedMetadata, hd, hw, hh]
    trivial
  | generateThumbnail | transcode => trivial

/-- An attempt whose awaits return goes on without its handler. -/
theorem Resumes.succeeding (h : Resumes videoId act st ph ans st' ph')
    (hans : ans.healthy M = true) (hshaped : ph.Shaped videoId act)
    (hun : Attempt.Unfinished st.rows ⟨act, ph⟩) (huse : act.Usable)
    (hstored : ∀ video, ph = .selectJob video → act = .extractMetadata →
      st.rows.Completed .metadata → ∀ c, (video.loaded.column c).isSome)
    (hph : Attempt.Succeeding videoId st.rows ⟨act, ph⟩) :
    Attempt.Succeeding videoId st'.rows ⟨act, ph'⟩ := by
  cases h with
  | load | selectNone => exact hph
  | selectCompleted hjob hstatus =>
    refine alreadyCompleted_succeeding fun hact => ?_
    subst hact
    have hcompleted : st.rows.Completed .metadata := by
      rw [VideoRows.Completed, VideoRows.jobStatus]
      rw [Activity.jobType] at hjob
      rw [hjob, Option.map_some, hstatus]
    rw [show _ = _ from hshaped]
    exact hstored _ rfl rfl hcompleted
  | @selectJob now video job hjob =>
    have hroom : st.rows.attempts act.jobType < 2147483647 := hph
    rw [VideoRows.attempts, hjob] at hroom
    exact hroom
  | insert => exact Nat.succ_pos _
  | insertLost hjob =>
    have hnone : st.rows.jobs act.jobType = none := hun
    cases hnone.symm.trans hjob
  | commitClaim => exact claimed_succeeding huse
  | call _ _ hwork | probe hwork | upload hwork =>
    obtain ⟨-, key, hsuffix⟩ := hph
    refine working_succeeding (suffix_of_cons hsuffix) ?_ hwork
    exact hshaped.1.assets
  | @selectAsset now f a key todo =>
    have hall : ∀ asset ∈ (f.upsertAsset (st.rows.assets a) a key).assets,
        asset.2.loaded = st.rows.assets asset.1 := by
      intro asset hasset
      rcases List.mem_append.mp hasset with hasset | hasset
      · exact hph asset hasset
      · obtain rfl := List.mem_singleton.mp hasset
        rfl
    cases todo <;> exact hall
  | flush | countCompleted | commitCompletion => trivial
  | giveUp | workFails | completionFails | noConnection | failJobFails =>
    exact absurd hans Bool.false_ne_true
  | failJobBroken | failJob => exact hph.elim

/-! ## What the database accepts -/

/-- What fits its column fits when it is written. -/
theorem fitsInteger_dirty {loaded current : Option ℤ} (h : current.all fitsInteger = true) :
    (dirty loaded current).all (·.all fitsInteger) = true := by
  rw [dirty]
  split
  · rfl
  · exact h

/-- A claim is accepted while the column has room. -/
theorem Frame.Claiming.accepted (h : f.Claiming) (hroom : f.job.loaded.attempts < 2147483647) :
    f.accepted rows = true := by
  have hassets : f.assets = [] := by
    obtain ⟨_, _, _, -, rfl⟩ := h
    rfl
  have hattempts : f.pending.job.attempts.all (fun (n : ℕ) => fitsInteger n) = true := by
    obtain ⟨now, video, job, -, rfl⟩ := h
    have hroom : job.attempts < 2147483647 := hroom
    have hdirty : (claimJob now (.fresh video) (.fresh job)).pending.job.attempts =
        some (job.attempts + 1) := dirty_of_ne (Nat.succ_ne_self job.attempts)
    rw [hdirty, Option.all_some, fitsInteger, decide_eq_true_iff]
    omega
  simp only [Frame.accepted, Writes.inRange, h.statusOnly.durationMs, h.statusOnly.width,
    h.statusOnly.height, hattempts, hassets, Option.all_none, List.any_nil, Bool.and_self,
    Bool.not_false]

/-- What is left after the flush is. -/
theorem Frame.Flushed.accepted (h : f.Flushed) : f.accepted rows = true := by
  have hcollides : f.assets.any (AssetObject.collides rows) = false := by
    refine List.any_eq_false.mpr fun asset hasset => ?_
    rw [AssetObject.collides, dirtyAsset, h.assets asset hasset, dirty_self]
    simp
  simp only [Frame.accepted, Writes.inRange, h.statusOnly.durationMs, h.statusOnly.width,
    h.statusOnly.height, h.pending_job, hcollides, Option.all_none, Writes.empty, Bool.and_self,
    Bool.not_false]

/-- A completion writes what fits, under keys no other asset of the video has. -/
theorem Frame.Completing.accepted (h : f.Completing act)
    (hkeys : f.assetKeys = (act.uploads videoId).map fun x => (x.1, some x.2))
    (hmetadata : ∀ m, f.metadata = some m → m.Fits)
    (hseen : ∀ asset ∈ f.assets, asset.2.loaded = rows.assets asset.1)
    (hrows : ∀ a key, rows.assets a = some key → key = assetKey videoId a) :
    f.accepted rows = true := by
  -- the integer columns take what was measured
  have hcolumn (c : Column) : ((dirtyVideo f.video).column c).all (·.all fitsInteger) = true := by
    rw [dirtyVideo_column]
    rcases h.column c with ⟨heq, -⟩ | ⟨-, m, hm, heq⟩ <;> rw [heq]
    · rw [dirty_self]
      rfl
    · exact fitsInteger_dirty (hmetadata m hm c)
  have hattempts : f.pending.job.attempts = none := by
    rw [Frame.pending, dirtyJob, h.job, dirty_self]
  -- the key of an asset is its own, so no row is in its way
  have hcollides : f.assets.any (AssetObject.collides rows) = false := by
    refine List.any_eq_false.mpr fun asset hasset hcollides => ?_
    obtain ⟨hdirty, hcollides⟩ := Bool.and_eq_true_iff.mp hcollides
    obtain ⟨x, hx⟩ := Option.isSome_iff_exists.mp hdirty
    have hmem : x ∈ [asset].filterMap dirtyAsset := by simp [hx]
    obtain ⟨_, hasset', ha, hcurrent, -⟩ := mem_filterMap_dirtyAsset.mp hmem
    obtain rfl := List.mem_singleton.mp hasset'
    have hkey := key_of_mem_uploads (Frame.mem_uploads_of_assetKeys hkeys hasset hcurrent)
    rcases Bool.or_eq_true_iff.mp hcollides with hinsert | hother
    · -- an object that was not found is still not there
      rw [← hseen _ hasset] at hinsert
      obtain ⟨hnone, hsome⟩ := Bool.and_eq_true_iff.mp hinsert
      rw [Option.isNone_iff_eq_none.mp hnone] at hsome
      exact absurd hsome Bool.false_ne_true
    · obtain ⟨t, -, hne⟩ := List.any_eq_true.mp hother
      obtain ⟨hne, hstored⟩ := Bool.and_eq_true_iff.mp hne
      rw [hcurrent, beq_iff_eq] at hstored
      obtain ⟨-, rfl⟩ := assetKey_inj ((hrows t x.2 hstored).symm.trans hkey)
      simp at hne
  have hd := hcolumn .durationMs
  have hw := hcolumn .width
  have hh := hcolumn .height
  simp only [VideoSet.column] at hd hw hh
  simp only [Frame.accepted, Writes.inRange, Frame.pending, hd, hw, hh, hcollides, Bool.true_and,
    Bool.not_false, Bool.and_true]
  rw [show (dirtyJob f.job).attempts = none from hattempts]
  rfl

/-! ## The next await -/

/-- Only ffprobe gives the metadata activity what it completes with. -/
theorem working_isSome {now : Time} {todo : List Io}
    (h : act = .extractMetadata → todo = [] → f.metadata ≠ none) :
    ∃ ph, working videoId act f now todo = some ph := by
  cases todo with
  | cons io todo => exact ⟨_, rfl⟩
  | nil =>
    cases act with
    | extractMetadata =>
      obtain ⟨m, hm⟩ := Option.ne_none_iff_exists'.mp (h rfl rfl)
      exact ⟨_, by rw [working, complete, hm, Option.map_some]⟩
    | generateThumbnail | transcode => exact ⟨_, rfl⟩

/-- ffprobe is the last call of the metadata activity. -/
theorem eq_extractMetadata_of_suffix {io : Io} {todo : List Io} {key : Str}
    (h : io :: todo <:+ Activity.extractMetadata.io videoId key) (htodo : todo = []) :
    io = .extractMetadata := by
  subst htodo
  have hlast : [Io.downloadOriginal key, .extractMetadata].getLast? = some io := by
    obtain ⟨before, hbefore⟩ := h
    rw [Activity.io] at hbefore
    rw [← hbefore, List.getLast?_concat]
  exact (Option.some.inj hlast).symm

/-- The next await of an attempt at which nothing has gone wrong can return. -/
theorem Attempt.Succeeding.exists_step {R : Readings}
    (h : Attempt.Succeeding videoId st.rows ⟨act, ph⟩) (hlive : ph.live = true)
    (hshaped : ph.Shaped videoId act) (hph : ph.Faithful R videoId act st.rows)
    (hrows : st.rows.Faithful R videoId) (hfits : ∀ m, R.Admits m → m.Fits) :
    ∃ ans, ans.healthy M = true ∧ (ph.step videoId act st ans).isSome = true := by
  cases ph with
  | loadVideo => exact ⟨.ok 0, rfl, rfl⟩
  | selectJob video =>
    cases hjob : st.rows.jobs act.jobType with
    | none => exact ⟨.ok 0, rfl, by simp only [Phase.step, hjob, Option.isSome_some]⟩
    | some job =>
      by_cases hstatus : job.status = .completed
      · exact ⟨.ok 0, rfl, by simp [Phase.step, hjob, hstatus]⟩
      · exact ⟨.ok 0, rfl, by simp [Phase.step, hjob, hstatus]⟩
  | insertJob video =>
    cases hjob : st.rows.jobs act.jobType with
    | none => exact ⟨.ok 0, rfl, by simp only [Phase.step, hjob, Option.isSome_some]⟩
    | some job => exact ⟨.ok 0, rfl, by simp only [Phase.step, hjob, Option.isSome_some]⟩
  | commitClaim f =>
    have haccepted : f.accepted st.rows = true := Frame.Claiming.accepted hshaped h
    exact ⟨.ok 0, rfl, by rw [Phase.step, if_pos haccepted, Option.isSome_some]⟩
  | work f todo =>
    obtain ⟨htodo, key, hsuffix⟩ := h
    obtain ⟨io, todo, rfl⟩ := List.exists_cons_of_ne_nil htodo
    by_cases hio : io = .extractMetadata
    · subst hio
      obtain ⟨ph, hnext⟩ : ∃ ph, working videoId act { f with metadata := some M } 0 todo =
          some ph := working_isSome fun _ _ => Option.some_ne_none M
      refine ⟨.probed M 0, decide_eq_true rfl, ?_⟩
      rw [Phase.step, hnext, Option.map_some, Option.isSome_some]
    · -- any other call of the metadata activity has ffprobe after it
      have hmore : act = .extractMetadata → todo ≠ [] := by
        rintro rfl hnil
        exact hio (eq_extractMetadata_of_suffix hsuffix hnil)
      have hnext (f : Frame) : ∃ ph, working videoId act f 0 todo = some ph :=
        working_isSome fun hact hnil => absurd hnil (hmore hact)
      cases io with
      | extractMetadata => exact absurd rfl hio
      | uploadFile a key =>
        obtain ⟨ph, hnext⟩ := hnext { f with uploads := f.uploads ++ [(a, key)] }
        exact ⟨.ok 0, rfl, by rw [Phase.step, hnext, Option.map_some, Option.isSome_some]⟩
      | downloadOriginal | generateThumbnail | transcode =>
        obtain ⟨ph, hnext⟩ := hnext f
        exact ⟨.ok 0, rfl, by simp only [Phase.step, hnext, Option.map_some, Option.isSome_some]⟩
  | selectAsset f todo =>
    -- there is an asset to look for
    obtain ⟨x, todo, rfl⟩ := List.exists_cons_of_ne_nil hshaped.2.2.1
    exact ⟨.ok 0, rfl, rfl⟩
  | flush f =>
    obtain ⟨hf, -, hkeys⟩ := hshaped
    have haccepted : f.accepted st.rows = true :=
      hf.accepted hkeys (fun m hm => hfits m (hph.2.2 m hm)) h fun a key => hrows.asset_key
    exact ⟨.ok 0, rfl, by rw [Phase.step, if_pos haccepted, Option.isSome_some]⟩
  | countCompleted f => exact ⟨.ok 0, rfl, rfl⟩
  | commitCompletion f =>
    have haccepted : f.accepted st.rows = true := Frame.Flushed.accepted hshaped
    exact ⟨.ok 0, rfl, by rw [Phase.step, if_pos haccepted, Option.isSome_some]⟩
  | failJob | raised | vanished => exact h.elim
  | returned => cases hlive

/-! ## The other attempts -/

/-- Activities of different jobs upload different assets. -/
theorem uploads_disjoint {x : AssetType × Str} (hne : act.jobType ≠ act'.jobType)
    (hx : x ∈ act.uploads videoId) (key : Str) : (x.1, key) ∉ act'.uploads videoId := by
  intro hx'
  cases act with
  | extractMetadata => cases hx
  | generateThumbnail =>
    obtain rfl := List.mem_singleton.mp hx
    cases act' with
    | extractMetadata => cases hx'
    | generateThumbnail => exact hne rfl
    | transcode =>
      obtain ⟨rendition, hrendition, heq⟩ := List.mem_map.mp hx'
      exact assetType_ne_thumbnail hrendition (congrArg Prod.fst heq)
  | transcode =>
    obtain ⟨rendition, hrendition, rfl⟩ := List.mem_map.mp hx
    cases act' with
    | extractMetadata => cases hx'
    | generateThumbnail =>
      have heq := List.mem_singleton.mp hx'
      exact assetType_ne_thumbnail hrendition (congrArg Prod.fst heq)
    | transcode => exact hne rfl

/-- An attempt leaves the assets alone that its activity does not upload. -/
theorem RowChange.assets_of_not_mem {R : Readings} (h : RowChange act rows ph rows')
    (hph : ph.Faithful R videoId act rows) {x : AssetType}
    (hx : ∀ key, (x, key) ∉ act.uploads videoId) : rows'.assets x = rows.assets x := by
  cases h with
  | same | insert => rfl
  | claim hf => rw [hf.commit_eq, hf.statusOnly.sameData.assets]
  | fail _ hf => rw [hf.commit_eq, hf.statusOnly.sameData.assets]
  | @complete f hf =>
    obtain ⟨hcarries, -⟩ := hph
    rw [hf.commit_eq]
    simp only [Writes.apply_assets]
    cases hlookup : f.flushed.assets.lookup x with
    | none => rfl
    | some key =>
      obtain ⟨l₁, l₂, heq, -⟩ := List.lookup_eq_some_iff.mp hlookup
      exact absurd (hcarries.assets (x, key) (by rw [heq]; simp)) (hx key)

/-- The steps of the others do no harm. -/
theorem Attempt.Succeeding.mono (h : a.Succeeding videoId rows)
    (hshaped : a.phase.Shaped videoId a.activity)
    (hjobs : rows'.jobs a.activity.jobType = rows.jobs a.activity.jobType)
    (hassets : ∀ x ∈ a.activity.uploads videoId, rows'.assets x.1 = rows.assets x.1) :
    a.Succeeding videoId rows' := by
  obtain ⟨act, ph⟩ := a
  have hroom (hroom : rows.Room act.jobType) : rows'.Room act.jobType := by
    rwa [VideoRows.Room, VideoRows.attempts, hjobs]
  have hseen {f : Frame} {rest : List (AssetType × Option Str)}
      (hkeys : f.assetKeys ++ rest = (act.uploads videoId).map fun x => (x.1, some x.2))
      (hf : ∀ asset ∈ f.assets, asset.2.loaded = rows.assets asset.1) :
      ∀ asset ∈ f.assets, asset.2.loaded = rows'.assets asset.1 := by
    intro asset hasset
    have hmem : (asset.1, asset.2.current) ∈ f.assetKeys ++ rest :=
      List.mem_append_left rest (List.mem_map_of_mem hasset)
    rw [hkeys] at hmem
    obtain ⟨x, hx, heq⟩ := List.mem_map.mp hmem
    have hasset' : x.1 = asset.1 := congrArg Prod.fst heq
    rw [hf asset hasset, ← hasset', hassets x hx]
  cases ph with
  | loadVideo | selectJob | insertJob => exact hroom h
  | selectAsset f todo => exact hseen hshaped.2.2.2.2 h
  | flush f => exact hseen ((List.append_nil _).trans hshaped.2.2) h
  | _ => exact h

end VideoProcessing
