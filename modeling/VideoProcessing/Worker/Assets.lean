import VideoProcessing.Worker.Fleet
import VideoProcessing.Worker.Stored

/-!
# No dangling assets

Every row of `generated_assets`, on any number of videos and whatever overlaps, fails or is killed,
names an object that an attempt for its video has made from the original and uploaded before the
row was committed. The key spells out the video and the asset type, so no two rows share it.

The calls of an attempt so far are a prefix of the calls of its activity, so where a key is looked
for or written its upload is among them. The journal only grows, so it stays there.
-/

namespace VideoProcessing

open Python UnitOfWork Transitions

/-! ## Keys -/

/-- The file name of an asset. -/
def AssetType.fileName : AssetType → Str
  | .thumbnail => str "thumbnail.jpg"
  | t => t.value ++ str ".mp4"

/-- The key of an asset by its parts. -/
theorem assetKey_eq (videoId : UUID) (t : AssetType) :
    assetKey videoId t = str "assets/" ++ (videoId.str ++ (str "/" ++ t.fileName)) := by
  cases t <;> simp only [assetKey, thumbnailKey, List.append_assoc] <;> rfl

/-- Assets are told apart by their file names. -/
theorem AssetType.fileName_injective : Function.Injective AssetType.fileName := by
  decide

/-- The key spells out the video and the asset type. -/
theorem assetKey_inj {videoId videoId' : UUID} {t t' : AssetType}
    (h : assetKey videoId t = assetKey videoId' t') : videoId = videoId' ∧ t = t' := by
  rw [assetKey_eq, assetKey_eq] at h
  have hlength : videoId.str.length = videoId'.str.length := by
    rw [UUID.length_str, UUID.length_str]
  obtain ⟨hid, hname⟩ := List.append_inj (List.append_cancel_left h) hlength
  exact ⟨UUID.str_injective hid, AssetType.fileName_injective (List.append_cancel_left hname)⟩

/-! ## The calls of an attempt -/

/-- The call makes a file of this asset type from the downloaded original. -/
def Io.Produces (t : AssetType) : Io → Prop
  | .generateThumbnail => t = .thumbnail
  | .transcode rendition => rendition.assetType = t
  | _ => False

/-- Among the calls, in this order, are the download of the original, the making of the asset and
its upload under the key. -/
def Uploaded (originalKey : Str) (t : AssetType) (key : Str) (calls : List Io) : Prop :=
  ∃ io : Io, io.Produces t ∧
    [.downloadOriginal originalKey, io, .uploadFile t key].Sublist calls

/-- More calls undo no upload. -/
theorem Uploaded.mono {originalKey key : Str} {t : AssetType} {calls : List Io}
    (h : Uploaded originalKey t key calls) (calls' : List Io) :
    Uploaded originalKey t key (calls ++ calls') := by
  obtain ⟨io, hio, hsub⟩ := h
  exact ⟨io, hio, hsub.trans (List.sublist_append_left ..)⟩

/-- All calls of an activity upload what it stores. -/
theorem uploaded_io {videoId : UUID} {act : Activity} {originalKey key : Str} {t : AssetType}
    (hmem : (t, key) ∈ act.uploads videoId) :
    Uploaded originalKey t key (act.io videoId originalKey) := by
  cases act with
  | extractMetadata => cases hmem
  | generateThumbnail =>
    obtain ⟨rfl, rfl⟩ := Prod.mk.inj (List.mem_singleton.mp hmem)
    exact ⟨.generateThumbnail, rfl, List.Sublist.refl _⟩
  | transcode sourceHeight =>
    obtain ⟨rendition, hrendition, heq⟩ := List.mem_map.mp hmem
    obtain ⟨rfl, rfl⟩ := Prod.mk.inj heq
    refine ⟨.transcode rendition, rfl, List.Sublist.cons_cons _ ?_⟩
    obtain ⟨before, after, hsplit⟩ := List.append_of_mem hrendition
    rw [hsplit, List.flatMap_append, List.flatMap_cons]
    exact (List.sublist_append_left _ _).trans (List.sublist_append_right _ _)

/-- What an attempt has called by each await. -/
def Phase.Called (videoId : UUID) (act : Activity) (originalKey : Str) (calls : List Io) :
    Phase → Prop
  | .loadVideo => calls = []
  | .selectJob video | .insertJob video =>
    calls = [] ∧ video.current.originalObjectKey = originalKey
  | .commitClaim f => calls = [] ∧ f.video.current.originalObjectKey = originalKey
  | .work _ todo => calls ++ todo = act.io videoId originalKey
  | .selectAsset _ _ | .flush _ | .countCompleted _ | .commitCompletion _ =>
    calls = act.io videoId originalKey
  | _ => True

variable {videoId : UUID} {act : Activity} {originalKey : Str} {calls : List Io} {f : Frame}
  {st st' : Store} {ph ph' : Phase} {ans : Answer} {t : AssetType} {key : Str}

/-- The calls made and the calls left are those of the activity. -/
theorem working_called {now : Time} {todo : List Io}
    (hcalls : calls ++ todo = act.io videoId originalKey)
    (h : working videoId act f now todo = some ph) :
    ph.Called videoId act originalKey calls := by
  rcases working_cases h with ⟨rfl, -⟩ | ⟨rfl, g, assets, rfl⟩
  · exact hcalls
  · rw [List.append_nil] at hcalls
    cases assets <;> exact hcalls

/-- After the claim all calls are left. -/
theorem claimed_called (hcalls : calls = [])
    (hkey : f.video.current.originalObjectKey = originalKey) :
    (claimed videoId act f).Called videoId act originalKey calls := by
  have hwork : (Phase.work f (act.io videoId f.video.current.originalObjectKey)).Called videoId act
      originalKey calls := by
    rw [Phase.Called, hcalls, hkey, List.nil_append]
  cases act with
  | transcode sourceHeight =>
    rw [claimed]
    split
    exacts [trivial, hwork]
  | extractMetadata | generateThumbnail => exact hwork

/-- The claim leaves the key of the original alone. -/
theorem claimJob_originalObjectKey (now : Time) (video : Tracked Video)
    (job : Tracked ProcessingJob) :
    (claimJob now video job).video.current.originalObjectKey = video.current.originalObjectKey := by
  simp only [claimJob, Tracked.modify_current]
  rw [Video.claim_eq]

/-- An await makes one call at most. -/
theorem Resumes.called (h : Resumes videoId act st ph ans st' ph')
    (hph : ph.Called videoId act st.rows.video.originalObjectKey calls) :
    ph'.Called videoId act st.rows.video.originalObjectKey (calls ++ ph.call? ans) := by
  have hsame {calls' : List Io} (hcalls : calls = calls') : calls ++ [] = calls' :=
    (List.append_nil calls).trans hcalls
  -- the call at the head of the list is made
  have hnext {io : Io} {todo : List Io}
      (hcalls : calls ++ io :: todo = act.io videoId st.rows.video.originalObjectKey) :
      (calls ++ [io]) ++ todo = act.io videoId st.rows.video.originalObjectKey := by
    rwa [List.append_assoc, List.singleton_append]
  cases h with
  | load => exact ⟨hsame hph, rfl⟩
  | selectNone => exact ⟨hsame hph.1, hph.2⟩
  | selectCompleted =>
    cases act with
    | extractMetadata =>
      simp only [alreadyCompleted]
      split <;> trivial
    | generateThumbnail | transcode => trivial
  | selectJob | insert => exact ⟨hsame hph.1, (claimJob_originalObjectKey ..).trans hph.2⟩
  | commitClaim => exact claimed_called (hsame hph.1) hph.2
  | call _ _ hwork | probe hwork | upload hwork => exact working_called (hnext hph) hwork
  | @selectAsset _ _ _ _ todo => cases todo <;> exact hsame hph
  | flush | countCompleted => exact hsame hph
  | insertLost | giveUp | workFails | completionFails | commitCompletion | noConnection
  | failJobBroken | failJob | failJobFails => trivial

/-- No statement writes the key of the original. -/
theorem Resumes.originalObjectKey (h : Resumes videoId act st ph ans st' ph') :
    st'.rows.video.originalObjectKey = st.rows.video.originalObjectKey := by
  rcases h.rows_cases with heq | ⟨-, heq⟩ | ⟨f, -, heq⟩
  · rw [heq]
  · rw [heq]
  · rw [heq]
    rfl

/-! ## The rows -/

/-- Every asset of the rows has been uploaded by some attempt for the video. -/
def Pool.Backed (journal : Journal) (p : Pool) : Prop :=
  ∀ t key, p.rows.assets t = some key →
    ∃ i, Uploaded p.rows.video.originalObjectKey t key (journal.of p.videoId i)

structure Pool.Journaled (journal : Journal) (p : Pool) : Prop where
  faithful : p.Faithful Readings.any
  called : ∀ (i : ℕ) a, p.attempts[i]? = some a → a.phase.Called p.videoId a.activity
    p.rows.video.originalObjectKey (journal.of p.videoId i)
  /-- nothing is recorded for attempts to come -/
  fresh : ∀ i, p.attempts.length ≤ i → journal.of p.videoId i = []
  backed : p.Backed journal

variable {p p' : Pool} {l : PoolLabel} {journal : Journal} {i : ℕ}

/-- Every step is faithful to some readings. -/
theorem Pool.Faithful.step_any (h : p.Faithful Readings.any) (hstep : p.step l = some p') :
    p'.Faithful Readings.any := by
  cases l with
  | begin act =>
    obtain rfl := Option.some.inj hstep
    exact h.begin (by cases act <;> trivial)
  | resume i ans =>
    refine h.resume ?_ hstep
    cases ans with
    | probed => exact fun _ => trivial
    | ok | error | noConnection => trivial
  | vanish i => exact h.vanish hstep

/-- Only a completion stores assets: those it has flushed. -/
theorem RowChange.assets_cases {rows rows' : VideoRows} (h : RowChange act rows ph rows')
    (hkey : rows'.assets t = some key) :
    rows.assets t = some key ∨
      ∃ f, ph = .commitCompletion f ∧ (t, key) ∈ f.flushed.assets := by
  cases h with
  | same | insert => exact .inl hkey
  | claim hf =>
    rw [hf.commit_eq, hf.statusOnly.apply_eq] at hkey
    exact .inl hkey
  | fail _ hf =>
    rw [hf.commit_eq, hf.statusOnly.apply_eq] at hkey
    exact .inl hkey
  | @complete f hf =>
    rw [hf.commit_eq, Writes.apply_assets] at hkey
    cases hlookup : f.flushed.assets.lookup t with
    | none =>
      rw [hlookup] at hkey
      exact .inl hkey
    | some key' =>
      rw [hlookup] at hkey
      obtain rfl : key' = key := Option.some.inj hkey
      obtain ⟨before, after, hsplit, -⟩ := List.lookup_eq_some_iff.mp hlookup
      exact .inr ⟨f, rfl, by simp [hsplit]⟩

/-- An asset that a step stores was uploaded before that step. -/
theorem Pool.Journaled.backed_step (h : p.Journaled journal) (hstep : p.step l = some p') :
    p'.Backed journal := by
  cases l with
  | begin act =>
    obtain rfl := Option.some.inj hstep
    exact h.backed
  | vanish i =>
    obtain ⟨_, -, rfl⟩ := Pool.vanish_eq_some hstep
    exact h.backed
  | resume i ans =>
    obtain ⟨⟨act, ph⟩, st, ph', ha, hres, rfl⟩ := Pool.resume_eq_some hstep
    intro t key hkey
    change ∃ i, Uploaded st.rows.video.originalObjectKey t key (journal.of p.videoId i)
    rw [hres.originalObjectKey]
    rcases (hres.rowChange (h.faithful.sound i _ ha).shaped).assets_cases hkey with
      hbefore | ⟨f, rfl, hmem⟩
    · exact h.backed t key hbefore
    · have hcalled : journal.of p.videoId i = act.io p.videoId p.rows.video.originalObjectKey :=
        h.called i _ ha
      have hcarries := (h.faithful.attempts i _ ha).phase.1
      exact ⟨i, by rw [hcalled]; exact uploaded_io (hcarries.assets _ hmem)⟩

/-- The journal after the calls of one step. -/
theorem Pool.of_calls (journal : Journal) (p : Pool) {a : Attempt} {j : ℕ} {ans : Answer}
    (ha : p.attempts[j]? = some a) (i : ℕ) :
    Journal.of (journal ++ p.calls (.resume j ans)) p.videoId i =
      journal.of p.videoId i ++ if i = j then a.phase.call? ans else [] := by
  have hcalls : Journal.of (p.calls (.resume j ans)) p.videoId i =
      if i = j then a.phase.call? ans else [] := by
    simp only [Journal.of, Pool.calls, ha, Option.elim_some, List.filter_map]
    by_cases hij : i = j
    · subst hij
      simp [Function.comp_def]
    · simp [Function.comp_def, hij, Ne.symm hij]
  rw [Journal.of_append, hcalls]

/-- Every step enters its call. -/
theorem Pool.Journaled.step (h : p.Journaled journal) (hstep : p.step l = some p') :
    p'.Journaled (journal ++ p.calls l) := by
  -- an asset's row keeps its call when the journal grows
  have hbacked : p'.Backed (journal ++ p.calls l) := by
    intro t key hkey
    obtain ⟨i, hi⟩ := h.backed_step hstep t key hkey
    exact ⟨i, by rw [Journal.of_append]; exact hi.mono _⟩
  have hfaithful := h.faithful.step_any hstep
  cases l with
  | begin act =>
    have hnil : journal ++ p.calls (.begin act) = journal := List.append_nil journal
    rw [hnil] at hbacked ⊢
    obtain rfl := Option.some.inj hstep
    refine ⟨hfaithful, fun i b hb => ?_, fun i hi => h.fresh i (le_trans ?_ hi), hbacked⟩
    · rcases getElem?_append_cases hb with ⟨rfl, rfl⟩ | hb
      · -- a new attempt has called nothing
        exact h.fresh _ le_rfl
      · exact h.called i b hb
    · simp [Pool.begin]
  | vanish j =>
    have hnil : journal ++ p.calls (.vanish j) = journal := List.append_nil journal
    rw [hnil] at hbacked ⊢
    obtain ⟨a, -, rfl⟩ := Pool.vanish_eq_some hstep
    refine ⟨hfaithful, fun i b hb => ?_, fun i hi => h.fresh i (by simpa using hi), hbacked⟩
    rcases getElem?_set_cases hb with ⟨-, rfl⟩ | ⟨-, hb⟩
    · trivial
    · exact h.called i b hb
  | resume j ans =>
    obtain ⟨a, st, ph, ha, hres, rfl⟩ := Pool.resume_eq_some hstep
    refine ⟨hfaithful, fun i b hb => ?_, fun i hi => ?_, hbacked⟩
    · change b.phase.Called p.videoId b.activity st.rows.video.originalObjectKey _
      rw [hres.originalObjectKey, Pool.of_calls journal p ha]
      -- the attempt that resumes makes the call, and no other does
      rcases getElem?_set_cases hb with ⟨rfl, rfl⟩ | ⟨hi, hb⟩
      · rw [if_pos rfl]
        exact hres.called (h.called i a ha)
      · rw [if_neg hi, List.append_nil]
        exact h.called i b hb
    · have hlength : p.attempts.length ≤ i := by simpa using hi
      have hne : i ≠ j := by
        rintro rfl
        rw [List.getElem?_eq_none hlength] at ha
        cases ha
      rw [Pool.of_calls journal p ha, if_neg hne, List.append_nil]
      exact h.fresh i hlength

/-! ## The fleet -/

/-- Calls for other videos do not matter. -/
theorem Journal.of_append_of_ne {journal' : Journal} {videoId : UUID}
    (hothers : ∀ call ∈ journal', call.videoId ≠ videoId) (journal : Journal) (i : ℕ) :
    Journal.of (journal ++ journal') videoId i = journal.of videoId i := by
  have hnil : Journal.of journal' videoId i = [] := by
    refine List.map_eq_nil_iff.mpr (List.filter_eq_nil_iff.mpr fun call hcall => ?_)
    simp [hothers call hcall]
  rw [Journal.of_append, hnil, List.append_nil]

/-- The calls on other videos make no difference. -/
theorem Pool.Journaled.append (h : p.Journaled journal) {journal' : Journal}
    (hothers : ∀ call ∈ journal', call.videoId ≠ p.videoId) :
    p.Journaled (journal ++ journal') := by
  have hsame := Journal.of_append_of_ne hothers journal
  refine ⟨h.faithful, fun i a ha => ?_, fun i hi => ?_, fun t key hkey => ?_⟩
  · rw [hsame]
    exact h.called i a ha
  · rw [hsame]
    exact h.fresh i hi
  · obtain ⟨i, hi⟩ := h.backed t key hkey
    exact ⟨i, by rwa [hsame]⟩

/-- A new video has no calls. -/
theorem Pool.journaled_created {videoId : UUID} (filename key : Str)
    (hnew : ∀ call ∈ journal, call.videoId ≠ videoId) :
    (Pool.created videoId filename key).Journaled journal := by
  refine ⟨Pool.faithful_created _ videoId filename key, fun i a ha => ?_, fun i _ => ?_,
    fun t key hkey => ?_⟩
  · simp [Pool.created] at ha
  · exact (Journal.of_append_of_ne hnew [] i).trans rfl
  · cases hkey

structure Fleet.Journaled (journal : Journal) (fl : Fleet) : Prop where
  pools : ∀ p ∈ fl.videos, p.Journaled journal
  known : ∀ call ∈ journal, call.videoId ∈ fl.videos.map Pool.videoId

variable {fl fl' : Fleet} {journal' : Journal} {v : ℕ}

/-- A call is entered under its video. -/
theorem Pool.videoId_of_mem_calls {call : Call} (h : call ∈ p.calls l) :
    call.videoId = p.videoId := by
  cases l with
  | begin | vanish => cases h
  | resume i ans =>
    obtain ⟨io, -, rfl⟩ := List.mem_map.mp h
    rfl

/-- Another video has another ID. -/
theorem Fleet.videoId_ne (fl : Fleet) {q : Pool} (hp : fl.videos[v]? = some p) {j : ℕ}
    (hj : j ≠ v) (hq : fl.videos[j]? = some q) : p.videoId ≠ q.videoId := by
  intro hid
  have hlt : j < (fl.videos.map Pool.videoId).length := by
    rw [List.length_map]
    exact (List.getElem?_eq_some_iff.mp hq).1
  refine hj ((List.getElem?_inj hlt fl.ids).mp ?_)
  rw [List.getElem?_map, List.getElem?_map, hp, hq, Option.map_some, Option.map_some, hid]

/-- After a step of the attempts on one video the others are as before. -/
theorem Fleet.mem_set {q : Pool} (fl : Fleet) (hp : fl.videos[v]? = some p)
    (hq : q ∈ fl.videos.set v p') : q = p' ∨ q ∈ fl.videos ∧ p.videoId ≠ q.videoId := by
  obtain ⟨j, hj⟩ := List.mem_iff_getElem?.mp hq
  rcases getElem?_set_cases hj with ⟨-, rfl⟩ | ⟨hne, hj⟩
  · exact .inl rfl
  · exact .inr ⟨List.mem_of_getElem? hj, fl.videoId_ne hp hne hj⟩

/-- Every step of the fleet enters its call, and stores what was uploaded. -/
theorem Fleet.Journaled.step {l : FleetLabel} (h : fl.Journaled journal)
    (hstep : observe Fleet.record Fleet.step (fl, journal) l = some (fl', journal')) :
    fl'.Journaled journal' ∧ ∀ p ∈ fl'.videos, p.Backed journal := by
  obtain ⟨hfleet, hjournal⟩ := observe_eq_some.mp hstep
  obtain rfl : journal' = fl.record l journal := hjournal
  cases l with
  | create videoId filename key =>
    obtain ⟨hnew, hvideos⟩ := Fleet.create_eq_some hfleet
    -- nothing was ever called for a video that is new
    have hcreated : (Pool.created videoId filename key).Journaled journal :=
      Pool.journaled_created filename key fun call hcall hid => hnew (hid ▸ h.known call hcall)
    have hpools : ∀ p ∈ fl'.videos, p.Journaled journal := by
      rw [hvideos]
      intro p hp
      rcases List.mem_append.mp hp with hp | hp
      · exact h.pools p hp
      · exact List.mem_singleton.mp hp ▸ hcreated
    refine ⟨⟨hpools, fun call hcall => ?_⟩, fun p hp => (hpools p hp).backed⟩
    rw [hvideos, List.map_append]
    exact List.mem_append_left _ (h.known call hcall)
  | attempt v l =>
    obtain ⟨p, p', hp, -, hp', hvideos⟩ := Fleet.attempt_eq_some hfleet
    have hold := h.pools p (List.mem_of_getElem? hp)
    have hrecord : fl.record (.attempt v l) journal = journal ++ p.calls l := by
      simp only [Fleet.record, hp, Option.elim_some]
    have hids : fl'.videos.map Pool.videoId = fl.videos.map Pool.videoId := by
      rw [hvideos, map_videoId_set hp (Pool.step_videoId hp')]
    rw [hrecord]
    refine ⟨⟨fun q hq => ?_, fun call hcall => ?_⟩, fun q hq => ?_⟩
    · rw [hvideos] at hq
      rcases fl.mem_set hp hq with rfl | ⟨hq, hne⟩
      · exact hold.step hp'
      · -- the calls recorded are of another video
        exact (h.pools q hq).append fun call hcall hid =>
          hne ((Pool.videoId_of_mem_calls hcall).symm.trans hid)
    · rw [hids]
      rcases List.mem_append.mp hcall with hcall | hcall
      · exact h.known call hcall
      · rw [Pool.videoId_of_mem_calls hcall]
        exact List.mem_map_of_mem (List.mem_of_getElem? hp)
    · rw [hvideos] at hq
      rcases fl.mem_set hp hq with rfl | ⟨hq, -⟩
      · exact hold.backed_step hp'
      · exact (h.pools q hq).backed

/-- So does every run. -/
theorem Fleet.Journaled.exec {ls : List FleetLabel} (h : fl.Journaled journal)
    (hrun : exec (observe Fleet.record Fleet.step) (fl, journal) ls = some (fl', journal')) :
    fl'.Journaled journal' :=
  exec_invariant (I := fun q => q.1.Journaled q.2) (fun _ _ _ hq hstep => (hq.step hstep).1) h hrun

/-! ## The constraints of the table -/

/-- No two rows share a video and an asset type. -/
theorem Fleet.nodup_types (fl : Fleet) :
    (fl.generatedAssets.map fun row => (row.1, row.2.1)).Nodup := by
  rw [Fleet.generatedAssets, List.map_flatMap, List.nodup_flatMap]
  constructor
  · intro p _
    have htypes := p.rows.nodup_assetRows_types.map (Prod.mk_right_injective p.videoId)
    simpa [List.map_map, Function.comp_def] using htypes
  · refine (List.pairwise_map.mp fl.ids).imp fun {p q} hid => ?_
    refine List.disjoint_left.mpr ?_
    intro row hp hq
    simp only [List.map_map, List.mem_map, Function.comp_apply] at hp hq
    obtain ⟨_, -, rfl⟩ := hp
    obtain ⟨_, -, heq⟩ := hq
    exact hid (congrArg Prod.fst heq).symm

/-- No two rows share a key. -/
theorem Fleet.Journaled.nodup_keys (h : fl.Journaled journal) :
    (fl.generatedAssets.map fun row => row.2.2).Nodup := by
  have hkey {p : Pool} (hp : p ∈ fl.videos) {asset : AssetType × Str}
      (hasset : asset ∈ p.rows.assetRows) : asset.2 = assetKey p.videoId asset.1 :=
    (h.pools p hp).faithful.rows.asset_key (VideoRows.mem_assetRows.mp hasset)
  rw [Fleet.generatedAssets, List.map_flatMap, List.nodup_flatMap]
  constructor
  · intro p hp
    rw [List.map_map]
    refine List.Nodup.map_on (fun x hx y hy heq => ?_) p.rows.nodup_assetRows_types.of_map
    have heq : x.2 = y.2 := heq
    have htype := (assetKey_inj ((hkey hp hx).symm.trans (heq.trans (hkey hp hy)))).2
    exact Prod.ext htype heq
  · refine List.Pairwise.imp_of_mem ?_ (List.pairwise_map.mp fl.ids)
    intro p q hp hq hid
    refine List.disjoint_left.mpr ?_
    intro key hkp hkq
    simp only [List.map_map, List.mem_map, Function.comp_apply] at hkp hkq
    obtain ⟨x, hx, rfl⟩ := hkp
    obtain ⟨y, hy, heq⟩ := hkq
    exact hid (assetKey_inj ((hkey hp hx).symm.trans (heq.symm.trans (hkey hq hy)))).1

/-- However the attempts on all videos are interleaved, killed or fail: in every state a step leads
to, each asset has the key of its video and type, some attempt for that video had downloaded the
original, made the asset from it and uploaded it under the key before the step, and no two rows
share the video and the type, or the key. -/
theorem no_dangling_assets {ls : List FleetLabel} {l : FleetLabel} {fl fl' : Fleet}
    {journal journal' : Journal}
    (hrun : exec (observe Fleet.record Fleet.step) (.empty, []) ls = some (fl, journal))
    (hstep : observe Fleet.record Fleet.step (fl, journal) l = some (fl', journal')) :
    (∀ p ∈ fl'.videos, ∀ t key, p.rows.assets t = some key →
      key = str "assets/" ++ (p.videoId.str ++ (str "/" ++ t.fileName)) ∧
      ∃ i, Uploaded p.rows.video.originalObjectKey t key (journal.of p.videoId i)) ∧
    (fl'.generatedAssets.map fun row => (row.1, row.2.1)).Nodup ∧
    (fl'.generatedAssets.map fun row => row.2.2).Nodup := by
  have hempty : Fleet.empty.Journaled [] := by
    constructor
    · intro p hp
      cases hp
    · intro call hcall
      cases hcall
  obtain ⟨hafter, hbacked⟩ := (hempty.exec hrun).step hstep
  refine ⟨fun p hp t key hkey => ⟨?_, hbacked p hp t key hkey⟩, fl'.nodup_types,
    hafter.nodup_keys⟩
  rw [← assetKey_eq]
  exact (hafter.pools p hp).faithful.rows.asset_key hkey

/-- Two videos get their thumbnails; the attempt on the second is killed after its upload. -/
def Fleet.thumbnails : List FleetLabel :=
  [.create ⟨7⟩ (str "clip.mp4") (str "uploads/00000000-0000-0000-0000-000000000007/original.mp4"),
    .create ⟨8⟩ (str "cut.mp4") (str "uploads/00000000-0000-0000-0000-000000000008/original.mp4"),
    .attempt 0 (.begin .generateThumbnail), .attempt 1 (.begin .generateThumbnail)] ++
  (List.replicate 7 [.attempt 0 (.resume 0 (.ok 0)), .attempt 1 (.resume 0 (.ok 0))]).flatten ++
  .attempt 1 (.vanish 0) :: List.replicate 3 (.attempt 0 (.resume 0 (.ok 0)))

/-- The completion of the attempt that was not killed stores the one asset row. -/
theorem no_dangling_assets_clip : ∃ fl fl' : Fleet, ∃ journal journal' : Journal,
    exec (observe Fleet.record Fleet.step) (.empty, []) Fleet.thumbnails = some (fl, journal) ∧
    observe Fleet.record Fleet.step (fl, journal) (.attempt 0 (.resume 0 (.ok 0))) =
      some (fl', journal') ∧ fl'.generatedAssets.length = 1 ∧
    (∀ p ∈ fl'.videos, ∀ t key, p.rows.assets t = some key →
      key = str "assets/" ++ (p.videoId.str ++ (str "/" ++ t.fileName)) ∧
      ∃ i, Uploaded p.rows.video.originalObjectKey t key (journal.of p.videoId i)) ∧
    (fl'.generatedAssets.map fun row => (row.1, row.2.1)).Nodup ∧
    (fl'.generatedAssets.map fun row => row.2.2).Nodup := by
  have hrun : (exec (observe Fleet.record Fleet.step) (.empty, []) Fleet.thumbnails).any fun q =>
      (observe Fleet.record Fleet.step q (.attempt 0 (.resume 0 (.ok 0)))).any fun q' =>
        decide (q'.1.generatedAssets.length = 1) := by decide +kernel
  obtain ⟨⟨fl, journal⟩, hrun, h⟩ := (Option.any_eq_true _ _).mp hrun
  obtain ⟨⟨fl', journal'⟩, hstep, hlength⟩ := (Option.any_eq_true _ _).mp h
  exact ⟨fl, fl', journal, journal', hrun, hstep, of_decide_eq_true hlength,
    no_dangling_assets hrun hstep⟩

end VideoProcessing
