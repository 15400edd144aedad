import VideoProcessing.Library.Family
import VideoProcessing.Worker.Assets

/-!
# Videos side by side

Attempts on different videos share the tables and nothing else. The one constraint that spans
videos, `UNIQUE(object_key)`, never stops a flush, since the key spells out the video. So the runs
of the fleet are the interleavings of one run for each video, and what is proved of every run on one
video holds for each video of a fleet.

A step of one video's attempts is the same step on the video's own rows, as no flush is refused for
a row of another video.
-/

namespace VideoProcessing

open Python UnitOfWork Transitions

variable {p p' : Pool} {fl fl' : Fleet} {l : PoolLabel} {v : ℕ}

/-- The label of the fleet as one of videos that know nothing of each other. -/
def FleetLabel.apart : FleetLabel → FamilyLabel Pool PoolLabel
  | .create videoId filename originalObjectKey =>
      .join (.created videoId filename originalObjectKey)
  | .attempt v l => .step v l

/-- The videos created, without attempts. -/
def createdVideos (ls : List FleetLabel) : List Pool := joining (ls.map FleetLabel.apart)

/-- The steps of the attempts on video `v`. -/
def attemptsOn (v : ℕ) (ls : List FleetLabel) : List PoolLabel :=
  stepsOn v (ls.map FleetLabel.apart)

/-- No attempt on a video that has yet to be created. -/
def CreatedFirst (ls : List FleetLabel) : Prop := JoinFirst 0 (ls.map FleetLabel.apart)

/-- Every asset stored or about to be is the activity's own. -/
def Fleet.Keyed (fl : Fleet) : Prop := ∀ p ∈ fl.videos, p.Faithful Readings.any

/-- A fleet is its videos. -/
theorem Fleet.eq_of_videos (h : fl.videos = fl'.videos) : fl = fl' := by
  cases fl
  cases h
  rfl

/-- A fleet without videos. -/
theorem Fleet.keyed_empty : Fleet.empty.Keyed := fun p hp => by cases hp

/-- A flush stores assets under the video's own keys. -/
theorem Pool.Faithful.flushes_key (h : p.Faithful Readings.any) {asset : AssetType × Str}
    (hasset : asset ∈ p.flushes l) : asset.2 = assetKey p.videoId asset.1 := by
  cases l with
  | begin | vanish => cases hasset
  | resume i ans =>
    -- only a flush that succeeds writes assets
    cases ans with
    | error | noConnection | probed => cases hasset
    | ok now =>
      cases ha : p.attempts[i]? with
      | none =>
        simp only [Pool.flushes, ha, Option.map_none] at hasset
        cases hasset
      | some a =>
        obtain ⟨act, ph⟩ := a
        simp only [Pool.flushes, ha, Option.map_some] at hasset
        cases ph with
        | flush f =>
          have hkeys := (h.sound i _ ha).shaped.2.2
          obtain ⟨object, hobject, ha, hcurrent, -⟩ := mem_filterMap_dirtyAsset.mp hasset
          have hup := Frame.mem_uploads_of_assetKeys hkeys hobject hcurrent
          rw [ha] at hup
          exact key_of_mem_uploads hup
        | _ => cases hasset

/-- `UNIQUE(object_key)` holds across videos without being checked. -/
theorem Fleet.Keyed.not_collides (h : fl.Keyed) (hp : fl.videos[v]? = some p) :
    fl.collides v p l = false := by
  rw [Bool.eq_false_iff]
  intro hcollides
  obtain ⟨asset, hasset, hothers⟩ := List.any_eq_true.mp hcollides
  obtain ⟨q, hq, hstored⟩ := List.any_eq_true.mp hothers
  obtain ⟨a, -, hstored⟩ := List.any_eq_true.mp hstored
  obtain ⟨j, hj, hq⟩ := List.mem_eraseIdx_iff_getElem?.mp hq
  have hown := (h p (List.mem_of_getElem? hp)).flushes_key hasset
  have hother := (h q (List.mem_of_getElem? hq)).rows.asset_key (of_decide_eq_true hstored)
  exact fl.videoId_ne hp hj hq (assetKey_inj (hown.symm.trans hother)).1

/-- Every step keeps the keys of different videos apart. -/
theorem Fleet.Keyed.step {l : FleetLabel} (h : fl.Keyed) (hstep : fl.step l = some fl') :
    fl'.Keyed := by
  cases l with
  | create videoId filename key =>
    obtain ⟨-, hvideos⟩ := Fleet.create_eq_some hstep
    intro p hp
    rw [hvideos] at hp
    rcases List.mem_append.mp hp with hp | hp
    · exact h p hp
    · obtain rfl := List.mem_singleton.mp hp
      exact Pool.faithful_created _ videoId filename key
  | attempt v l =>
    obtain ⟨p, p', hp, -, hp', hvideos⟩ := Fleet.attempt_eq_some hstep
    intro q hq
    rw [hvideos] at hq
    rcases fl.mem_set hp hq with rfl | ⟨hq, -⟩
    · exact (h p (List.mem_of_getElem? hp)).step_any hp'
    · exact h q hq

/-! ## The fleet as a family -/

/-- A step of one video leaves all ids alone. -/
theorem family_attempt_ids {videos videos' : List Pool}
    (h : family Pool.step videos (.step v l) = some videos') :
    videos'.map Pool.videoId = videos.map Pool.videoId := by
  obtain ⟨p, p', hp, hp', rfl⟩ := family_step_eq_some.mp h
  exact map_videoId_set hp (Pool.step_videoId hp')

/-- A run adds the IDs of the videos that join. -/
theorem exec_family_ids {videos videos' : List Pool} {ls : List (FamilyLabel Pool PoolLabel)}
    (hrun : exec (family Pool.step) videos ls = some videos') :
    videos'.map Pool.videoId = videos.map Pool.videoId ++ (joining ls).map Pool.videoId := by
  induction ls generalizing videos with
  | nil =>
    obtain rfl := Option.some.inj hrun
    exact (List.append_nil _).symm
  | cons l ls ih =>
    obtain ⟨videos₁, hstep, hrun⟩ := Option.bind_eq_some_iff.mp hrun
    rw [ih hrun]
    cases l with
    | join p =>
      obtain rfl := Option.some.inj hstep
      rw [joining, List.map_append, List.append_assoc]
      rfl
    | step v l =>
      rw [joining, family_attempt_ids hstep]

/-- A step of the fleet is one of its videos by themselves, where the IDs stay distinct. -/
theorem Fleet.Keyed.step_iff {l : FleetLabel} (h : fl.Keyed) :
    fl.step l = some fl' ↔ family Pool.step fl.videos l.apart = some fl'.videos := by
  cases l with
  | create videoId filename key =>
    constructor
    · intro hstep
      obtain ⟨-, hvideos⟩ := Fleet.create_eq_some hstep
      exact congrArg some hvideos.symm
    · intro hfamily
      have hvideos := Option.some.inj hfamily
      have hids := fl'.ids
      rw [← hvideos, List.map_append] at hids
      have hnew : videoId ∉ fl.videos.map Pool.videoId := fun hmem =>
        List.disjoint_of_nodup_append hids hmem (List.mem_singleton.mpr rfl)
      simp only [Fleet.step, Fleet.create, dif_neg hnew, Option.some.injEq]
      exact Fleet.eq_of_videos hvideos
  | attempt v l =>
    constructor
    · intro hstep
      obtain ⟨p, p', hp, -, hp', hvideos⟩ := Fleet.attempt_eq_some hstep
      exact family_step_eq_some.mpr ⟨p, p', hp, hp', hvideos⟩
    · intro hfamily
      obtain ⟨p, p', hp, hp', hvideos⟩ := family_step_eq_some.mp hfamily
      have hfree := h.not_collides (l := l) hp
      rw [Fleet.step]
      unfold Fleet.attempt
      split
      · rename_i hnone
        cases hp.symm.trans hnone
      · rename_i q hq
        obtain rfl := Option.some.inj (hp.symm.trans hq)
        rw [if_neg (by rw [hfree]; exact Bool.false_ne_true)]
        split
        · rename_i hnone
          cases hp'.symm.trans hnone
        · rename_i q' hq'
          obtain rfl := Option.some.inj (hp'.symm.trans hq')
          exact congrArg some (Fleet.eq_of_videos hvideos.symm)

/-- The runs of a fleet are those of a family of pools. -/
theorem Fleet.Keyed.exec_iff {ls : List FleetLabel} (h : fl.Keyed) :
    exec Fleet.step fl ls = some fl' ↔
      exec (family Pool.step) fl.videos (ls.map FleetLabel.apart) = some fl'.videos := by
  induction ls generalizing fl with
  | nil =>
    rw [List.map_nil, exec_nil, exec_nil, Option.some.injEq, Option.some.injEq]
    exact ⟨congrArg Fleet.videos, Fleet.eq_of_videos⟩
  | cons l ls ih =>
    rw [List.map_cons, exec_cons, exec_cons, Option.bind_eq_some_iff, Option.bind_eq_some_iff]
    constructor
    · rintro ⟨fl₁, hstep, hrun⟩
      exact ⟨fl₁.videos, h.step_iff.mp hstep, (ih (h.step hstep)).mp hrun⟩
    · rintro ⟨videos₁, hstep, hrun⟩
      -- the IDs so far are the first of those at the end
      have hids := fl'.ids
      rw [exec_family_ids hrun] at hids
      have hstep₁ : fl.step l = some ⟨videos₁, hids.of_append_left⟩ := h.step_iff.mpr hstep
      exact ⟨_, hstep₁, (ih (h.step hstep₁)).mpr hrun⟩

/-- **Videos do not interfere.** The runs of the fleet are exactly those that create each video
before its attempts begin and take, for each video, the steps of a run of the attempts on it alone:
in whatever order the steps of different videos come, none enables, stops or changes another. -/
theorem videos_isolated {ls : List FleetLabel} {fl : Fleet} :
    exec Fleet.step .empty ls = some fl ↔
      CreatedFirst ls ∧ fl.videos.length = (createdVideos ls).length ∧
      ∀ v p, (createdVideos ls)[v]? = some p →
        exec Pool.step p (attemptsOn v ls) = fl.videos[v]? :=
  Fleet.keyed_empty.exec_iff.trans exec_family

end VideoProcessing
