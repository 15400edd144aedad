import VideoProcessing.Worker.Attempts

/-!
# The failure handler

Every activity ends an exception with `fail_job` on the session it has been using. That session
still holds what the completion had set, and after a failed statement it is broken, so the handler
does its work when the exception came before the completion and in general not otherwise.

The frame the handler finds is the one at which the exception came. It is enough to say of each
await which frame that is, and of each frame what its commit does to the job and the video.
-/

namespace VideoProcessing

open Python UnitOfWork Transitions

/-- A step of the attempt at this index. -/
def PoolLabel.concerns (i : ℕ) : PoolLabel → Bool
  | .begin _ => false
  | .resume j _ | .vanish j => j = i

/-- The handler of attempt `i`, which ran from `before` to `after`, has done what it is for: the
attempt raises, its job and the video are failed, and nothing of the completion is stored. -/
structure Pool.FailedAtomically (i : ℕ) (t : JobType) (before after : Pool) : Prop where
  raised : ∃ error, after.attempts[i]?.map Attempt.phase = some (.raised error)
  job : after.rows.jobStatus t = some .failed
  video : after.rows.video.status = .failed
  completedAt : (after.rows.jobs t).map ProcessingJob.completedAt =
    (before.rows.jobs t).map ProcessingJob.completedAt
  metadata : after.rows.video.metadata = before.rows.video.metadata
  assets : after.rows.assets = before.rows.assets

/-- The session of a handler whose completion has gone wrong makes no difference to these rows:
broken, it would have had nothing to change, and otherwise the `completed_at` it carries is what
the row has. -/
def Frame.Unnoticed (f : Frame) (t : JobType) (rows : VideoRows) : Prop :=
  if f.tx = .broken then rows.jobStatus t = some .failed ∧ rows.video.status = .failed
  else f.job.current.completedAt = f.job.loaded.completedAt ∨
    (rows.jobs t).map ProcessingJob.completedAt = some f.job.current.completedAt

variable {p p' : Pool} {i : ℕ} {a : Attempt} {f : Frame} {error : ActivityError}

/-! ## Entering the handler -/

/-- The handler is entered from the work, from the height check right after the claim, or from
inside the completion. -/
theorem Resumes.failJob_cases {videoId : UUID} {act : Activity} {st st' : Store} {ph ph' : Phase}
    {ans : Answer} (h : Resumes videoId act st ph ans st' ph') (hph' : ph' = .failJob f error) :
    (∃ g todo, ph = .work g todo ∧ f = { g.failJob with tx := .idle }) ∨
    (∃ g, ph = .commitClaim g ∧ f = g.committed.failJob) ∨
    ∃ g, ph.completion? = some g ∧ (f = { g.failJob with tx := .broken } ∨
      f = { g.failJob with tx := .idle }) := by
  cases h with
  | workFails => exact .inl ⟨_, _, rfl, (Phase.failJob.inj hph').1.symm⟩
  | @commitClaim _ g =>
    -- a source without height, found out right after the claim
    refine .inr (.inl ⟨g, rfl, ?_⟩)
    cases act with
    | transcode sourceHeight =>
      simp only [claimed] at hph'
      split at hph'
      · exact (Phase.failJob.inj hph').1.symm
      · cases hph'
    | extractMetadata | generateThumbnail => cases hph'
  | completionFails hph =>
    exact .inr (.inr ⟨_, hph, .inl (Phase.failJob.inj hph').1.symm⟩)
  | noConnection => exact .inr (.inr ⟨_, rfl, .inr (Phase.failJob.inj hph').1.symm⟩)
  | selectCompleted =>
    cases act with
    | extractMetadata =>
      rw [alreadyCompleted] at hph'
      split at hph' <;> cases hph'
    | generateThumbnail | transcode => cases hph'
  | call _ _ hwork | probe hwork | upload hwork =>
    subst hph'
    exact absurd (working_underway hwork) Bool.false_ne_true
  | @selectAsset _ f a key todo =>
    have hunderway := completing_underway (f.upsertAsset (st.rows.assets a) a key) todo
    rw [hph'] at hunderway
    exact absurd hunderway Bool.false_ne_true
  | _ => cases hph'

/-- Before the completion nothing has stamped the job, and no statement has failed. -/
theorem Resumes.failJob_before {videoId : UUID} {act : Activity} {st st' : Store} {ph : Phase}
    {ans : Answer} (h : Resumes videoId act st ph ans st' (.failJob f error))
    (hshaped : ph.Shaped videoId act) (hph : ph.completion? = none) :
    f.tx ≠ .broken ∧ f.job.current.completedAt = f.job.loaded.completedAt := by
  rcases h.failJob_cases rfl with ⟨g, todo, rfl, rfl⟩ | ⟨g, rfl, rfl⟩ | ⟨g, hg, -⟩
  · refine ⟨by simp, ?_⟩
    simp only [Frame.failJob, Tracked.modify_current, Tracked.modify_loaded, hshaped.1.job]
  · refine ⟨by simp [Frame.failJob, Frame.committed], ?_⟩
    simp only [Frame.failJob, Tracked.modify_current, Tracked.modify_loaded,
      hshaped.working.job]
  · cases hph.symm.trans hg

/-! ## The handler's commit -/

/-- No column refuses a failure. -/
theorem Frame.Failing.accepted {rows : VideoRows} (h : f.Failing) : f.accepted rows = true := by
  have hattempts : f.pending.job.attempts = none := by
    rw [Frame.pending, dirtyJob, h.job, dirty_self]
  simp only [Frame.accepted, Writes.inRange, h.statusOnly.durationMs, h.statusOnly.width,
    h.statusOnly.height, hattempts, h.assets, Option.all_none, List.any_nil, Bool.and_self,
    Bool.not_false]

/-- The commit writes the two statuses and at most a `completed_at` left behind. -/
theorem Frame.Failing.commit_completedAt {t : JobType} {rows : VideoRows} (h : f.Failing) :
    ((f.commit t rows).jobs t).map ProcessingJob.completedAt =
      (rows.jobs t).map fun job => if f.job.current.completedAt = f.job.loaded.completedAt then
        job.completedAt else f.job.current.completedAt := by
  rw [h.commit_eq, Writes.apply_jobs_self, Option.map_map]
  refine congrArg (Option.map · _) (funext fun job => ?_)
  exact put_dirty _ _ _

/-- A failure leaves the metadata alone. -/
theorem Frame.Failing.commit_metadata {t : JobType} {rows : VideoRows} (h : f.Failing) :
    (f.commit t rows).video.metadata = rows.video.metadata := by
  rw [h.commit_eq, h.statusOnly.apply_eq]
  rfl

/-- And the assets. -/
theorem Frame.Failing.commit_assets {t : JobType} {rows : VideoRows} (h : f.Failing) :
    (f.commit t rows).assets = rows.assets := by
  rw [h.commit_eq, h.statusOnly.apply_eq]

/-- A handler with a broken session raises and changes nothing. -/
theorem Pool.resume_failJob_broken (now : Time) (ha : p.attempts[i]? = some a)
    (hph : a.phase = .failJob f error) (htx : f.tx = .broken) :
    ∃ p', p.resume i (.ok now) = some p' ∧
      (p.FailedAtomically i a.activity.jobType p' ↔
        p.rows.jobStatus a.activity.jobType = some .failed ∧ p.rows.video.status = .failed) := by
  have hfree : p.blocked i (a.phase.wanted a.activity.jobType) = false := by
    simp [hph, Phase.wanted, htx, Pool.blocked]
  have hstep : a.phase.step p.videoId a.activity p.store (.ok now) =
      some (p.store, .raised .pendingRollback) := by
    simp only [hph, Phase.step, if_pos htx]
  refine ⟨_, Pool.resume_of_step ha hfree hstep, fun h => ⟨h.job, h.video⟩, ?_⟩
  rintro ⟨hjob, hvideo⟩
  exact ⟨⟨_, by rw [getElem?_set_self_of ha]; rfl⟩, hjob, hvideo, rfl, rfl, rfl⟩

/-- A handler whose session is not broken commits. -/
theorem Pool.resume_failJob (now : Time) (ha : p.attempts[i]? = some a)
    (hph : a.phase = .failJob f error) (htx : f.tx ≠ .broken) (hf : f.Failing)
    (hpresent : p.rows.jobs a.activity.jobType ≠ none)
    (hfree : p.blocked i (a.phase.wanted a.activity.jobType) = false) :
    ∃ p', p.resume i (.ok now) = some p' ∧
      (p.FailedAtomically i a.activity.jobType p' ↔
        f.job.current.completedAt = f.job.loaded.completedAt ∨
        (p.rows.jobs a.activity.jobType).map ProcessingJob.completedAt =
          some f.job.current.completedAt) := by
  have hstep : a.phase.step p.videoId a.activity p.store (.ok now) =
      some ({ p.store with rows := f.commit a.activity.jobType p.rows }, .raised error) := by
    simp only [hph, Phase.step, if_neg htx, if_pos hf.accepted]
  refine ⟨_, Pool.resume_of_step ha hfree hstep, ?_⟩
  obtain ⟨job, hjob⟩ := Option.ne_none_iff_exists'.mp hpresent
  have hcompletedAt : ((f.commit a.activity.jobType p.rows).jobs a.activity.jobType).map
      ProcessingJob.completedAt = (p.rows.jobs a.activity.jobType).map ProcessingJob.completedAt ↔
      f.job.current.completedAt = f.job.loaded.completedAt ∨
        job.completedAt = f.job.current.completedAt := by
    rw [hf.commit_completedAt, hjob, Option.map_some, Option.map_some, Option.some.injEq]
    by_cases heq : f.job.current.completedAt = f.job.loaded.completedAt
    · rw [if_pos heq]
      exact iff_of_true rfl (.inl heq)
    · rw [if_neg heq, or_iff_right heq, eq_comm]
  rw [hjob, Option.map_some, Option.some.injEq, ← hcompletedAt]
  refine ⟨fun h => h.completedAt, fun h => ?_⟩
  exact ⟨⟨error, by rw [getElem?_set_self_of ha]; rfl⟩, hf.commit_jobStatus hpresent,
    hf.commit_status, h, hf.commit_metadata, hf.commit_assets⟩

/-! ## Runs -/

/-- Every run of a new video is sound. -/
theorem Pool.sound_of_created {videoId : UUID} {filename key : Str} {ls : List PoolLabel}
    (hrun : exec Pool.step (.created videoId filename key) ls = some p) : p.Sound :=
  exec_invariant (fun _ _ _ hp h => Pool.Sound.step hp h) (Pool.sound_of_nil rfl) hrun

/-- The steps of the other attempts leave attempt `i` where it is. -/
theorem Pool.step_others {l : PoolLabel} (h : p.step l = some p') (hl : l.concerns i = false)
    (ha : p.attempts[i]? = some a) : p'.attempts[i]? = some a := by
  cases l with
  | begin act =>
    obtain rfl := Option.some.inj h
    exact (List.getElem?_append_left (List.getElem?_eq_some_iff.mp ha).1).trans ha
  | resume j ans =>
    obtain ⟨_, _, _, -, -, rfl⟩ := Pool.resume_eq_some h
    exact (List.getElem?_set_ne (of_decide_eq_false hl)).trans ha
  | vanish j =>
    obtain ⟨_, -, rfl⟩ := Pool.vanish_eq_some h
    exact (List.getElem?_set_ne (of_decide_eq_false hl)).trans ha

/-- What does not concern an attempt leaves it where it is. -/
theorem Pool.exec_others {ls : List PoolLabel} (hrun : exec Pool.step p ls = some p')
    (hls : ∀ l ∈ ls, l.concerns i = false) (ha : p.attempts[i]? = some a) :
    p'.attempts[i]? = some a := by
  induction ls generalizing p with
  | nil =>
    obtain rfl := Option.some.inj hrun
    exact ha
  | cons l ls ih =>
    obtain ⟨q, hq, hrun⟩ := Option.bind_eq_some_iff.mp hrun
    rw [List.forall_mem_cons] at hls
    exact ih hrun hls.2 (Pool.step_others hq hls.1 ha)

/-- In any run of attempts, attempt `i` raises an exception its handler catches (in `p`), other
attempts go on (to `p₂`), and then, with the rows not locked, the handler's commit is answered. The
handler has done what it is for exactly when the exception was raised before the completion, or
what the completion did to the session goes unnoticed. -/
theorem failJob_atomic_iff {videoId : UUID} {filename key : Str} {p p₁ p₂ : Pool}
    {ls₀ ls : List PoolLabel} {i : ℕ} {a : Attempt} {ans : Answer} {f : Frame}
    {error : ActivityError} (now : Time)
    (hreach : exec Pool.step (.created videoId filename key) ls₀ = some p)
    (ha : p.attempts[i]? = some a) (hraise : p.resume i ans = some p₁)
    (hcatch : p₁.attempts[i]? = some { a with phase := .failJob f error })
    (hothers : exec Pool.step p₁ ls = some p₂) (hls : ∀ l ∈ ls, l.concerns i = false)
    (hfree : p₂.blocked i (Phase.wanted a.activity.jobType (.failJob f error)) = false) :
    ∃ p₃, p₂.resume i (.ok now) = some p₃ ∧
      (p₂.FailedAtomically i a.activity.jobType p₃ ↔
        a.phase.completion? = none ∨ f.Unnoticed a.activity.jobType p₂.rows) := by
  have hsound := Pool.sound_of_created hreach
  have hsound₂ : p₂.Sound :=
    exec_invariant (fun _ _ _ hp h => Pool.Sound.step hp h) (hsound.resume hraise) hothers
  have ha₂ := Pool.exec_others hothers hls hcatch
  obtain ⟨hshaped, hpresent⟩ := hsound₂ i _ ha₂
  -- a failure outside of the completion leaves nothing of it in the frame
  have hbefore : a.phase.completion? = none →
      f.tx ≠ .broken ∧ f.job.current.completedAt = f.job.loaded.completedAt := by
    obtain ⟨b, st, ph, hb, hres, rfl⟩ := Pool.resume_eq_some hraise
    obtain rfl := Option.some.inj (ha.symm.trans hb)
    obtain rfl : ph = .failJob f error := by
      rw [getElem?_set_self_of ha] at hcatch
      exact congrArg Attempt.phase (Option.some.inj hcatch)
    exact hres.failJob_before (hsound i a ha).shaped
  -- whether the handler's commit is tried at all
  by_cases htx : f.tx = .broken
  · obtain ⟨p₃, hp₃, hiff⟩ := Pool.resume_failJob_broken now ha₂ rfl htx
    refine ⟨p₃, hp₃, hiff.trans ?_⟩
    rw [Frame.Unnoticed, if_pos htx]
    exact ⟨.inr, fun h => h.resolve_left fun hnone => (hbefore hnone).1 htx⟩
  · obtain ⟨p₃, hp₃, hiff⟩ := Pool.resume_failJob now ha₂ rfl htx (hshaped htx) (hpresent rfl) hfree
    refine ⟨p₃, hp₃, hiff.trans ?_⟩
    rw [Frame.Unnoticed, if_neg htx]
    exact ⟨.inr, fun h => h.elim (fun hnone => .inl (hbefore hnone).2) id⟩

/-! ## A metadata probe out of range -/

/-- An attempt of the metadata activity up to the flush of its completion; ffprobe has reported
35 days. -/
def Pool.outOfRange : List PoolLabel :=
  .begin .extractMetadata :: List.replicate 5 (.resume 0 (.ok 0)) ++
    [.resume 0 (.probed ⟨3024000000, 640, 480⟩ 0)]

/-- The database can only refuse the flush, and the job stays processing. -/
theorem failJob_not_atomic : ∃ p p₁ p₂, exec Pool.step Pool.clip Pool.outOfRange = some p ∧
    (p.resume 0 (.ok 0)).isNone ∧ p.resume 0 .error = some p₁ ∧ p₁.resume 0 (.ok 0) = some p₂ ∧
    p₂.rows.jobStatus .metadata = some .processing ∧ ¬ p₁.FailedAtomically 0 .metadata p₂ := by
  refine ⟨_, _, _, rfl, ?_, rfl, rfl, ?_, fun h => ?_⟩
  · decide
  · decide
  · exact nomatch h.job

/-- A download that fails, on the same video. -/
theorem failJob_atomic_download : ∃ p₁ p₂,
    exec Pool.step Pool.clip (Pool.outOfRange.take 5 ++ [.resume 0 .error]) = some p₁ ∧
    p₁.resume 0 (.ok 0) = some p₂ ∧ p₁.FailedAtomically 0 .metadata p₂ := by
  have hreach : exec Pool.step Pool.clip (Pool.outOfRange.take 5) = some _ := rfl
  obtain ⟨p₂, hp₂, hiff⟩ := failJob_atomic_iff 0 hreach rfl (rfl : Pool.resume _ 0 .error = some _)
    rfl (rfl : exec Pool.step _ [] = some _) (fun _ h => nomatch h) (by decide)
  exact ⟨_, p₂, rfl, hp₂, hiff.mpr (.inl rfl)⟩

end VideoProcessing
