import VideoProcessing.Worker.Alone

/-!
# The order of the jobs

With one live attempt per activity and a transcode that starts after the other two jobs, the
transcode is the last job to complete, and its completion is the one that publishes the video: the
video is completed exactly when the transcode is.

The invariant has a part for the attempt that counts: it knows whether it is the last, since no job
it has counted as completed is taken back.
-/

namespace VideoProcessing

open Python UnitOfWork Transitions

/-- What the phase of an attempt says about the copies of its session. -/
def Phase.Ordered (t : JobType) (rows : VideoRows) : Phase → Prop
  | .selectJob video | .insertJob video =>
    video.loaded.status = .completed → ∀ t, rows.Completed t
  | .commitClaim f | .work f _ | .selectAsset f _ | .flush f | .countCompleted f =>
    f.video.loaded.status ≠ .completed
  | .commitCompletion f =>
    f.pending.video.status = if t = .transcode then some .completed else none
  | .returned _ => rows.Completed t
  | _ => True

/-- A transcode runs after the other two jobs. -/
structure Attempt.Ordered (rows : VideoRows) (a : Attempt) : Prop where
  last : a.activity.jobType = .transcode → rows.Completed .metadata ∧ rows.Completed .thumbnail
  phase : a.phase.Ordered a.activity.jobType rows

structure VideoRows.Ordered (rows : VideoRows) : Prop where
  transcoded : rows.Completed .transcode →
    rows.Completed .metadata ∧ rows.Completed .thumbnail ∧ rows.video.status = .completed
  published : rows.video.status = .completed → ∀ t, rows.Completed t

structure Pool.Ordered (p : Pool) : Prop where
  alone : p.Alone
  rows : p.rows.Ordered
  attempts : p.Each Attempt.Ordered

variable {videoId : UUID} {act : Activity} {rows rows' : VideoRows} {st st' : Store}
  {ph ph' : Phase} {ans : Answer} {t : JobType} {p p' : Pool} {i : ℕ} {f : Frame}

/-- Completed rows are the only ones an attempt relies on. -/
theorem Attempt.Ordered.mono {a : Attempt} (h : a.Ordered rows)
    (hmono : ∀ t, rows.Completed t → rows'.Completed t) : a.Ordered rows' := by
  obtain ⟨act, ph⟩ := a
  refine ⟨fun ht => ⟨hmono _ (h.last ht).1, hmono _ (h.last ht).2⟩, ?_⟩
  have hph := h.phase
  cases ph with
  | selectJob | insertJob => exact fun hs t => hmono t (hph hs t)
  | returned => exact hmono _ hph
  | _ => exact hph

/-- A completed transcode is the last of the three. -/
theorem VideoRows.Ordered.all (h : rows.Ordered) (ht : rows.Completed .transcode) :
    ∀ t, rows.Completed t := h.published (h.transcoded ht).2.2

/-! ## One await -/

/-- The work keeps the order. -/
theorem working_ordered {now : Time} {todo : List Io} (hf : f.video.loaded.status ≠ .completed)
    (h : working videoId act f now todo = some ph) : ph.Ordered t rows := by
  cases todo with
  | cons =>
    obtain rfl := Option.some.inj h
    exact hf
  | nil =>
    cases act with
    | extractMetadata =>
      obtain ⟨m, -, rfl⟩ := Option.map_eq_some_iff.mp h
      exact hf
    | generateThumbnail =>
      obtain rfl := Option.some.inj h
      exact hf
    | transcode =>
      obtain rfl := Option.some.inj h
      rw [completeTranscodeJob]
      cases f.uploads <;> exact hf

/-- And so does what follows the claim. -/
theorem claimed_ordered (hf : f.video.loaded.status ≠ .completed) :
    (claimed videoId act f).Ordered t rows := by
  cases act with
  | transcode =>
    rw [claimed]
    split
    exacts [trivial, hf]
  | extractMetadata | generateThumbnail => exact hf

/-- A claim of a video that is not completed leaves it processing. -/
theorem Frame.Claiming.committed_status (h : f.Claiming)
    (hf : f.video.loaded.status ≠ .completed) :
    f.committed.video.loaded.status ≠ .completed := by
  obtain ⟨now, video, job, -, rfl⟩ := h
  have hvideo : video.status ≠ .completed := hf
  simp [Frame.committed, Frame.flush, claimJob, Video.claim, hvideo]

/-- Only the transcode counts three completed jobs. -/
theorem allJobsCompleted_view (hf : f.Flushed) (hrows : rows.Ordered)
    (hlast : act.jobType = .transcode → rows.Completed .metadata ∧ rows.Completed .thumbnail)
    (hjob : rows.jobs act.jobType ≠ none) (hnot : ¬ rows.Completed act.jobType) :
    allJobsCompleted (f.flushed.apply act.jobType rows) = decide (act.jobType = .transcode) := by
  rw [Bool.eq_iff_iff, allJobsCompleted_iff, decide_eq_true_iff]
  constructor
  · intro hall
    by_contra hne
    have htranscode := (Writes.apply_completed_of_ne (Ne.symm hne)).mp (hall .transcode)
    exact hnot (hrows.all htranscode _)
  · intro heq t
    obtain ⟨hmetadata, hthumbnail⟩ := hlast heq
    by_cases ht : t = act.jobType
    · subst ht
      exact hf.view_completed hjob
    · refine (Writes.apply_completed_of_ne ht).mpr ?_
      cases t with
      | metadata => exact hmetadata
      | thumbnail => exact hthumbnail
      | transcode => exact absurd heq.symm ht

/-- The video completes with the last job. -/
theorem Frame.completeVideo_pending (hstatus : f.video.current.status = f.video.loaded.status)
    (hf : f.video.loaded.status ≠ .completed) (all : Bool) :
    (f.completeVideo all).pending.video.status = if all then some .completed else none := by
  cases all with
  | true => exact dirty_of_ne (Ne.symm hf)
  | false => exact dirty_eq_none.mpr hstatus

/-- An await keeps the order. -/
theorem Resumes.ordered (h : Resumes videoId act st ph ans st' ph')
    (hshaped : ph.Shaped videoId act)
    (hpresent : ph.hasJob = true → st.rows.jobs act.jobType ≠ none)
    (hun : Attempt.Unfinished st.rows ⟨act, ph⟩) (hrows : st.rows.Ordered)
    (ha : Attempt.Ordered st.rows ⟨act, ph⟩) : ph'.Ordered act.jobType st'.rows := by
  have hph := ha.phase
  cases h with
  | load => exact hrows.published
  | selectNone => exact hph
  | selectCompleted hjob hstatus =>
    -- the row the attempt has just read
    have hcompleted : st.rows.Completed act.jobType := by
      rw [VideoRows.Completed, VideoRows.jobStatus, hjob, Option.map_some, hstatus]
    cases act with
    | extractMetadata =>
      simp only [alreadyCompleted]
      split
      exacts [hcompleted, trivial]
    | generateThumbnail | transcode => exact hcompleted
  | selectJob hjob hstatus =>
    exact fun hs => not_completed_of_jobs hjob hstatus (hph hs act.jobType)
  | insert hjob => exact fun hs => not_completed_of_none hjob (hph hs act.jobType)
  | commitClaim => exact claimed_ordered (hshaped.committed_status hph)
  | call _ _ hwork => exact working_ordered hph hwork
  | probe hwork | upload hwork =>
    refine working_ordered ?_ hwork
    exact hph
  | @selectAsset _ f _ _ todo => cases todo <;> exact hph
  | flush =>
    intro hs
    exact hph (hshaped.1.status.symm.trans hs)
  | @countCompleted now f =>
    -- the count is of the flushed rows, in which this job is completed
    rw [Phase.Ordered, Frame.completeVideo_pending hshaped.2 hph,
      allJobsCompleted_view hshaped.1 hrows ha.last (hpresent rfl) hun]
    simp only [decide_eq_true_eq]
  | commitCompletion => exact hshaped.commit_completed (hpresent rfl)
  | insertLost | giveUp | workFails | completionFails | noConnection | failJobBroken | failJob
  | failJobFails => trivial

/-- Nothing is left to commit once every job is completed. -/
theorem RowChange.eq_of_all (h : RowChange act rows ph rows')
    (hun : Attempt.Unfinished rows ⟨act, ph⟩) (hall : ∀ t, rows.Completed t) : rows' = rows := by
  cases h with
  | same => rfl
  | insert hjob => exact absurd (hall _) (not_completed_of_none hjob)
  | claim | complete | fail => exact absurd (hall _) hun

/-- The commit of an attempt leaves the rows in order. -/
theorem RowChange.ordered (h : RowChange act rows ph rows')
    (hpresent : ph.hasJob = true → rows.jobs act.jobType ≠ none)
    (hun : Attempt.Unfinished rows ⟨act, ph⟩) (hrows : rows.Ordered)
    (ha : Attempt.Ordered rows ⟨act, ph⟩) : rows'.Ordered := by
  have hmono : ∀ t, rows.Completed t → rows'.Completed t :=
    fun t => h.completed_of_unfinished hun hpresent
  refine ⟨fun ht => ?_, fun hs => ?_⟩
  · rcases h.completed_cases ht with hbefore | ⟨hact, f, rfl, hf, rfl⟩
    · rw [h.eq_of_all hun (hrows.all hbefore)]
      exact hrows.transcoded hbefore
    · have hpending : f.pending.video.status = some .completed := ha.phase.trans (if_pos hact.symm)
      have hlast := ha.last hact.symm
      exact ⟨hmono _ hlast.1, hmono _ hlast.2, by rw [hf.commit_status, hpending, put_some]⟩
  · rcases h.status_cases hs with hbefore | ⟨f, rfl, hf, hpending, rfl⟩
    · exact fun t => hmono t (hrows.published hbefore t)
    -- only the transcode publishes COMPLETED
    · have hact : act.jobType = .transcode := by
        by_contra hne
        exact nomatch hpending.symm.trans (ha.phase.trans (if_neg hne))
      have hlast := ha.last hact
      intro t
      cases t with
      | metadata => exact hmono _ hlast.1
      | thumbnail => exact hmono _ hlast.2
      | transcode => exact hact ▸ hf.commit_completed (hpresent rfl)

/-! ## The pool -/

/-- So does an await of a pool. -/
theorem Pool.Ordered.resume (h : p.Ordered) (hresume : p.resume i ans = some p') :
    p'.Ordered := by
  have hmono {a : Attempt} {st : Store} {ph : Phase} (ha : p.attempts[i]? = some a)
      (hres : Resumes p.videoId a.activity p.store a.phase ans st ph) (t : JobType)
      (ht : p.rows.Completed t) : st.rows.Completed t := by
    obtain ⟨hshaped, hpresent⟩ := h.alone.sound i a ha
    exact (hres.rowChange hshaped).completed_of_unfinished (h.alone.unfinished i a ha) hpresent ht
  refine ⟨h.alone.resume hresume, ?_, ?_⟩
  · obtain ⟨a, st, ph, ha, hres, rfl⟩ := Pool.resume_eq_some hresume
    obtain ⟨hshaped, hpresent⟩ := h.alone.sound i a ha
    exact (hres.rowChange hshaped).ordered hpresent (h.alone.unfinished i a ha) h.rows
      (h.attempts i a ha)
  · refine h.attempts.resume hresume ?_ ?_
    · intro a st ph ha hord hres
      obtain ⟨hshaped, hpresent⟩ := h.alone.sound i a ha
      refine ⟨fun ht => ⟨hmono ha hres _ (hord.last ht).1, hmono ha hres _ (hord.last ht).2⟩, ?_⟩
      exact hres.ordered hshaped hpresent (h.alone.unfinished i a ha) h.rows hord
    · intro a st ph j b ha hres _ _ hb
      exact hb.mono (hmono ha hres)

/-- And a new attempt, if the transcode comes last. -/
theorem Pool.Ordered.begin (h : p.Ordered) (hidle : p.idle act.jobType = true)
    (hlast : act.jobType = .transcode →
      p.rows.Completed .metadata ∧ p.rows.Completed .thumbnail) : (p.begin act).Ordered :=
  ⟨h.alone.begin hidle, h.rows, h.attempts.begin ⟨hlast, trivial⟩⟩

/-- And a kill. -/
theorem Pool.Ordered.vanish (h : p.Ordered) (hvanish : p.vanish i = some p') : p'.Ordered := by
  refine ⟨h.alone.vanish hvanish, ?_, ?_⟩ <;>
    obtain ⟨a, ha, rfl⟩ := Pool.vanish_eq_some hvanish
  · exact h.rows
  · intro j b hb
    rcases getElem?_set_cases hb with ⟨-, rfl⟩ | ⟨-, hb⟩
    · exact ⟨(h.attempts i a ha).last, trivial⟩
    · exact h.attempts j b hb

/-- A retry takes a video that is not completed back to processing. -/
theorem Pool.Ordered.setRows (h : p.Ordered) (hjobs : ∀ t, rows.jobs t = p.rows.jobs t)
    (hbefore : p.rows.video.status ≠ .completed) (hafter : rows.video.status ≠ .completed)
    {objects : List Str} : Pool.Ordered { p with store := ⟨rows, objects⟩ } where
  alone := h.alone.setRows hjobs
  rows :=
    { transcoded := fun ht =>
        absurd (h.rows.transcoded ((completed_congr (hjobs _)).mp ht)).2.2 hbefore
      published := fun hs => absurd hs hafter }
  attempts := h.attempts.mono fun _ ha => ha.mono fun _ => (completed_congr (hjobs _)).mpr

/-- A new video is in order. -/
theorem Pool.ordered_created (videoId : UUID) (filename key : Str) :
    (Pool.created videoId filename key).Ordered where
  alone := Pool.alone_of_nil rfl
  rows := ⟨nofun, nofun⟩
  attempts := Pool.each_of_nil rfl

end VideoProcessing
