import VideoProcessing.Worker.Attempts

/-!
# Completed rows under overlapping attempts

`claim_job` and `fail_job` decide from rows loaded earlier in their session and write over a
completion another attempt has committed since: an attempt Temporal has timed out can turn a
completed job and a completed video into failed ones. While no attempt commits a claim or a failure
over a completion its session has not seen, completed jobs and a completed video stay completed.

The condition is on the commits themselves: what the session's copy says and what the row says
before the statement. A claim and a `fail_job` are the two commits that can take a completion back.
-/

namespace VideoProcessing

open Python UnitOfWork Transitions

/-- The attempt is not about to write a status over a completion. The commit of `claim_job` leaves
a status column out where its session loaded the value it sets; the commit of `fail_job` always
writes both. -/
def Attempt.upToDate (rows : VideoRows) (a : Attempt) : Bool :=
  match a.phase with
  | .commitClaim f => decide
      ((rows.Completed a.activity.jobType → f.job.loaded.status = .processing) ∧
        (rows.video.status = .completed →
          f.video.loaded.status = .processing ∨ f.video.loaded.status = .completed))
  | .failJob f _ => decide (f.tx = .broken ∨ ¬ rows.Completed a.activity.jobType)
  | _ => true

/-- The await that ends is not the commit of an attempt that has been overtaken. -/
def Pool.upToDate (p : Pool) : PoolLabel → Bool
  | .resume i (.ok _) => p.attempts[i]?.all (Attempt.upToDate p.rows)
  | _ => true

abbrev Pool.UpToDate (p : Pool) (l : PoolLabel) : Prop := p.upToDate l = true

variable {act : Activity} {rows rows' : VideoRows} {ph : Phase} {t : JobType}

/-! ## One commit -/

/-- A completed job row stays completed. -/
theorem RowChange.completed (h : RowChange act rows ph rows')
    (hup : Attempt.upToDate rows ⟨act, ph⟩ = true)
    (hpresent : ph.hasJob = true → rows.jobs act.jobType ≠ none) (ht : rows.Completed t) :
    rows'.Completed t := by
  by_cases hta : t = act.jobType
  · subst hta
    cases h with
    | same => exact ht
    | insert hnone =>
      rw [VideoRows.Completed, VideoRows.jobStatus, hnone] at ht
      cases ht
    | claim hf =>
      have hnone := hf.pending_jobStatus_of_processing ((of_decide_eq_true hup).1 ht)
      rw [hf.commit_eq, VideoRows.Completed, Writes.apply_jobStatus_self, hnone, ht]
      rfl
    | complete hf => exact hf.commit_completed (hpresent rfl)
    | fail htx => exact absurd ht ((of_decide_eq_true hup).resolve_left htx)
  · exact (h.completed_of_ne hta).mpr ht

/-- A completed video stays completed, if its jobs are. -/
theorem RowChange.status_completed (h : RowChange act rows ph rows')
    (hup : Attempt.upToDate rows ⟨act, ph⟩ = true) (hjob : rows.Completed act.jobType)
    (hstatus : rows.video.status = .completed) : rows'.video.status = .completed := by
  cases h with
  | same | insert => exact hstatus
  | claim hf =>
    have hnone := hf.pending_status_of_claimed ((of_decide_eq_true hup).2 hstatus)
    rw [hf.commit_eq, Writes.apply_status, hnone, put_none, hstatus]
  | complete hf =>
    rw [hf.commit_status]
    rcases hf.pending_status with hp | hp <;> rw [hp]
    exacts [hstatus, rfl]
  | fail htx => exact absurd hjob ((of_decide_eq_true hup).resolve_left htx)

/-- The condition is exact: any other commit takes a completion back. -/
theorem RowChange.regresses {f : Frame} {error : ActivityError}
    (hph : ph = .commitClaim f ∧ f.Claiming ∨ ph = .failJob f error ∧ f.Failing)
    (hup : Attempt.upToDate rows ⟨act, ph⟩ = false) :
    (rows.Completed act.jobType ∧ ¬ (f.commit act.jobType rows).Completed act.jobType) ∨
    (rows.video.status = .completed ∧ (f.commit act.jobType rows).video.status ≠ .completed) := by
  rcases hph with ⟨rfl, hf⟩ | ⟨rfl, hf⟩
  · have hnot := of_decide_eq_false hup
    by_cases hjob : rows.Completed act.jobType → f.job.loaded.status = .processing
    · right
      obtain ⟨hstatus, hclaimed⟩ := Classical.not_imp.mp fun h => hnot ⟨hjob, h⟩
      refine ⟨hstatus, ?_⟩
      rw [hf.commit_eq, Writes.apply_status, hf.pending_status_of_not_claimed hclaimed, put_some]
      decide
    · left
      obtain ⟨ht, hne⟩ := Classical.not_imp.mp hjob
      refine ⟨ht, ?_⟩
      rw [hf.commit_eq, VideoRows.Completed, Writes.apply_jobStatus_self,
        hf.pending_jobStatus_of_ne hne, ht]
      exact fun h => by cases h
  · left
    have hnot := of_decide_eq_false hup
    have ht : rows.Completed act.jobType := not_not.mp fun h => hnot (.inr h)
    refine ⟨ht, ?_⟩
    rw [hf.commit_eq, VideoRows.Completed, Writes.apply_jobStatus_self, hf.pending_jobStatus, ht]
    exact fun h => by cases h

/-! ## Runs -/

/-- A completion that is about to publish the video has seen the other two jobs completed. -/
def Attempt.Counted (rows : VideoRows) (a : Attempt) : Prop :=
  ∀ f, a.phase = .commitCompletion f → f.pending.video.status = some .completed →
    ∀ t ≠ a.activity.jobType, rows.Completed t

/-- The count is what publishes the video. -/
theorem Resumes.counted {videoId : UUID} {st st' : Store} {ph' : Phase} {ans : Answer}
    (h : Resumes videoId act st ph ans st' ph') (hph : ph.Shaped videoId act) :
    Attempt.Counted st'.rows ⟨act, ph'⟩ := by
  intro f hf hp t ht
  obtain ⟨g, rfl, rfl, rfl⟩ := h.commitCompletion_cases hf
  have hall := allJobsCompleted_iff.mp (Frame.all_of_pending_status hph.2 hp) t
  exact (Writes.apply_completed_of_ne ht).mp hall

/-- The video is published once its jobs are all completed. -/
theorem RowChange.all_completed (h : RowChange act rows ph rows')
    (hcounted : Attempt.Counted rows ⟨act, ph⟩)
    (hpresent : ph.hasJob = true → rows.jobs act.jobType ≠ none)
    (hstatus : rows'.video.status = .completed) (hbefore : rows.video.status ≠ .completed) :
    ∀ t, rows'.Completed t := by
  cases h with
  | same | insert => exact absurd hstatus hbefore
  | claim hf =>
    rw [hf.commit_eq, Writes.apply_status] at hstatus
    rcases hf.pending_status with hp | hp <;> rw [hp] at hstatus
    exacts [absurd hstatus hbefore, nomatch hstatus]
  | complete hf =>
    rw [hf.commit_status] at hstatus
    rcases hf.pending_status with hp | hp
    · rw [hp] at hstatus
      exact absurd hstatus hbefore
    · intro t
      by_cases ht : t = act.jobType
      · subst ht
        exact hf.commit_completed (hpresent rfl)
      · exact (Frame.commit_completed_of_ne ht).mpr (hcounted _ rfl hp t ht)
  | fail _ hf => exact nomatch hf.commit_status.symm.trans hstatus

/-- The invariant of the runs without overtaken commits. -/
structure Pool.Published (p : Pool) : Prop where
  sound : p.Sound
  counted : p.Each Attempt.Counted
  all : p.rows.video.status = .completed → ∀ t, p.rows.Completed t

variable {p p' : Pool} {l : PoolLabel}

/-- An overtaken attempt that does not commit changes no row. -/
theorem Resumes.rows_eq_of_not_ok {videoId : UUID} {st st' : Store} {ph' : Phase} {ans : Answer}
    (h : Resumes videoId act st ph ans st' ph') (hans : ∀ now, ans ≠ .ok now) :
    st'.rows = st.rows := by
  cases h with
  | giveUp | probe | workFails | completionFails | noConnection | failJobFails => rfl
  | _ => exact absurd rfl (hans _)

/-- The attempt of the step loaded the row as it is. -/
theorem Pool.UpToDate.of_resume {i : ℕ} {ans : Answer} {a : Attempt} {st : Store} {ph : Phase}
    (h : p.UpToDate (.resume i ans)) (ha : p.attempts[i]? = some a)
    (hres : Resumes p.videoId a.activity p.store a.phase ans st ph) :
    Attempt.upToDate p.rows a = true ∨ st.rows = p.rows := by
  cases ans with
  | ok now =>
    left
    simpa [Pool.UpToDate, Pool.upToDate, ha] using h
  | probed | error | noConnection => exact .inr (hres.rows_eq_of_not_ok fun now h => nomatch h)

/-- A step that is not overtaken keeps every completed job. -/
theorem Pool.Published.completed (hp : p.Published) (hup : p.UpToDate l)
    (h : p.step l = some p') (ht : p.rows.Completed t) : p'.rows.Completed t := by
  cases l with
  | begin act =>
    obtain rfl := Option.some.inj h
    exact ht
  | vanish i =>
    obtain ⟨a, -, rfl⟩ := Pool.vanish_eq_some h
    exact ht
  | resume i ans =>
    obtain ⟨a, st, ph, ha, hres, rfl⟩ := Pool.resume_eq_some h
    obtain ⟨hshaped, hpresent⟩ := hp.sound i a ha
    rcases hup.of_resume ha hres with hup | heq
    · exact (hres.rowChange hshaped).completed hup hpresent ht
    · simpa only [Pool.rows, heq] using ht

/-- A step that is not overtaken keeps a completed video. -/
theorem Pool.Published.status (hp : p.Published) (hup : p.UpToDate l)
    (h : p.step l = some p') (hstatus : p.rows.video.status = .completed) :
    p'.rows.video.status = .completed := by
  cases l with
  | begin act =>
    obtain rfl := Option.some.inj h
    exact hstatus
  | vanish i =>
    obtain ⟨a, -, rfl⟩ := Pool.vanish_eq_some h
    exact hstatus
  | resume i ans =>
    obtain ⟨a, st, ph, ha, hres, rfl⟩ := Pool.resume_eq_some h
    obtain ⟨hshaped, -⟩ := hp.sound i a ha
    rcases hup.of_resume ha hres with hup | heq
    · exact (hres.rowChange hshaped).status_completed hup (hp.all hstatus _) hstatus
    · simpa only [Pool.rows, heq] using hstatus

/-- Every step on a row that is up to date keeps it published. -/
theorem Pool.Published.step (hp : p.Published) (hup : p.UpToDate l) (h : p.step l = some p') :
    p'.Published := by
  refine ⟨hp.sound.step h, ?_, ?_⟩
  · cases l with
    | begin act =>
      obtain rfl := Option.some.inj h
      exact hp.counted.begin fun f hf => nomatch hf
    | vanish i => exact hp.counted.vanish h fun a f hf => nomatch hf
    | resume i ans =>
      refine hp.counted.resume h (fun a st ph ha _ hres => hres.counted (hp.sound i a ha).shaped) ?_
      intro a st ph j b ha hres _ _ hb f hf hpending t ht
      -- the same step, seen by another attempt that has counted
      obtain ⟨a', st', ph', ha', hres', rfl⟩ := Pool.resume_eq_some h
      obtain rfl := Option.some.inj (ha.symm.trans ha')
      have hup' := hup.of_resume ha hres
      rcases hup' with hup' | heq
      · exact (hres.rowChange (hp.sound i a ha).shaped).completed hup' (hp.sound i a ha).present
          (hb f hf hpending t ht)
      · rw [heq]
        exact hb f hf hpending t ht
  · intro hstatus t
    -- COMPLETED before the step, or stored by it after a count of all jobs
    by_cases hbefore : p.rows.video.status = .completed
    · exact hp.completed hup h (hp.all hbefore t)
    · cases l with
      | begin act =>
        obtain rfl := Option.some.inj h
        exact absurd hstatus hbefore
      | vanish i =>
        obtain ⟨a, -, rfl⟩ := Pool.vanish_eq_some h
        exact absurd hstatus hbefore
      | resume i ans =>
        obtain ⟨a, st, ph, ha, hres, rfl⟩ := Pool.resume_eq_some h
        obtain ⟨hshaped, hpresent⟩ := hp.sound i a ha
        exact (hres.rowChange hshaped).all_completed (hp.counted i a ha) hpresent hstatus hbefore t

/-- A new video is not completed. -/
theorem Pool.published_created (videoId : UUID) (filename key : Str) :
    (Pool.created videoId filename key).Published :=
  ⟨Pool.sound_of_nil rfl, Pool.each_of_nil rfl, fun h => nomatch h⟩

/-- Completed jobs and a completed video are completed afterwards too. -/
def Pool.Absorbs (p p' : Pool) : Prop :=
  (∀ t, p.rows.Completed t → p'.rows.Completed t) ∧
    (p.rows.video.status = .completed → p'.rows.video.status = .completed)

/-- Completed videos and jobs stay completed in such a run. -/
theorem Pool.Published.exec {ls : List PoolLabel} (hp : p.Published)
    (hrun : exec (restrict Pool.UpToDate Pool.step) p ls = some p') :
    p'.Published ∧ p.Absorbs p' := by
  refine exec_rel Pool.Absorbs (fun _ => ⟨fun _ => id, id⟩) ?_ ?_ hp hrun
  · intro a b c hab hbc
    exact ⟨fun t ht => hbc.1 t (hab.1 t ht), fun h => hbc.2 (hab.2 h)⟩
  · intro q l q' hq hstep
    obtain ⟨hup, hstep⟩ := restrict_eq_some.mp hstep
    exact ⟨hq.step hup hstep, fun t => hq.completed hup hstep, hq.status hup hstep⟩

/-- In a run of attempts on a video none of which commits over a completion it has not seen, every
completed job and a completed video stay completed. -/
theorem completion_absorbing {videoId : UUID} {filename key : Str} {p₁ p₂ : Pool}
    {ls₁ ls₂ : List PoolLabel}
    (h₁ : exec (restrict Pool.UpToDate Pool.step) (Pool.created videoId filename key) ls₁ =
      some p₁)
    (h₂ : exec (restrict Pool.UpToDate Pool.step) p₁ ls₂ = some p₂) : p₁.Absorbs p₂ := by
  have hp₁ := (Pool.published_created videoId filename key).exec h₁
  exact (hp₁.1.exec h₂).2

/-! ## An attempt that was overtaken -/

/-- Metadata and thumbnail complete; two attempts of the transcode claim its job and the second
one completes it. -/
def Pool.overtaking : List PoolLabel :=
  [.begin .extractMetadata, .begin .generateThumbnail, .begin (.transcode 480),
    .begin (.transcode 480)] ++
  List.replicate 5 (.resume 0 (.ok 0)) ++ [.resume 0 (.probed ⟨1000, 640, 480⟩ 0)] ++
  List.replicate 3 (.resume 0 (.ok 0)) ++ List.replicate 11 (.resume 1 (.ok 0)) ++
  List.replicate 4 (.resume 2 (.ok 0)) ++ List.replicate 7 (.resume 3 (.ok 0))

/-- The first of them fails. -/
def Pool.overtaken : List PoolLabel := [.resume 2 .error, .resume 2 (.ok 0)]

/-- A failure of the overtaken attempt takes back both the job and the video. -/
theorem completion_regresses : ∃ p₁ p₂, exec Pool.step Pool.clip Pool.overtaking = some p₁ ∧
    exec Pool.step p₁ Pool.overtaken = some p₂ ∧
    p₂.rows.jobStatus .transcode = some .failed ∧ p₂.rows.video.status = .failed ∧
    ¬ p₁.Absorbs p₂ := by
  have hrun : (exec Pool.step Pool.clip Pool.overtaking).any fun p =>
      decide (p.rows.video.status = .completed) && (exec Pool.step p Pool.overtaken).any fun q =>
        decide (q.rows.jobStatus .transcode = some .failed ∧ q.rows.video.status = .failed) := by
    decide +kernel
  obtain ⟨p, hp, hrun⟩ := (Option.any_eq_true _ _).mp hrun
  obtain ⟨hcompleted, hrun⟩ := (Bool.and_eq_true _ _).mp hrun
  obtain ⟨q, hq, hfailed⟩ := (Option.any_eq_true _ _).mp hrun
  obtain ⟨hjob, hvideo⟩ := of_decide_eq_true hfailed
  refine ⟨p, q, hp, hq, hjob, hvideo, fun h => ?_⟩
  have hstatus := h.2 (of_decide_eq_true hcompleted)
  rw [hvideo] at hstatus
  cases hstatus

/-- Killed instead, it leaves the completion to the next attempt to find. -/
theorem completion_absorbing_clip : ∃ p₁ p₂,
    exec (restrict Pool.UpToDate Pool.step) Pool.clip Pool.overtaking = some p₁ ∧
    exec (restrict Pool.UpToDate Pool.step) p₁ [.vanish 2, .begin (.transcode 480),
      .resume 4 (.ok 0), .resume 4 (.ok 0)] = some p₂ ∧ p₁.Absorbs p₂ := by
  have hrun : (exec (restrict Pool.UpToDate Pool.step) Pool.clip (Pool.overtaking ++
      [.vanish 2, .begin (.transcode 480), .resume 4 (.ok 0), .resume 4 (.ok 0)])).isSome := by
    decide +kernel
  obtain ⟨p₁, p₂, h₁, h₂⟩ := exec_split hrun
  exact ⟨p₁, p₂, h₁, h₂, completion_absorbing h₁ h₂⟩

end VideoProcessing
