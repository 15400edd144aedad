import VideoProcessing.Worker.Absorbing
import VideoProcessing.Worker.Alone

/-!
# The last completion

Three completions of one video, each deciding from a count it takes before it commits. The video is
completed at the end exactly when one of them has counted after the commits of the other two; when
each counts before another commits, nobody does it.

The invariant follows whether someone has counted last, that is after the commits of the other two:
from then on that attempt is the one left to commit, or has committed COMPLETED.
-/

namespace VideoProcessing

open Python UnitOfWork Transitions

/-- The three jobs have been claimed, by attempts at work that are the only ones alive. -/
structure Pool.Claimed (p : Pool) : Prop where
  processing : ∀ t, p.rows.jobStatus t = some .processing
  working : ∀ (i : ℕ) (a : Attempt), p.attempts[i]? = some a → a.phase.live = true →
    ∃ f todo, a.phase = .work f todo
  one : ∀ {i j : ℕ} {a b : Attempt}, p.attempts[i]? = some a → p.attempts[j]? = some b →
    a.phase.live = true → b.phase.live = true → a.activity.jobType = b.activity.jobType → i = j

/-- A completion counts after the other two have committed, in a session that does not have the
video as completed already. -/
def Pool.countsLast (p : Pool) (l : ℕ × Answer) : Bool :=
  match l.2 with
  | .ok _ => p.attempts[l.1]?.any fun a =>
    match a.phase with
    | .countCompleted f => f.video.loaded.status ≠ .completed &&
        JobType.members.all fun u => u = a.activity.jobType || decide (p.rows.Completed u)
    | _ => false
  | _ => false

/-- Record whether a completion has counted last. -/
def Pool.counted (p : Pool) (l : ℕ × Answer) (seen : Bool) : Bool := seen || p.countsLast l

/-- The video is completed only after the three transactions have committed. -/
def Pool.CompletedLast (p : Pool) : Prop :=
  p.rows.video.status = .completed → ∀ t, p.rows.Completed t

variable {videoId : UUID} {act : Activity} {st st' : Store} {ph ph' : Phase} {ans : Answer}
  {f : Frame} {t : JobType} {p p' : Pool} {i : ℕ} {l : ℕ × Answer} {seen : Bool}

/-! ## One await -/

/-- Behind the claim every await is guarded. -/
theorem Phase.unguarded_of_chosen (h : ph.chosen = true) : ph.unguarded = false := by
  cases ph <;> first | rfl | exact absurd h Bool.false_ne_true

/-- No attempt goes back to its claim. -/
theorem Resumes.guarded (h : Resumes videoId act st ph ans st' ph')
    (hph : ph.unguarded = false) : ph'.unguarded = false := by
  cases h with
  | load | selectNone | selectCompleted | selectJob | insert | insertLost | commitClaim =>
    exact absurd hph.symm Bool.false_ne_true
  | giveUp hun => cases hph.symm.trans hun
  | call _ _ hwork | probe hwork | upload hwork =>
    exact Phase.unguarded_of_chosen (working_chosen hwork)
  | selectAsset => exact Phase.unguarded_of_chosen (completing_chosen _ _)
  | _ => rfl

/-- The count of the last job. -/
theorem Pool.countsLast_iff {now : Time} (hi : p.attempts[i]? = some ⟨act, .countCompleted f⟩) :
    p.countsLast (i, .ok now) = true ↔
      f.video.loaded.status ≠ .completed ∧ ∀ u ≠ act.jobType, p.rows.Completed u := by
  simp only [Pool.countsLast, hi, Option.any_some, Bool.and_eq_true, decide_eq_true_iff,
    List.all_eq_true, Bool.or_eq_true]
  refine and_congr_right fun _ => ⟨fun h u hu => ?_, fun h u _ => ?_⟩
  · exact (h u u.mem_members).resolve_left hu
  · exact or_iff_not_imp_left.mpr (h u)

/-- It is the answer to a count. -/
theorem Pool.countsLast_cases (h : p.countsLast (i, ans) = true) :
    ∃ act f now, ans = .ok now ∧ p.attempts[i]? = some ⟨act, .countCompleted f⟩ := by
  cases ans with
  | ok now =>
    obtain ⟨⟨act, ph⟩, ha, h⟩ := (Option.any_eq_true _ _).mp h
    cases ph with
    | countCompleted f => exact ⟨act, f, now, rfl, ha⟩
    | _ => exact absurd h Bool.false_ne_true
  | probed | error | noConnection => exact absurd h Bool.false_ne_true

/-- The count of a completion that counts last is what publishes the video. -/
theorem Frame.Flushed.publishes_iff (h : f.Flushed)
    (hstatus : f.video.current.status = f.video.loaded.status) {rows : VideoRows}
    (hjob : rows.jobs t ≠ none) :
    (f.completeVideo (allJobsCompleted (f.flushed.apply t rows))).pending.video.status =
        some .completed ↔
      f.video.loaded.status ≠ .completed ∧ ∀ u ≠ t, rows.Completed u := by
  have hall : allJobsCompleted (f.flushed.apply t rows) = true ↔ ∀ u ≠ t, rows.Completed u := by
    rw [allJobsCompleted_iff]
    constructor
    · exact fun hview u hu => (Writes.apply_completed_of_ne hu).mp (hview u)
    · intro hothers u
      by_cases hu : u = t
      · subst hu
        exact h.view_completed hjob
      · exact (Writes.apply_completed_of_ne hu).mpr (hothers u hu)
  rw [← hall]
  cases allJobsCompleted (f.flushed.apply t rows) with
  | false =>
    have hnone : f.pending.video.status = none := dirty_eq_none.mpr hstatus
    simp [Frame.completeVideo, hnone]
  | true =>
    have hpending : (f.completeVideo true).pending.video.status =
        dirty f.video.loaded.status .completed := rfl
    rw [hpending, dirty_eq_some]
    simp [ne_comm]

/-! ## The invariant -/

/-- The attempt is going to publish the video, or has failed to. -/
def Phase.LastToCommit (ph : Phase) : Prop :=
  (∃ f, ph = .commitCompletion f ∧ f.pending.video.status = some .completed) ∨
    ∃ f error, ph = .failJob f error

/-- While the completions run: one that publishes the video has counted last, and one that has
counted last publishes the video if it commits. -/
structure Pool.Publishing (p : Pool) (seen : Bool) : Prop where
  alone : p.Alone
  guarded : p.Each fun _ a => a.phase.live = true → a.phase.unguarded = false
  counted : p.Each Attempt.Counted
  recorded : p.Each fun _ a => ∀ f, a.phase = .commitCompletion f →
    f.pending.video.status = some .completed → seen = true
  published : p.rows.video.status = .completed → seen = true ∧ ∀ t, p.rows.Completed t
  last : seen = true → p.rows.video.status = .completed ∨ ∃ t, ¬ p.rows.Completed t ∧
    p.Each fun _ a => a.phase.live = true → a.activity.jobType = t → a.phase.LastToCommit

/-- The job of an attempt past its claim is not completed. -/
theorem Pool.Publishing.not_completed (h : p.Publishing seen)
    (ha : p.attempts[i]? = some ⟨act, ph⟩) (hlive : ph.live = true) :
    ¬ p.rows.Completed act.jobType := by
  have hunfinished := h.alone.unfinished i _ ha
  have hguarded := h.guarded i _ ha hlive
  cases ph with
  | loadVideo | selectJob | insertJob => exact absurd hguarded.symm Bool.false_ne_true
  | returned | raised | vanished => exact absurd hlive Bool.false_ne_true
  | _ => exact hunfinished

/-- A completion that has counted last publishes the video or fails. -/
theorem Resumes.lastToCommit (h : Resumes videoId act st ph ans st' ph')
    (hshaped : ph.Shaped videoId act) (hph : ph.LastToCommit) :
    st'.rows.video.status = .completed ∨ (st'.rows.Completed act.jobType →
      st.rows.Completed act.jobType) ∧ (ph'.live = true → ph'.LastToCommit) := by
  rcases hph with ⟨f, rfl, hpending⟩ | ⟨f, error, rfl⟩
  · cases h with
    | commitCompletion =>
      left
      change (f.commit act.jobType st.rows).video.status = .completed
      rw [Frame.Flushed.commit_status hshaped, hpending, put_some]
    | completionFails => exact .inr ⟨id, fun _ => .inr ⟨_, _, rfl⟩⟩
    | giveUp hun => cases hun
  · refine .inr ⟨fun hcompleted => ?_, fun hlive => ?_⟩
    · rcases (h.rowChange hshaped).completed_cases hcompleted with hbefore | ⟨-, g, hg, -⟩
      · exact hbefore
      · cases hg
    · cases h with
      | failJobBroken | failJob | failJobFails | giveUp => exact absurd hlive Bool.false_ne_true
      | completionFails hcompletion => cases hcompletion

/-- After it the video completes, or a job is left. -/
theorem Pool.Publishing.last_resume (h : p.Publishing seen)
    (hresume : p.proceed (i, ans) = some p') (hcounted : p.counted (i, ans) seen = true) :
    p'.rows.video.status = .completed ∨ ∃ t, ¬ p'.rows.Completed t ∧
      p'.Each fun _ a => a.phase.live = true → a.activity.jobType = t → a.phase.LastToCommit := by
  obtain ⟨⟨act, ph⟩, st, ph', ha, hres, rfl⟩ := Pool.resume_eq_some hresume
  obtain ⟨hshaped, hpresent⟩ := h.alone.sound i _ ha
  have hnot := h.not_completed ha hres.live
  rcases Bool.or_eq_true_iff.mp hcounted with hseen | hlast
  · -- an attempt has counted last before this step
    rcases h.last hseen with hstatus | ⟨t, ht, heach⟩
    · exact absurd ((h.published hstatus).2 act.jobType) hnot
    -- the attempt that counted last goes on, or a sibling does
    · by_cases hact : act.jobType = t
      · subst hact
        have hph := heach i _ ha hres.live rfl
        rcases hres.lastToCommit hshaped hph with hstatus | ⟨hcompleted, hlive⟩
        · exact .inl hstatus
        · refine .inr ⟨act.jobType, fun hc => ht (hcompleted hc), fun j b hb hblive hjob => ?_⟩
          rcases getElem?_set_cases hb with ⟨-, rfl⟩ | ⟨-, hb⟩
          · exact hlive hblive
          · exact heach j b hb hblive hjob
      · refine .inr ⟨t, fun hc => ht ?_, fun j b hb hblive hjob => ?_⟩
        · exact ((hres.rowChange hshaped).completed_of_ne (Ne.symm hact)).mp hc
        · rcases getElem?_set_cases hb with ⟨-, rfl⟩ | ⟨-, hb⟩
          · exact absurd hjob hact
          · exact heach j b hb hblive hjob
  · -- the attempt counts last now
    obtain ⟨_, f, now, rfl, ha'⟩ := Pool.countsLast_cases hlast
    obtain ⟨rfl, rfl⟩ := Attempt.mk.inj (Option.some.inj (ha.symm.trans ha'))
    cases hres with
    | countCompleted =>
      refine .inr ⟨act.jobType, hnot, fun j b hb hblive hjob => ?_⟩
      rcases getElem?_set_cases hb with ⟨-, rfl⟩ | ⟨hj, hb⟩
      · exact .inl ⟨_, rfl, (hshaped.1.publishes_iff hshaped.2 (hpresent rfl)).mpr
          ((Pool.countsLast_iff ha).mp hlast)⟩
      · exact absurd (h.alone.one hb ha hblive rfl hjob) hj

/-- Every step keeps to that. -/
theorem Pool.Publishing.step (h : p.Publishing seen) (hresume : p.proceed l = some p') :
    p'.Publishing (p.counted l seen) := by
  obtain ⟨i, ans⟩ := l
  have hlast := h.last_resume hresume
  have halone := h.alone.resume hresume
  have hcompleted (t : JobType) : p.rows.Completed t → p'.rows.Completed t :=
    h.alone.completed hresume
  obtain ⟨⟨act, ph⟩, st, ph', ha, hres, rfl⟩ := Pool.resume_eq_some hresume
  obtain ⟨hshaped, hpresent⟩ := h.alone.sound i _ ha
  have hnot := h.not_completed ha hres.live
  refine ⟨halone, ?_, ?_, ?_, fun hstatus => ⟨?_, ?_⟩, hlast⟩
  · intro j b hb hlive
    rcases getElem?_set_cases hb with ⟨-, rfl⟩ | ⟨-, hb⟩
    · exact hres.guarded (h.guarded i _ ha hres.live)
    · exact h.guarded j b hb hlive
  · intro j b hb
    rcases getElem?_set_cases hb with ⟨-, rfl⟩ | ⟨-, hb⟩
    · exact hres.counted hshaped
    · exact fun f hf hpending t ht => hcompleted t (h.counted j b hb f hf hpending t ht)
  · intro j b hb f hf hpending
    rcases getElem?_set_cases hb with ⟨-, rfl⟩ | ⟨-, hb⟩
    · -- an attempt about to publish has just counted, and counted last
      obtain ⟨g, rfl, -, rfl⟩ := hres.commitCompletion_cases hf
      obtain ⟨now, rfl⟩ : ∃ now, ans = .ok now := by
        cases hres with
        | countCompleted => exact ⟨_, rfl⟩
        | giveUp hun => cases hun
        | completionFails => cases hf
      rw [Pool.counted, (Pool.countsLast_iff ha).mpr
        ((hshaped.1.publishes_iff hshaped.2 (hpresent rfl)).mp hpending), Bool.or_true]
    · rw [Pool.counted, h.recorded j b hb f hf hpending, Bool.true_or]
  · have hbefore : p.rows.video.status ≠ .completed := fun hbefore =>
      hnot ((h.published hbefore).2 act.jobType)
    -- the video is published by this step, so the frame committed has it pending
    rcases (hres.rowChange hshaped).status_cases hstatus with heq | ⟨f, rfl, -, hpending, -⟩
    · exact absurd heq hbefore
    · rw [Pool.counted, h.recorded i _ ha f rfl hpending, Bool.true_or]
  · refine (hres.rowChange hshaped).all_completed (h.counted i _ ha) hpresent hstatus ?_
    exact fun hbefore => hnot ((h.published hbefore).2 act.jobType)

/-! ## Runs -/

/-- Nothing has been counted yet. -/
theorem Pool.Claimed.publishing (h : p.Claimed) (hsound : p.Sound)
    (hstatus : p.rows.video.status ≠ .completed) : p.Publishing false := by
  have hnot (t : JobType) : ¬ p.rows.Completed t := fun hc => by
    cases (h.processing t).symm.trans hc
  refine ⟨⟨hsound, h.one, fun i a ha => ?_⟩, fun i a ha hlive => ?_, ?_, ?_,
    fun hc => absurd hc hstatus, fun hseen => absurd hseen Bool.false_ne_true⟩
  · by_cases hlive : a.phase.live = true
    · obtain ⟨f, todo, hph⟩ := h.working i a ha hlive
      obtain ⟨act, ph⟩ := a
      obtain rfl : ph = .work f todo := hph
      exact hnot act.jobType
    · exact Attempt.unfinished_of_not_live (by simpa using hlive)
  · obtain ⟨f, todo, hph⟩ := h.working i a ha hlive
    rw [hph]
    rfl
  · intro i a ha f hf
    obtain ⟨g, todo, hph⟩ := h.working i a ha (by rw [hf]; rfl)
    cases hf.symm.trans hph
  · intro i a ha f hf
    obtain ⟨g, todo, hph⟩ := h.working i a ha (by rw [hf]; rfl)
    cases hf.symm.trans hph

/-- From any pool that has been reached and in which the three jobs have been claimed, the video is
completed once the three transactions have committed and never before, exactly when it is not
completed at the start and the completions, if all commit, have one that counts last. -/
theorem last_completion_publishes {p₀ p q : Pool} {ls : List (ℕ × Answer)} {seen : Bool}
    (hstart : p₀.attempts = []) (hreach : Reaches Pool.step p₀ p) (hclaimed : p.Claimed)
    (hrun : exec (observe Pool.counted Pool.proceed) (p, false) ls = some (q, seen)) :
    Always Pool.proceed Pool.CompletedLast p ls ∧
        ((∀ t, q.rows.Completed t) → q.rows.video.status = .completed) ↔
      p.rows.video.status ≠ .completed ∧ ((∀ t, q.rows.Completed t) → seen = true) := by
  have hsound : p.Sound := hreach.invariant (fun _ _ _ hq hstep => hq.step hstep)
    (Pool.sound_of_nil hstart)
  -- the invariant of a run in which someone has or has not counted last
  have hinv {r : Pool} {b : Bool} {ls : List (ℕ × Answer)}
      (hstatus : p.rows.video.status ≠ .completed)
      (hrun : exec (observe Pool.counted Pool.proceed) (p, false) ls = some (r, b)) :
      r.Publishing b := by
    refine exec_invariant (I := fun r : Pool × Bool => r.1.Publishing r.2) ?_
      (hclaimed.publishing hsound hstatus) hrun
    rintro ⟨r, b⟩ l ⟨r', b'⟩ hr hstep
    obtain ⟨hstep, rfl⟩ := observe_eq_some.mp hstep
    exact hr.step hstep
  -- COMPLETED is published by the attempt that counts last, so all rests on whether there is one
  constructor
  · rintro ⟨halways, hlast⟩
    have hstatus : p.rows.video.status ≠ .completed := fun hc => by
      cases (hclaimed.processing .metadata).symm.trans
        (halways [] p List.nil_prefix rfl hc .metadata)
    exact ⟨hstatus, fun hall => ((hinv hstatus hrun).published (hlast hall)).1⟩
  · rintro ⟨hstatus, hseen⟩
    refine ⟨fun ls₁ r _ hrun₁ hc => ?_, fun hall => ?_⟩
    · obtain ⟨b, hrun₁⟩ := exec_observe_of_exec Pool.counted hrun₁ false
      exact ((hinv hstatus hrun₁).published hc).2
    · rcases (hinv hstatus hrun).last (hseen hall) with hc | ⟨t, ht, -⟩
      · exact hc
      · exact absurd (hall t) ht

/-- A test for `Pool.Claimed` while no two attempts are of one activity. -/
def Pool.claimed (p : Pool) : Bool :=
  (JobType.members.all fun t => decide (p.rows.jobStatus t = some .processing)) &&
    (p.attempts.all fun a => match a.phase with
      | .work _ _ => true
      | ph => !ph.live) &&
    decide ((p.attempts.map fun a => a.activity.jobType).Nodup)

/-- The test of it. -/
theorem Pool.claimed_of_test (h : p.claimed = true) : p.Claimed := by
  simp only [Pool.claimed, Bool.and_eq_true, List.all_eq_true, decide_eq_true_iff] at h
  obtain ⟨⟨hprocessing, hworking⟩, hnodup⟩ := h
  refine ⟨fun t => hprocessing t t.mem_members, fun i a ha hlive => ?_, fun ha hb _ _ hjob => ?_⟩
  · have hwork := hworking a (List.mem_of_getElem? ha)
    obtain ⟨act, ph⟩ := a
    cases ph with
    | work f todo => exact ⟨f, todo, rfl⟩
    | returned | raised | vanished => exact absurd hlive Bool.false_ne_true
    | _ => exact absurd hwork Bool.false_ne_true
  · refine (List.getElem?_inj ?_ hnodup).mp ?_
    · rw [List.length_map]
      exact (List.getElem?_eq_some_iff.mp ha).1
    · rw [List.getElem?_map, List.getElem?_map, ha, hb, Option.map_some, Option.map_some, hjob]

/-- The three activities claim their jobs. -/
def Pool.claiming : List PoolLabel :=
  [.begin .extractMetadata, .begin .generateThumbnail, .begin (.transcode 720)] ++
    List.flatten ([0, 1, 2].map fun i => List.replicate 4 (.resume i (.ok 0)))

/-- The next `n` awaits of attempt `i` return. -/
def Pool.returns (i n : ℕ) : List (ℕ × Answer) := List.replicate n (i, .ok 0)

/-- The three completions, up to their commits. -/
def Pool.counting : List (List (ℕ × Answer)) :=
  [(0, .ok 0) :: (0, .probed ⟨1000, 1280, 720⟩ 0) :: Pool.returns 0 2, Pool.returns 1 6,
    Pool.returns 2 6]

/-- One completion after the other. -/
def Pool.completingInTurn : List (ℕ × Answer) :=
  (Pool.counting.zipIdx.map fun (steps, i) => steps ++ [(i, .ok 0)]).flatten

/-- Three activities that complete one after another. -/
theorem last_completion_publishes_clip : ∃ p q, exec Pool.step Pool.clip Pool.claiming = some p ∧
    exec (observe Pool.counted Pool.proceed) (p, false) Pool.completingInTurn = some (q, true) ∧
    Always Pool.proceed Pool.CompletedLast p Pool.completingInTurn ∧
      ((∀ t, q.rows.Completed t) → q.rows.video.status = .completed) := by
  have hrun : (exec Pool.step Pool.clip Pool.claiming).any fun p =>
      p.claimed && decide (p.rows.video.status ≠ .completed) &&
        (exec (observe Pool.counted Pool.proceed) (p, false) Pool.completingInTurn).any
          fun q => q.2 := by decide +kernel
  obtain ⟨p, hp, hrun⟩ := (Option.any_eq_true _ _).mp hrun
  simp only [Bool.and_eq_true, decide_eq_true_iff] at hrun
  obtain ⟨⟨hclaimed, hstatus⟩, hrun⟩ := hrun
  obtain ⟨⟨q, seen⟩, hq, hseen⟩ := (Option.any_eq_true _ _).mp hrun
  obtain rfl : seen = true := hseen
  exact ⟨p, q, hp, hq, (last_completion_publishes rfl ⟨_, hp⟩ (Pool.claimed_of_test hclaimed)
    hq).mpr ⟨hstatus, fun _ => rfl⟩⟩

/-- All three count before any of them commits. -/
def Pool.completingAtOnce : List (ℕ × Answer) :=
  Pool.counting.flatten ++ [(0, .ok 0), (1, .ok 0), (2, .ok 0)]

/-- The three jobs are completed and the video is not. -/
theorem nobody_publishes : ∃ p q, Reaches Pool.step Pool.clip p ∧ p.Claimed ∧
    p.rows.video.status = .processing ∧
    exec Pool.proceed p Pool.completingAtOnce = some q ∧ (∀ t, q.rows.Completed t) ∧
    q.rows.video.status = .processing := by
  have hrun : (exec Pool.step Pool.clip Pool.claiming).any fun p =>
      p.claimed && decide (p.rows.video.status = .processing) &&
        (exec Pool.proceed p Pool.completingAtOnce).any fun q =>
          JobType.members.all (fun t => decide (q.rows.Completed t)) &&
            decide (q.rows.video.status = .processing) := by decide +kernel
  obtain ⟨p, hp, hrun⟩ := (Option.any_eq_true _ _).mp hrun
  simp only [Bool.and_eq_true, decide_eq_true_iff] at hrun
  obtain ⟨⟨hclaimed, hbefore⟩, hrun⟩ := hrun
  obtain ⟨q, hq, hend⟩ := (Option.any_eq_true _ _).mp hrun
  simp only [Bool.and_eq_true, decide_eq_true_iff, List.all_eq_true] at hend
  exact ⟨p, q, ⟨_, hp⟩, Pool.claimed_of_test hclaimed, hbefore, hq,
    fun t => hend.1 t t.mem_members, hend.2⟩

end VideoProcessing
