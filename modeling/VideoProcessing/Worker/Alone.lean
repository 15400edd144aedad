import VideoProcessing.Worker.Attempts

/-!
# One live attempt per activity

While no two attempts of one activity are alive at the same time, nobody else touches the job row
of an attempt between its select and its commit, so an attempt that went past the select works on a
job that is not completed, and a completed job stays completed.

The invariant is on the attempt's phase and its job row, and its frame condition is that the others
leave that row alone, which is what having no second attempt of the activity gives.
-/

namespace VideoProcessing

open Python UnitOfWork Transitions

/-- The attempt may still run. -/
def Phase.live : Phase → Bool
  | .returned _ | .raised _ | .vanished => false
  | _ => true

/-- What the attempt found in its job row still holds. -/
def Attempt.Unfinished (rows : VideoRows) (a : Attempt) : Prop :=
  match a.phase with
  | .insertJob _ => rows.jobs a.activity.jobType = none
  | .commitClaim _ | .work _ _ | .selectAsset _ _ | .flush _ | .countCompleted _
  | .commitCompletion _ | .failJob _ _ => ¬ rows.Completed a.activity.jobType
  | _ => True

/-- No two live attempts are of one activity, and each live one may trust what it has read. -/
structure Pool.Alone (p : Pool) : Prop where
  sound : p.Sound
  one : ∀ {i j : ℕ} {a b : Attempt}, p.attempts[i]? = some a → p.attempts[j]? = some b →
    a.phase.live = true → b.phase.live = true → a.activity.jobType = b.activity.jobType → i = j
  unfinished : p.Each Attempt.Unfinished

/-- No live attempt is of this activity. -/
def Pool.idle (p : Pool) (t : JobType) : Bool :=
  p.attempts.all fun a => !(a.phase.live && a.activity.jobType = t)

variable {videoId : UUID} {act : Activity} {rows rows' : VideoRows} {st st' : Store}
  {ph ph' : Phase} {ans : Answer} {t : JobType} {p p' : Pool} {i : ℕ}

/-- Only a live attempt goes on. -/
theorem Resumes.live (h : Resumes videoId act st ph ans st' ph') : ph.live = true := by
  cases h with
  | giveUp hph => cases ph <;> first | rfl | exact nomatch hph
  | completionFails hph => cases ph <;> first | rfl | exact nomatch hph
  | _ => rfl

/-! ## One await -/

/-- A job that is not completed is unfinished. -/
theorem Attempt.unfinished_of_not_completed (h : ¬ rows.Completed act.jobType)
    (hph : ∀ video, ph ≠ .insertJob video) : Attempt.Unfinished rows ⟨act, ph⟩ := by
  cases ph with
  | insertJob video => exact absurd rfl (hph video)
  | loadVideo | selectJob | returned | raised | vanished => trivial
  | _ => exact h

/-- An attempt with its row does not insert it. -/
theorem Phase.ne_insertJob_of_hasJob (h : ph.hasJob = true) (video : Tracked Video) :
    ph ≠ .insertJob video := by
  rintro rfl
  exact nomatch h

/-- By the status of its row. -/
theorem not_completed_of_jobs {job : ProcessingJob} (hjob : rows.jobs t = some job)
    (hstatus : job.status ≠ .completed) : ¬ rows.Completed t := by
  rw [VideoRows.Completed, VideoRows.jobStatus, hjob]
  exact fun h => hstatus (Option.some.inj h)

/-- A job without a row is not completed. -/
theorem not_completed_of_none (hjob : rows.jobs t = none) : ¬ rows.Completed t := by
  simp [VideoRows.Completed, VideoRows.jobStatus, hjob]

/-- It is a matter of the job's row. -/
theorem completed_congr (hjobs : rows'.jobs t = rows.jobs t) :
    rows'.Completed t ↔ rows.Completed t := by
  rw [VideoRows.Completed, VideoRows.jobStatus, hjobs]
  rfl

/-- The attempt that runs can go on trusting what it has read. -/
theorem Resumes.unfinished (h : Resumes videoId act st ph ans st' ph')
    (hshaped : ph.Shaped videoId act) (hph : Attempt.Unfinished st.rows ⟨act, ph⟩) :
    Attempt.Unfinished st'.rows ⟨act, ph'⟩ := by
  have hchange := h.rowChange hshaped
  cases h with
  | selectNone hjob => exact hjob
  | selectCompleted =>
    cases act with
    | extractMetadata =>
      simp only [alreadyCompleted]
      split <;> trivial
    | generateThumbnail | transcode => trivial
  | selectJob hjob hstatus => exact not_completed_of_jobs hjob hstatus
  | insert => exact not_completed_of_jobs (Function.update_self ..) (by decide)
  | @commitClaim _ f =>
    -- a claim commits PROCESSING
    have hnot : ¬ (f.commit act.jobType st.rows).Completed act.jobType := by
      intro ht
      rcases hchange.completed_cases ht with hbefore | ⟨_, _, heq, -⟩
      · exact hph hbefore
      · cases heq
    refine Attempt.unfinished_of_not_completed hnot fun video => ?_
    cases act with
    | transcode =>
      rw [claimed]
      split <;> exact fun heq => by cases heq
    | extractMetadata | generateThumbnail => exact fun heq => by cases heq
  | call _ _ hwork | probe hwork | upload hwork =>
    exact Attempt.unfinished_of_not_completed hph
      (Phase.ne_insertJob_of_hasJob (working_hasJob hwork))
  | @selectAsset _ f _ _ todo => cases todo <;> exact hph
  | flush | countCompleted | workFails | noConnection => exact hph
  | @completionFails ph f hf =>
    cases ph <;> first | exact hph | cases hf
  | load | insertLost | giveUp | commitCompletion | failJobBroken | failJob | failJobFails =>
    trivial

/-- A completed job stays completed. -/
theorem RowChange.completed_of_unfinished (h : RowChange act rows ph rows')
    (hph : Attempt.Unfinished rows ⟨act, ph⟩)
    (hpresent : ph.hasJob = true → rows.jobs act.jobType ≠ none) (ht : rows.Completed t) :
    rows'.Completed t := by
  by_cases hta : t = act.jobType
  · subst hta
    cases h with
    | same => exact ht
    | insert hjob => exact absurd ht (not_completed_of_none hjob)
    | claim | fail => exact absurd ht hph
    | complete hf => exact hf.commit_completed (hpresent rfl)
  · exact (h.completed_of_ne hta).mpr ht

/-- The other attempts are of other activities. -/
theorem Attempt.Unfinished.mono {b : Attempt} (hb : b.Unfinished rows)
    (hjobs : rows'.jobs b.activity.jobType = rows.jobs b.activity.jobType) :
    b.Unfinished rows' := by
  obtain ⟨act, ph⟩ := b
  cases ph with
  | insertJob => exact hjobs.trans hb
  | commitClaim | work | selectAsset | flush | countCompleted | commitCompletion | failJob =>
    exact fun ht => hb ((completed_congr hjobs).mp ht)
  | loadVideo | selectJob | returned | raised | vanished => trivial

/-- An attempt that is over claims nothing. -/
theorem Attempt.unfinished_of_not_live {b : Attempt} (hb : b.phase.live = false) :
    b.Unfinished rows := by
  obtain ⟨act, ph⟩ := b
  cases ph with
  | returned | raised | vanished => trivial
  | _ => exact nomatch hb

/-! ## The pool -/

/-- An await leaves the attempts alone with their jobs. -/
theorem Pool.Alone.resume (h : p.Alone) (hresume : p.resume i ans = some p') : p'.Alone := by
  refine ⟨h.sound.resume hresume, ?_, ?_⟩
  · obtain ⟨a, st, ph, ha, hres, rfl⟩ := Pool.resume_eq_some hresume
    intro j k b c hb hc hblive hclive hjob
    rcases getElem?_set_cases hb with ⟨rfl, rfl⟩ | ⟨-, hb'⟩ <;>
      rcases getElem?_set_cases hc with ⟨rfl, rfl⟩ | ⟨-, hc'⟩
    · rfl
    · exact h.one ha hc' hres.live hclive hjob
    · exact h.one hb' ha hblive hres.live hjob
    · exact h.one hb' hc' hblive hclive hjob
  · refine h.unfinished.resume hresume ?_ ?_
    · intro a st ph ha hun hres
      exact hres.unfinished (h.sound i a ha).shaped hun
    · intro a st ph j b ha hres hj hb hun
      by_cases hlive : b.phase.live = true
      · exact hun.mono (hres.jobs_of_ne fun heq => hj (h.one hb ha hlive hres.live heq))
      · exact Attempt.unfinished_of_not_live (by simpa using hlive)

/-- So does the first attempt after the others are over. -/
theorem Pool.Alone.begin (h : p.Alone) (hidle : p.idle act.jobType = true) :
    (p.begin act).Alone := by
  have hnone {j : ℕ} {b : Attempt} (hb : p.attempts[j]? = some b) (hlive : b.phase.live = true) :
      b.activity.jobType ≠ act.jobType := by
    have hmem := List.all_eq_true.mp hidle b (List.mem_of_getElem? hb)
    simpa [hlive] using hmem
  refine ⟨h.sound.begin act, ?_, h.unfinished.begin trivial⟩
  intro j k b c hb hc hblive hclive hjob
  rcases getElem?_append_cases hb with ⟨rfl, rfl⟩ | hb <;>
    rcases getElem?_append_cases hc with ⟨rfl, rfl⟩ | hc
  · rfl
  · exact absurd hjob.symm (hnone hc hclive)
  · exact absurd hjob (hnone hb hblive)
  · exact h.one hb hc hblive hclive hjob

/-- And a kill. -/
theorem Pool.Alone.vanish (h : p.Alone) (hvanish : p.vanish i = some p') : p'.Alone := by
  refine ⟨h.sound.vanish hvanish, ?_, h.unfinished.vanish hvanish fun _ => trivial⟩
  obtain ⟨a, -, rfl⟩ := Pool.vanish_eq_some hvanish
  intro j k b c hb hc hblive hclive hjob
  rcases getElem?_set_cases hb with ⟨-, rfl⟩ | ⟨-, hb⟩
  · exact nomatch hblive
  rcases getElem?_set_cases hc with ⟨-, rfl⟩ | ⟨-, hc⟩
  · exact nomatch hclive
  exact h.one hb hc hblive hclive hjob

/-- The invariant does not depend on the video's row. -/
theorem Pool.Alone.setRows (h : p.Alone) (hjobs : ∀ t, rows.jobs t = p.rows.jobs t)
    {objects : List Str} : Pool.Alone { p with store := ⟨rows, objects⟩ } where
  sound := h.sound.mono fun _ ha => ha.mono fun t hj => by rwa [hjobs t]
  one := h.one
  unfinished := h.unfinished.mono fun _ ha => ha.mono (hjobs _)

/-- A completed job stays completed. -/
theorem Pool.Alone.completed (h : p.Alone) (hresume : p.resume i ans = some p')
    (ht : p.rows.Completed t) : p'.rows.Completed t := by
  obtain ⟨a, st, ph, ha, hres, rfl⟩ := Pool.resume_eq_some hresume
  obtain ⟨hshaped, hpresent⟩ := h.sound i a ha
  exact (hres.rowChange hshaped).completed_of_unfinished (h.unfinished i a ha) hpresent ht

/-- Without attempts there is nobody else. -/
theorem Pool.alone_of_nil (h : p.attempts = []) : p.Alone := by
  refine ⟨Pool.sound_of_nil h, ?_, Pool.each_of_nil h⟩
  intro i j a b ha
  simp [h] at ha

end VideoProcessing
