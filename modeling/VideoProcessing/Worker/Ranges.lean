import VideoProcessing.Worker.Stored

/-!
# Integer columns

What ffprobe reports and what `attempts` counts up to is not bounded by the code. The database
bounds it: a flush with a value outside of `INTEGER` is refused, so no such value is ever committed.
-/

namespace VideoProcessing

open Python UnitOfWork Transitions

/-- Every integer of the rows is an `INTEGER`. -/
structure VideoRows.InRange (rows : VideoRows) : Prop where
  columns : ∀ c v, rows.video.column c = some v → fitsInteger v = true
  attempts : ∀ t job, rows.jobs t = some job → fitsInteger job.attempts = true

/-- What a completion has flushed is in range. -/
def Phase.FlushedInRange : Phase → Prop
  | .countCompleted f | .commitCompletion f => f.flushed.inRange = true
  | _ => True

structure Pool.InRange (p : Pool) : Prop where
  sound : p.Sound
  rows : p.rows.InRange
  flushed : p.Each fun _ a => a.phase.FlushedInRange

variable {videoId : UUID} {act : Activity} {st st' : Store} {rows : VideoRows} {ph ph' : Phase}
  {ans : Answer} {f : Frame} {w : Writes} {t : JobType} {p p' : Pool} {l : PoolLabel}

/-! ## Commits -/

/-- Every number that is written fits its column. -/
theorem Writes.inRange_iff : w.inRange = true ↔
    (∀ c v, w.video.column c = some (some v) → fitsInteger v = true) ∧
      ∀ n, w.job.attempts = some n → fitsInteger n = true := by
  simp only [Writes.inRange, Bool.and_eq_true, Option.all_eq_true]
  constructor
  · rintro ⟨⟨⟨hduration, hwidth⟩, hheight⟩, hattempts⟩
    refine ⟨fun c v hset => ?_, hattempts⟩
    cases c with
    | durationMs => exact hduration _ hset v rfl
    | width => exact hwidth _ hset v rfl
    | height => exact hheight _ hset v rfl
  · rintro ⟨hcolumns, hattempts⟩
    have hcolumn (c : Column) (o : Option ℤ) (hset : w.video.column c = some o) (v : ℤ)
        (hv : o = some v) : fitsInteger v = true := hcolumns c v (hv ▸ hset)
    exact ⟨⟨⟨hcolumn .durationMs, hcolumn .width⟩, hcolumn .height⟩, hattempts⟩

theorem Writes.inRange_empty : Writes.empty.inRange = true := rfl

/-- Such writes keep the rows in range. -/
theorem VideoRows.InRange.apply (h : rows.InRange) (hw : w.inRange = true) :
    (w.apply t rows).InRange := by
  obtain ⟨hcolumns, hattempts⟩ := Writes.inRange_iff.mp hw
  refine ⟨fun c v hv => ?_, fun t' job hjob => ?_⟩
  · change (w.video.apply rows.video).column c = some v at hv
    rw [VideoSet.apply_column] at hv
    -- a column left alone, or one the write has checked
    cases hset : w.video.column c with
    | none =>
      rw [hset, put_none] at hv
      exact h.columns c v hv
    | some o =>
      rw [hset, put_some] at hv
      exact hcolumns c v (hv ▸ hset)
  · by_cases ht : t' = t
    · subst ht
      rw [Writes.apply_jobs_self] at hjob
      obtain ⟨old, hold, rfl⟩ := Option.map_eq_some_iff.mp hjob
      change fitsInteger (put w.job.attempts old.attempts : ℕ) = true
      cases hset : w.job.attempts with
      | none => exact h.attempts t' old hold
      | some n => exact hattempts n hset
    · rw [Writes.apply_jobs_of_ne ht] at hjob
      exact h.attempts t' job hjob

/-- The database has checked what a commit flushes. -/
theorem Frame.commit_inRange (hrows : rows.InRange) (hflushed : f.flushed.inRange = true)
    (haccepted : f.accepted rows = true) : (f.commit t rows).InRange :=
  (hrows.apply hflushed).apply (Bool.and_eq_true_iff.mp haccepted).1

/-- An await keeps the rows in range. -/
theorem Resumes.inRange (h : Resumes videoId act st ph ans st' ph')
    (hshaped : ph.Shaped videoId act) (hflushed : ph.FlushedInRange) (hrows : st.rows.InRange) :
    st'.rows.InRange := by
  cases h with
  | insert =>
    refine ⟨hrows.columns, fun t job hjob => ?_⟩
    by_cases ht : t = act.jobType
    · subst ht
      obtain rfl : ProcessingJob.new = job := by simpa using hjob
      rfl
    · exact hrows.attempts t job ((Function.update_of_ne ht ..).symm.trans hjob)
  | commitClaim haccepted =>
    refine Frame.commit_inRange hrows ?_ haccepted
    rw [Frame.Claiming.flushed hshaped]
    exact Writes.inRange_empty
  | commitCompletion haccepted => exact Frame.commit_inRange hrows hflushed haccepted
  | failJob htx haccepted =>
    refine Frame.commit_inRange hrows ?_ haccepted
    rw [(hshaped htx).flushed]
    exact Writes.inRange_empty
  | _ => exact hrows

/-- And what is flushed. -/
theorem Resumes.flushedInRange (h : Resumes videoId act st ph ans st' ph')
    (hflushed : ph.FlushedInRange) : ph'.FlushedInRange := by
  cases ph' with
  | countCompleted g =>
    obtain ⟨f, rfl, -, rfl⟩ := h.countCompleted_cases rfl
    cases h with
    | flush haccepted => exact (Bool.and_eq_true_iff.mp haccepted).1
  | commitCompletion g =>
    obtain ⟨f, rfl, -, rfl⟩ := h.commitCompletion_cases rfl
    cases allJobsCompleted (f.flushed.apply act.jobType st.rows) <;> exact hflushed
  | _ => trivial

/-! ## Attempts -/

/-- So does every step. -/
theorem Pool.InRange.step (h : p.InRange) (hstep : p.step l = some p') : p'.InRange := by
  cases l with
  | begin act =>
    obtain rfl := Option.some.inj hstep
    exact ⟨h.sound.begin act, h.rows, Pool.Each.begin h.flushed trivial⟩
  | vanish i =>
    refine ⟨h.sound.vanish hstep, ?_, Pool.Each.vanish h.flushed hstep fun _ => trivial⟩
    obtain ⟨_, -, rfl⟩ := Pool.vanish_eq_some hstep
    exact h.rows
  | resume i ans =>
    refine ⟨h.sound.resume hstep, ?_, Pool.Each.resume h.flushed hstep ?_ ?_⟩
    · obtain ⟨a, st, ph, ha, hres, rfl⟩ := Pool.resume_eq_some hstep
      exact hres.inRange (h.sound i a ha).shaped (h.flushed i a ha) h.rows
    · exact fun a st ph _ hflushed hres => hres.flushedInRange hflushed
    · exact fun _ _ _ _ _ _ _ _ _ hb => hb

/-- A new video has no numbers. -/
theorem Pool.inRange_created (videoId : UUID) (filename key : Str) :
    (Pool.created videoId filename key).InRange where
  sound := Pool.sound_of_nil rfl
  rows := by
    refine ⟨fun c v hv => ?_, fun t job hjob => by cases hjob⟩
    cases c <;> cases hv
  flushed := Pool.each_of_nil rfl

end VideoProcessing
