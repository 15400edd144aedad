import VideoProcessing.Worker.Attempts

/-!
# The count of claims

`attempts` is incremented by a read and a later write, so it counts the claims of a job exactly
when each of them commits onto the count it has read. A claim that does not is never made up for.

A commit that does not write one more than the row's count writes at most that count, so what is
lost stays lost: the number of claims and the column never meet again.
-/

namespace VideoProcessing

open Python UnitOfWork Transitions

/-- `attempts` of a job, 0 while it has no row. -/
def VideoRows.attempts (rows : VideoRows) (t : JobType) : ℕ :=
  (rows.jobs t).elim 0 ProcessingJob.attempts

/-- The claim of the job of type `t` that an attempt is about to commit. -/
def Attempt.claim? (t : JobType) (a : Attempt) : Option Frame :=
  match a.phase with
  | .commitClaim f => if a.activity.jobType = t then some f else none
  | _ => none

/-- The claim that a step commits; with it a call of `claim_job` returns the job. -/
def Pool.claim? (t : JobType) (p : Pool) : PoolLabel → Option Frame
  | .resume i (.ok _) => p.attempts[i]?.bind (Attempt.claim? t)
  | _ => none

/-- Count the calls of `claim_job` that return the job. -/
def Pool.tally (t : JobType) (p : Pool) (l : PoolLabel) (n : ℕ) : ℕ :=
  if (p.claim? t l).isSome then n + 1 else n

/-- A claim commits only while the count it has read is the stored one. -/
def Pool.freshCount (t : JobType) (p : Pool) (l : PoolLabel) : Bool :=
  (p.claim? t l).all fun f => f.job.loaded.attempts = p.rows.attempts t

abbrev Pool.FreshCount (t : JobType) (p : Pool) (l : PoolLabel) : Prop := p.freshCount t l = true

/-- A completion leaves the count out of what it flushes. -/
def Phase.SparesAttempts : Phase → Prop
  | .countCompleted f | .commitCompletion f => f.flushed.job.attempts = none
  | _ => True

/-- No stored count and none that a claim has read exceeds `b`. -/
structure Pool.Below (t : JobType) (b : ℕ) (p : Pool) : Prop where
  sound : p.Sound
  spares : p.Each fun _ a => a.phase.SparesAttempts
  stored : p.rows.attempts t ≤ b
  pending : p.Each fun _ a => ∀ f, a.claim? t = some f → f.job.loaded.attempts ≤ b

variable {t : JobType} {b b' n : ℕ} {videoId : UUID} {act : Activity} {st st' : Store}
  {rows rows' : VideoRows} {ph ph' : Phase} {ans : Answer} {f : Frame} {a : Attempt}
  {p p' q : Pool} {l : PoolLabel}

/-- The commit of a claim. -/
theorem Attempt.claim?_eq_some :
    a.claim? t = some f ↔ a.phase = .commitClaim f ∧ a.activity.jobType = t := by
  obtain ⟨act, ph⟩ := a
  cases ph <;> simp [Attempt.claim?, and_comm]

/-! ## What each commit does to the count -/

/-- The count is in the job's row. -/
theorem VideoRows.attempts_of_jobs (h : rows'.jobs t = rows.jobs t) :
    rows'.attempts t = rows.attempts t := by rw [VideoRows.attempts, h, VideoRows.attempts]

/-- What a write does to it. -/
theorem Writes.apply_attempts_self {w : Writes} (hjob : rows.jobs t ≠ none) :
    (w.apply t rows).attempts t = put w.job.attempts (rows.attempts t) := by
  obtain ⟨job, hjob⟩ := Option.ne_none_iff_exists'.mp hjob
  simp only [VideoRows.attempts, Writes.apply_jobs_self, hjob]
  rfl

/-- Statements that leave the count out. -/
theorem Writes.apply_attempts_of_none {w : Writes} (hw : w.job.attempts = none) :
    (w.apply t rows).attempts t = rows.attempts t := by
  simp only [VideoRows.attempts, Writes.apply_jobs_self]
  cases rows.jobs t with
  | none => rfl
  | some job =>
    change put w.job.attempts job.attempts = job.attempts
    rw [hw, put_none]

/-- A claim stores the successor of the count it has read. -/
theorem Frame.Claiming.commit_attempts (h : f.Claiming) (hjob : rows.jobs t ≠ none) :
    (f.commit t rows).attempts t = f.job.loaded.attempts + 1 := by
  rw [h.commit_eq, Writes.apply_attempts_self hjob]
  obtain ⟨now, video, job, -, rfl⟩ := h
  have hdirty : (claimJob now (.fresh video) (.fresh job)).pending.job.attempts =
      some (job.attempts + 1) := dirty_of_ne (Nat.succ_ne_self job.attempts)
  rw [hdirty, put_some]
  rfl

/-- A completion leaves it alone. -/
theorem Frame.Flushed.commit_attempts (h : f.Flushed) (hspares : f.flushed.job.attempts = none) :
    (f.commit t rows).attempts t = rows.attempts t := by
  rw [h.commit_eq]
  exact Writes.apply_attempts_of_none hspares

/-- So does a failure. -/
theorem Frame.Failing.commit_attempts (h : f.Failing) :
    (f.commit t rows).attempts t = rows.attempts t := by
  rw [h.commit_eq]
  refine Writes.apply_attempts_of_none ?_
  simp only [Frame.pending, dirtyJob]
  rw [h.job, dirty_self]

/-- Only a claim changes the count. -/
theorem RowChange.attempts_cases (h : RowChange act rows ph rows') (hspares : ph.SparesAttempts) :
    rows'.attempts t = rows.attempts t ∨ ∃ f, ph = .commitClaim f ∧ act.jobType = t := by
  by_cases hact : act.jobType = t
  · subst hact
    cases h with
    | same => exact .inl rfl
    | insert hjob => exact .inl (by simp [VideoRows.attempts, hjob, ProcessingJob.new])
    | claim => exact .inr ⟨_, rfl, rfl⟩
    | complete hf => exact .inl (hf.commit_attempts hspares)
    | fail htx hf => exact .inl hf.commit_attempts
  · left
    refine VideoRows.attempts_of_jobs ?_
    cases h with
    | same => rfl
    | insert => exact Function.update_of_ne (Ne.symm hact) _ _
    | claim | complete | fail => exact Frame.commit_jobs_of_ne (Ne.symm hact)

/-- And a flush. -/
theorem Frame.Completing.flush_attempts (h : f.Completing act) :
    f.flush.flushed.job.attempts = none := by
  simp only [Frame.flush, Frame.pending, dirtyJob]
  rw [h.job, dirty_self]

/-- An await flushes no count. -/
theorem Resumes.sparesAttempts (h : Resumes videoId act st ph ans st' ph')
    (hshaped : ph.Shaped videoId act) (hspares : ph.SparesAttempts) : ph'.SparesAttempts := by
  cases ph' with
  | countCompleted g =>
    obtain ⟨f, rfl, -, rfl⟩ := h.countCompleted_cases rfl
    exact hshaped.1.flush_attempts
  | commitCompletion g =>
    obtain ⟨f, rfl, -, rfl⟩ := h.commitCompletion_cases rfl
    cases allJobsCompleted (f.flushed.apply act.jobType st.rows) <;> exact hspares
  | _ => trivial

/-! ## Steps -/

/-- The attempt whose claim a step commits. -/
theorem Pool.claim?_eq_some : p.claim? t l = some f ↔ ∃ i now a, l = .resume i (.ok now) ∧
    p.attempts[i]? = some a ∧ a.claim? t = some f := by
  cases l with
  | resume i ans =>
    cases ans with
    | ok now => simp [Pool.claim?, Option.bind_eq_some_iff]
    | probed | error | noConnection => simp [Pool.claim?]
  | begin | vanish => simp [Pool.claim?]

/-- What a step does to the count: a claim that commits writes it, and nothing else does. -/
theorem Pool.Below.step_attempts (h : p.Below t b) (hstep : p.step l = some p') :
    p'.rows.attempts t =
      (p.claim? t l).elim (p.rows.attempts t) fun f => f.job.loaded.attempts + 1 := by
  cases l with
  | begin act =>
    obtain rfl := Option.some.inj hstep
    rfl
  | vanish i =>
    obtain ⟨a, -, rfl⟩ := Pool.vanish_eq_some hstep
    rfl
  | resume i ans =>
    obtain ⟨⟨act, ph⟩, st, ph', ha, hres, rfl⟩ := Pool.resume_eq_some hstep
    have hsound := h.sound i _ ha
    cases hclaim : p.claim? t (.resume i ans) with
    | some f =>
      -- the claim that commits is this attempt's
      obtain ⟨_, now, b, heq, hb, hclaim⟩ := Pool.claim?_eq_some.mp hclaim
      obtain ⟨rfl, rfl⟩ := PoolLabel.resume.inj heq
      obtain rfl := Option.some.inj (ha.symm.trans hb)
      obtain ⟨hph, rfl⟩ := Attempt.claim?_eq_some.mp hclaim
      obtain rfl : ph = .commitClaim f := hph
      cases hres with
      | commitClaim => exact hsound.shaped.commit_attempts (hsound.present rfl)
    | none =>
      -- the column changes by the commit of a claim only
      rcases (hres.rowChange hsound.shaped).attempts_cases (t := t) (h.spares i _ ha) with
        heq | ⟨f, rfl, ht⟩
      · exact heq
      · -- the claim has not committed
        cases hres with
        | giveUp => rfl
        | @commitClaim now =>
          have hsome : p.claim? t (.resume i (.ok now)) = some f := Pool.claim?_eq_some.mpr
            ⟨i, now, _, rfl, ha, Attempt.claim?_eq_some.mpr ⟨rfl, ht⟩⟩
          cases hclaim.symm.trans hsome
        | completionFails hph => cases hph

/-- The bound stays as long as no count above it is stored. -/
theorem Pool.Below.step (h : p.Below t b) (hstep : p.step l = some p') (hle : b ≤ b')
    (hstored : p'.rows.attempts t ≤ b') : p'.Below t b' := by
  have hpending : p.Each fun _ a => ∀ f, a.claim? t = some f → f.job.loaded.attempts ≤ b' :=
    fun i a ha f hf => (h.pending i a ha f hf).trans hle
  cases l with
  | begin act =>
    obtain rfl := Option.some.inj hstep
    exact ⟨h.sound.begin act, Pool.Each.begin h.spares trivial, hstored,
      Pool.Each.begin hpending fun f hf => by cases hf⟩
  | vanish i =>
    exact ⟨h.sound.vanish hstep, Pool.Each.vanish h.spares hstep fun _ => trivial, hstored,
      Pool.Each.vanish hpending hstep fun a f hf => by cases hf⟩
  | resume i ans =>
    refine ⟨h.sound.resume hstep, ?_, hstored, ?_⟩
    · refine Pool.Each.resume h.spares hstep (fun a st ph ha hspares hres => ?_)
        fun _ _ _ _ _ _ _ _ _ hb => hb
      exact hres.sparesAttempts (h.sound i a ha).shaped hspares
    · obtain ⟨a, st, ph, ha, hres, rfl⟩ := Pool.resume_eq_some hstep
      intro j b hb f hf
      rcases getElem?_set_cases hb with ⟨-, rfl⟩ | ⟨-, hb⟩
      · obtain ⟨hph, ht⟩ := Attempt.claim?_eq_some.mp hf
        -- an attempt about to claim holds the row it has just read
        have hloaded := hres.claim_loaded hph
        rw [show a.activity.jobType = t from ht] at hloaded
        have hstored : st.rows.attempts t ≤ b' := hstored
        rwa [VideoRows.attempts, hloaded] at hstored
      · exact hpending j b hb f hf

/-! ## Runs -/

/-- The claim has the count as it is. -/
theorem Pool.freshCount_iff : p.freshCount t l = true ↔
    ∀ f, p.claim? t l = some f → f.job.loaded.attempts = p.rows.attempts t := by
  rw [Pool.freshCount]
  cases p.claim? t l <;> simp

/-- A claim is counted. -/
theorem Pool.tally_of_some (h : p.claim? t l = some f) : p.tally t l n = n + 1 := by
  rw [Pool.tally, h]
  rfl

/-- Nothing else is. -/
theorem Pool.tally_of_none (h : p.claim? t l = none) : p.tally t l n = n := by
  rw [Pool.tally, h]
  rfl

/-- `m` and the number of claims make the stored count. -/
def Pool.Counts (t : JobType) (m : ℕ) (q : Pool × ℕ) : Prop :=
  q.1.Below t (m + q.2) ∧ q.1.rows.attempts t = m + q.2

/-- The stored count has fallen behind `m` and the number of claims. -/
def Pool.Loses (t : JobType) (m : ℕ) (q : Pool × ℕ) : Prop :=
  ∃ b, b < m + q.2 ∧ q.1.Below t b

variable {m : ℕ} {r r' : Pool × ℕ}

/-- A claim that finds its count up to date counts itself. -/
theorem Pool.Counts.keep (h : Pool.Counts t m r)
    (hstep : observe (Pool.tally t) Pool.step r l = some r') (hcurrent : r.1.FreshCount t l) :
    Pool.Counts t m r' := by
  obtain ⟨hbelow, hcount⟩ := h
  obtain ⟨hstep, htally⟩ := observe_eq_some.mp hstep
  have hattempts := hbelow.step_attempts hstep
  rw [Pool.Counts, htally]
  cases hclaim : r.1.claim? t l with
  | none =>
    rw [hclaim, Option.elim_none] at hattempts
    rw [Pool.tally_of_none hclaim]
    exact ⟨hbelow.step hstep le_rfl (hattempts.trans hcount).le, hattempts.trans hcount⟩
  | some f =>
    rw [hclaim, Option.elim_some, Pool.freshCount_iff.mp hcurrent f hclaim, hcount] at hattempts
    rw [Pool.tally_of_some hclaim]
    exact ⟨hbelow.step hstep (by omega) hattempts.le, hattempts⟩

/-- A claim that does not leaves the count behind. -/
theorem Pool.Counts.lose (h : Pool.Counts t m r)
    (hstep : observe (Pool.tally t) Pool.step r l = some r') (hcurrent : ¬ r.1.FreshCount t l) :
    Pool.Loses t m r' := by
  obtain ⟨hbelow, hcount⟩ := h
  obtain ⟨hstep, htally⟩ := observe_eq_some.mp hstep
  rw [Pool.FreshCount, Pool.freshCount_iff] at hcurrent
  push Not at hcurrent
  obtain ⟨f, hclaim, hne⟩ := hcurrent
  obtain ⟨i, now, a, -, ha, hf⟩ := Pool.claim?_eq_some.mp hclaim
  have hle := hbelow.pending i a ha f hf
  have hattempts := hbelow.step_attempts hstep
  rw [hclaim, Option.elim_some] at hattempts
  rw [Pool.Loses, htally, Pool.tally_of_some hclaim]
  exact ⟨m + r.2, by omega, hbelow.step hstep le_rfl (by omega)⟩

/-- The bound on what is stored and read moves with the number of claims. -/
theorem Pool.Loses.step (h : Pool.Loses t m r)
    (hstep : observe (Pool.tally t) Pool.step r l = some r') : Pool.Loses t m r' := by
  obtain ⟨b, hlt, hbelow⟩ := h
  obtain ⟨hstep, htally⟩ := observe_eq_some.mp hstep
  have hattempts := hbelow.step_attempts hstep
  rw [Pool.Loses, htally]
  cases hclaim : r.1.claim? t l with
  | none =>
    rw [hclaim, Option.elim_none] at hattempts
    rw [Pool.tally_of_none hclaim]
    exact ⟨b, hlt, hbelow.step hstep le_rfl (hattempts ▸ hbelow.stored)⟩
  | some f =>
    obtain ⟨i, now, a, -, ha, hf⟩ := Pool.claim?_eq_some.mp hclaim
    have hle := hbelow.pending i a ha f hf
    rw [hclaim, Option.elim_some] at hattempts
    rw [Pool.tally_of_some hclaim]
    exact ⟨b + 1, by omega, hbelow.step hstep (by omega) (by omega)⟩

/-- A pool that has been reached from one without attempts. -/
theorem Pool.below_of_reaches {p₀ : Pool} (hstart : p₀.attempts = [])
    (hreach : Reaches Pool.step p₀ p) (hquiet : ∀ a ∈ p.attempts, a.claim? t = none) :
    p.Below t (p.rows.attempts t) := by
  have hnone (i : ℕ) (a : Attempt) : p₀.attempts[i]? ≠ some a := by simp [hstart]
  have hbelow : ∃ b, p.Below t b := by
    refine hreach.invariant (I := fun p => ∃ b, p.Below t b) ?_
      ⟨p₀.rows.attempts t, Pool.sound_of_nil hstart, fun i a ha => absurd ha (hnone i a), le_rfl,
        fun i a ha => absurd ha (hnone i a)⟩
    rintro q l q' ⟨b, hq⟩ hstep
    exact ⟨_, hq.step hstep (Nat.le_max_left b _) (Nat.le_max_right b _)⟩
  obtain ⟨b, hsound, hspares, -, -⟩ := hbelow
  refine ⟨hsound, hspares, le_rfl, fun i a ha f hf => ?_⟩
  cases (hquiet a (List.mem_of_getElem? ha)).symm.trans hf

/-- From any pool that has been reached and in which no call of `claim_job` is about to commit,
`attempts` grows by the number of calls that return the job exactly when each of them commits onto
the count it has read. -/
theorem attempts_counts_claims (t : JobType) {p₀ p q : Pool} {n : ℕ} {ls : List PoolLabel}
    (hstart : p₀.attempts = []) (hreach : Reaches Pool.step p₀ p)
    (hquiet : ∀ a ∈ p.attempts, a.claim? t = none)
    (hrun : exec (observe (Pool.tally t) Pool.step) (p, 0) ls = some (q, n)) :
    q.rows.attempts t = p.rows.attempts t + n ↔
      exec (restrict (Pool.FreshCount t) Pool.step) p ls = some q := by
  have hcounts : Pool.Counts t (p.rows.attempts t) (p, 0) :=
    ⟨Pool.below_of_reaches hstart hreach hquiet, rfl⟩
  rcases exec_restrict_cases (fun _ _ _ => Pool.Counts.keep) (fun _ _ _ => Pool.Counts.lose)
    (fun _ _ _ => Pool.Loses.step) hcounts hrun with ⟨hgood, hexec⟩ | ⟨⟨b, hlt, hbelow⟩, hexec⟩
  · exact iff_of_true hgood.2 hexec
  · refine iff_of_false (fun heq => ?_) (fun h => by cases hexec.symm.trans h)
    exact absurd hbelow.stored (by rw [heq]; omega)

/-- A job that has been claimed and has failed once. -/
def Pool.failedOnce : Pool where
  videoId := ⟨7⟩
  store := ⟨{ VideoRows.new { Video.new (str "clip.mp4") (str "key") with status := .failed } with
    jobs := Function.update (fun _ => none) .metadata (some ⟨.failed, 1, some 0, none⟩) }, []⟩
  attempts := []

/-- Two calls, one after the other. -/
def Pool.claimingInTurn : List PoolLabel :=
  [.begin .extractMetadata, .resume 0 (.ok 0), .resume 0 (.ok 0), .resume 0 (.ok 0),
    .begin .extractMetadata, .resume 1 (.ok 0), .resume 1 (.ok 0), .resume 1 (.ok 0)]

/-- Two claims one after another. -/
theorem attempts_counts_claims_twice : ∃ q,
    exec (observe (Pool.tally .metadata) Pool.step) (.failedOnce, 0) Pool.claimingInTurn =
      some (q, 2) ∧ q.rows.attempts .metadata = Pool.failedOnce.rows.attempts .metadata + 2 := by
  have hobserve : (exec (observe (Pool.tally .metadata) Pool.step) (.failedOnce, 0)
      Pool.claimingInTurn).any fun q => decide (q.2 = 2) := by decide +kernel
  have hrestrict : (exec (restrict (Pool.FreshCount .metadata) Pool.step) .failedOnce
      Pool.claimingInTurn).isSome := by decide +kernel
  obtain ⟨⟨q, n⟩, hrun, hn⟩ := (Option.any_eq_true _ _).mp hobserve
  obtain rfl : n = 2 := of_decide_eq_true hn
  obtain ⟨q', hq'⟩ := Option.isSome_iff_exists.mp hrestrict
  obtain rfl : q = q' := Option.some.inj ((exec_of_observe hrun).symm.trans (exec_of_restrict hq'))
  exact ⟨q, hrun, (attempts_counts_claims .metadata rfl (.refl _ _) (fun a ha => by cases ha)
    hrun).mpr hq'⟩

/-- Two calls that both read the row before either writes it. -/
def Pool.claimingAtOnce : List PoolLabel :=
  [.begin .extractMetadata, .begin .extractMetadata, .resume 0 (.ok 0), .resume 0 (.ok 0),
    .resume 1 (.ok 0), .resume 1 (.ok 0), .resume 0 (.ok 0), .resume 1 (.ok 0)]

/-- Both return the job and the count grows by one. -/
theorem attempts_misses_claim : ∃ q,
    exec (observe (Pool.tally .metadata) Pool.step) (.failedOnce, 0) Pool.claimingAtOnce =
      some (q, 2) ∧ (∀ a ∈ q.attempts, a.claim? .metadata = none) ∧
      q.rows.attempts .metadata = Pool.failedOnce.rows.attempts .metadata + 1 := by
  have hobserve : (exec (observe (Pool.tally .metadata) Pool.step) (.failedOnce, 0)
      Pool.claimingAtOnce).any fun q => decide (q.2 = 2) &&
        (q.1.attempts.all fun a => decide (a.claim? .metadata = none)) &&
        decide (q.1.rows.attempts .metadata = 2) := by decide +kernel
  obtain ⟨⟨q, n⟩, hrun, hq⟩ := (Option.any_eq_true _ _).mp hobserve
  simp only [Bool.and_eq_true, decide_eq_true_iff, List.all_eq_true] at hq
  obtain ⟨⟨rfl, hdone⟩, hcount⟩ := hq
  exact ⟨q, hrun, hdone, hcount⟩

end VideoProcessing
