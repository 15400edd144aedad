import VideoProcessing.Platform.Retries

/-!
# A retry and the result of its execution

`retry_video` sends its message before it commits, so the execution the message starts may commit
statuses of its own before the request does. What counts is the order of the commits: after a
`claim_job` the request's PROCESSING changes nothing, after a completion or a `fail_job` it takes
the result back. In any run at all the requests that commit in order, and only these, keep what the
activities have committed. Where besides every failure for good is recorded and no claim comes too
late, the video ends up with the status its last execution has closed with.
-/

namespace VideoProcessing

open Python UnitOfWork Transitions

/-! ## The order of the commits -/

/-- The function an activity commits a status in: `claim_job`, or a `complete_*_job` or
`fail_job`. -/
inductive StatusCommit where
  | claim
  | result
deriving DecidableEq

/-- The `videos.status` among the columns a commit of this session stores. -/
def Frame.statusSet (f : Frame) : Option VideoStatus :=
  f.pending.video.status.or f.flushed.video.status

/-- The function whose commit is awaited, and the status it stores if it stores one. -/
def Phase.statusCommit : Phase → Option (StatusCommit × VideoStatus)
  | .commitClaim f => f.statusSet.map (.claim, ·)
  | .commitCompletion f => f.statusSet.map (.result, ·)
  | .failJob f _ => if f.tx = .broken then none else f.statusSet.map (.result, ·)
  | _ => none

/-- The commit of an activity at this step. -/
def State.statusCommit (s : State) : Label → Option (StatusCommit × VideoStatus)
  | .resume i (.ok _) => s.pool.attempts[i]?.bind fun a => a.phase.statusCommit
  | _ => none

/-- The platform, and the last commit of an activity that stored a status. -/
abbrev Watched := State × Option (StatusCommit × VideoStatus)

def Watched.step : Watched → Label → Option Watched :=
  observe (fun s l last => (s.statusCommit l).or last) State.step

/-- A request to retry commits before an activity has committed a status, or after the last one was
committed by `claim_job`. -/
def Watched.inOrder (q : Watched) (l : Label) : Bool :=
  !q.1.commitsRetry l || q.2.all fun last => last.1 = .claim

abbrev Watched.InOrder (q : Watched) (l : Label) : Prop := q.inOrder l = true

/-- No attempt is killed or times out, the database accepts every write, the last attempt of an
activity has its failure recorded, and no claim comes too late. -/
abbrev Watched.InTime (q : Watched) (l : Label) : Prop :=
  q.1.writable l = true ∧ q.1.recordsFailure l = true ∧ q.1.claimsInTime l = true

/-- One live attempt per activity, and no retry that commits over a completed video. -/
abbrev State.Spared (s : State) (l : Label) : Prop := s.sequential l = true ∧ s.spares l = true

/-- The video has the status the last execution has closed with. -/
def State.Settled (s : State) : Prop :=
  (s.temporal.closed.head? = some .completed ∧ s.status = .completed) ∨
    (s.temporal.closed.head? = some .failed ∧ s.status = .failed)

/-- A request that goes on has read a failed video. -/
def RetryPhase.ReadFailed : RetryPhase → Prop
  | .send video | .commit video => video.loaded.status = .failed
  | _ => True

/-- The last status an activity has committed has not been replaced. -/
structure Watched.Kept (q : Watched) : Prop where
  faithful : q.1.Faithful Readings.any
  requests : ∀ phase ∈ q.1.requests, phase.ReadFailed
  kept : ∀ last, q.2 = some last → q.1.status = last.2
  claim : ∀ last, q.2 = some last → (last.1 = .claim ↔ last.2 = .processing)

/-- Since `n` executions had closed, the video has had the status of the last one whenever none was
open. -/
structure Watched.Resulting (n : ℕ) (q : Watched) : Prop where
  kept : q.Kept
  calm : q.1.Calm
  ordered : q.1.Ordered Readings.any
  completed : q.1.status = .completed → q.2 = some (.result, .completed)
  failed : ∀ t, q.1.failedForGood t = true → q.2 ≠ none
  closed : n < q.1.temporal.closed.length → q.1.temporal.current = none →
    q.2 = some (.result, q.1.status) ∧ q.1.Settled

variable {s s' : State} {l : Label} {q q' : Watched} {n : ℕ}

/-! ## What a step commits -/

/-- What an await that returns stores in `videos.status`. -/
theorem Resumes.status {videoId : UUID} {act : Activity} {st st' : Store} {ph ph' : Phase}
    {now : Time} (h : Resumes videoId act st ph (.ok now) st' ph') :
    st'.rows.video.status = put (ph.statusCommit.map Prod.snd) st.rows.video.status := by
  have hcommit (f : Frame) (kind : StatusCommit) : (f.commit act.jobType st.rows).video.status =
      put ((f.statusSet.map (kind, ·)).map Prod.snd) st.rows.video.status := by
    rw [Option.map_map, show (Prod.snd ∘ fun v : VideoStatus => (kind, v)) = id from rfl,
      Option.map_id, id]
    exact (put_or _ _ _).symm
  cases h with
  | commitClaim => exact hcommit _ .claim
  | commitCompletion => exact hcommit _ .result
  | failJob htx =>
    rw [Phase.statusCommit, if_neg htx]
    exact hcommit _ .result
  | failJobBroken htx =>
    rw [Phase.statusCommit, if_pos htx]
    rfl
  | _ => rfl

/-- A claim stores processing, and only a claim does. -/
theorem Phase.Shaped.statusCommit {videoId : UUID} {act : Activity} {ph : Phase}
    (h : ph.Shaped videoId act) {last : StatusCommit × VideoStatus}
    (hlast : ph.statusCommit = some last) : last.1 = .claim ↔ last.2 = .processing := by
  -- a claim stores PROCESSING, a completion COMPLETED, fail_job FAILED
  cases ph with
  | commitClaim f =>
    have hf : f.Claiming := h
    obtain ⟨v, hv, rfl⟩ := Option.map_eq_some_iff.mp hlast
    rw [Frame.statusSet, hf.flushed] at hv
    rcases hf.pending_status with hp | hp <;> rw [hp] at hv <;> cases hv
    exact iff_of_true rfl rfl
  | commitCompletion f =>
    have hf : f.Flushed := h
    obtain ⟨v, hv, rfl⟩ := Option.map_eq_some_iff.mp hlast
    rw [Frame.statusSet, hf.flushedVideo] at hv
    rcases hf.pending_status with hp | hp <;> rw [hp] at hv <;> cases hv
    exact iff_of_false nofun nofun
  | failJob f error =>
    obtain ⟨htx, hlast⟩ := Option.ite_none_left_eq_some.mp hlast
    have hf : f.Failing := h htx
    obtain ⟨v, hv, rfl⟩ := Option.map_eq_some_iff.mp hlast
    rw [Frame.statusSet, hf.pending_status] at hv
    cases hv
    exact iff_of_false nofun nofun
  | _ => cases hlast

/-- The step is that await. -/
theorem State.status_resume {i : ℕ} {ans : Answer} (hstep : s.step (.resume i ans) = some s') :
    s'.status = put ((s.statusCommit (.resume i ans)).map Prod.snd) s.status := by
  cases State.step_moves hstep with
  | resume hpool =>
    obtain ⟨a, st, ph, ha, hres, rfl⟩ := Pool.resume_eq_some hpool
    cases ans with
    | ok now =>
      simp only [State.statusCommit, ha, Option.bind_some]
      exact hres.status
    | probed | error | noConnection =>
      exact congrArg (·.video.status) (hres.rows_eq_of_not_ok fun now heq => nomatch heq)

/-- The commit of an activity, whatever it stores, is one its phase awaits. -/
theorem State.Faithful.statusCommit {R : Readings} (h : s.Faithful R)
    {last : StatusCommit × VideoStatus} (hlast : s.statusCommit l = some last) :
    last.1 = .claim ↔ last.2 = .processing := by
  cases l with
  | resume i ans =>
    cases ans with
    | ok now =>
      obtain ⟨a, ha, hlast⟩ := Option.bind_eq_some_iff.mp hlast
      exact (h.pool.sound i a ha).shaped.statusCommit hlast
    | _ => cases hlast
  | _ => cases hlast

/-- The commit of a request is none of an activity. -/
theorem State.statusCommit_of_commitsRetry (h : s.commitsRetry l = true) :
    s.statusCommit l = none := by
  cases l with
  | resume => exact absurd h Bool.false_ne_true
  | _ => rfl

/-- A retry stores processing. -/
theorem State.Faithful.status_of_commitsRetry {R : Readings} (h : s.Faithful R)
    (hread : ∀ phase ∈ s.requests, phase.ReadFailed) (hcommits : s.commitsRetry l = true)
    (hstep : s.step l = some s') : s'.status = .processing := by
  cases State.step_moves hstep with
  | @retryCommit r video hr =>
    have hshaped : (RetryPhase.commit video).Shaped := h.requests _ (List.mem_of_getElem? hr)
    have hcurrent : video.current = { video.loaded with status := .processing } := hshaped
    have hloaded : video.loaded.status = .failed := hread _ (List.mem_of_getElem? hr)
    have hdirty : (dirtyVideo video).status = some .processing := by
      have hne : VideoStatus.processing ≠ .failed := by decide
      rw [dirtyVideo, hcurrent, hloaded]
      exact dirty_of_ne hne
    simp only [State.status, State.rows, State.withVideo, VideoSet.apply, hdirty, put_some]
  | retryVideo => rfl
  | retryRead hr | retryRefused hr | retrySend hr => simp [State.commitsRetry, hr] at hcommits
  | retryVideoRefused hstatus => exact absurd (of_decide_eq_true hcommits) hstatus
  | _ => exact absurd hcommits Bool.false_ne_true

/-- Only a request that has read a failed video goes on. -/
theorem State.readFailed_step (h : ∀ phase ∈ s.requests, phase.ReadFailed)
    (hstep : s.step l = some s') : ∀ phase ∈ s'.requests, phase.ReadFailed := by
  have hset {r : ℕ} {new : RetryPhase} (hnew : new.ReadFailed) :
      ∀ phase ∈ s.requests.set r new, phase.ReadFailed := by
    intro phase hmem
    rcases List.mem_or_eq_of_mem_set hmem with hmem | rfl
    · exact h phase hmem
    · exact hnew
  have happend {new : RetryPhase} (hnew : new.ReadFailed) :
      ∀ phase ∈ s.requests ++ [new], phase.ReadFailed :=
    List.forall_mem_append.mpr ⟨h, List.forall_mem_singleton.mpr hnew⟩
  cases State.step_moves hstep with
  | retryBegin | retryVideo | retryVideoRefused => exact happend trivial
  | retryRead hr hstatus => exact hset hstatus
  | @retrySend r video hr =>
    have hloaded : video.loaded.status = .failed := h _ (List.mem_of_getElem? hr)
    exact hset hloaded
  | retryRefused | retryCommit | retryRaises => exact hset trivial
  | _ => exact h

/-- What a step does to the video's status. -/
theorem Watched.Kept.status_cases (h : q.Kept) (hstep : q.1.step l = some s') :
    s'.status = put ((q.1.statusCommit l).map Prod.snd) q.1.status ∨
      q.1.commitsRetry l = true ∧ s'.status = .processing := by
  rcases State.rows_of_step hstep with ⟨i, ans, rfl⟩ | hcommits | hrows
  · exact .inl (State.status_resume hstep)
  · exact .inr ⟨hcommits, h.faithful.status_of_commitsRetry h.requests hcommits hstep⟩
  · left
    cases l with
    | resume i ans => exact State.status_resume hstep
    | _ => exact congrArg (·.video.status) hrows

/-! ## What is kept in any run -/

/-- Only the commits of requests can be out of order. -/
theorem Watched.inOrder_iff : q.inOrder l = true ↔
    (q.1.commitsRetry l = true → ∀ last, q.2 = some last → last.1 = .claim) := by
  obtain ⟨s, last⟩ := q
  cases hcommits : s.commitsRetry l <;> cases last <;> simp [Watched.inOrder, hcommits]

/-- A step in order keeps the last status. -/
theorem Watched.Kept.step (h : q.Kept) (horder : q.inOrder l = true)
    (hstep : q.step l = some q') : q'.Kept := by
  obtain ⟨s', last'⟩ := q'
  obtain ⟨hstep, rfl⟩ := observe_eq_some.mp hstep
  refine ⟨(h.faithful.step (Readings.any_reports l) hstep).1,
    State.readFailed_step h.requests hstep, fun last hlast => ?_, fun last hlast => ?_⟩
  · -- the status is what the step stores, or a retry finds that of a claim
    rcases h.status_cases hstep with hput | ⟨hcommits, hstatus⟩
    · cases hset : q.1.statusCommit l with
      | some set =>
        rw [hset, Option.some_or] at hlast
        obtain rfl := Option.some.inj hlast
        rw [hput, hset, Option.map_some, put_some]
      | none =>
        rw [hset, Option.none_or] at hlast
        rw [hput, hset, Option.map_none, put_none]
        exact h.kept last hlast
    · rw [State.statusCommit_of_commitsRetry hcommits, Option.none_or] at hlast
      have hclaim := Watched.inOrder_iff.mp horder hcommits last hlast
      exact hstatus.trans ((h.claim last hlast).mp hclaim).symm
  · rcases Option.or_eq_some_iff.mp hlast with hset | ⟨-, hlast⟩
    · exact h.faithful.statusCommit hset
    · exact h.claim last hlast

/-- The next retry keeps the status in place exactly if it commits in order. -/
theorem Watched.Kept.retry_iff (h : q.Kept) (hcommits : q.1.commitsRetry l = true)
    (hstep : q.1.step l = some s') {last : StatusCommit × VideoStatus} (hlast : q.2 = some last) :
    s'.status = last.2 ↔ last.1 = .claim := by
  rw [h.faithful.status_of_commitsRetry h.requests hcommits hstep, h.claim last hlast, eq_comm]

/-- So does a run. -/
theorem Watched.Kept.exec {ls : List Label} (h : q.Kept)
    (hrun : exec (restrict Watched.InOrder Watched.step) q ls = some q') : q'.Kept := by
  refine exec_invariant (fun q l q' hq hstep => ?_) h hrun
  obtain ⟨hl, hstep⟩ := restrict_eq_some.mp hstep
  exact hq.step hl hstep

/-! ## Executions that close -/

/-- A commit of a request over a video that is not completed spares it. -/
theorem State.spares_of_commitsRetry (h : s.commitsRetry l = true → s.status ≠ .completed) :
    s.spares l = true := by
  cases l with
  | retryStep r ok =>
    cases ok with
    | false => rfl
    | true =>
      cases hr : s.requests[r]? with
      | none => simp [State.spares, hr]
      | some phase =>
        cases phase with
        | commit video => simpa [State.spares, hr] using h (by simp [State.commitsRetry, hr])
        | _ => simp [State.spares, hr]
  | _ => rfl

/-- A commit in order finds no result of an activity. -/
theorem Watched.Resulting.commitsRetry (h : q.Resulting n) (horder : q.inOrder l = true)
    (hcommits : q.1.commitsRetry l = true) :
    q.1.status ≠ .completed ∧ ∀ t, q.1.failedForGood t ≠ true := by
  have hclaim := Watched.inOrder_iff.mp horder hcommits
  refine ⟨fun hcompleted => ?_, fun t ht => ?_⟩
  · cases hclaim _ (h.completed hcompleted)
  · obtain ⟨last, hlast⟩ := Option.ne_none_iff_exists'.mp (h.failed t ht)
    have hstatus := h.kept.kept last hlast
    rw [(h.kept.claim last hlast).mp (hclaim last hlast), (h.calm.failed t ht).1] at hstatus
    cases hstatus

/-- A step that leaves no execution open. -/
theorem State.closed_cases (hstep : s.step l = some s') (hcurrent : s'.temporal.current = none) :
    s'.temporal = s.temporal ∨ l = .decide ∧ s'.rows = s.rows ∧
      (s'.temporal.closed = .completed :: s.temporal.closed ∨
        s'.temporal.closed = .failed :: s.temporal.closed) := by
  cases State.step_moves hstep with
  | dispatch | reportReturned | reportRaised | timeOut => exact nomatch hcurrent
  | decide hdecides =>
    cases hdecides with
    | schedule => exact nomatch hcurrent
    | complete => exact .inr ⟨rfl, rfl, .inl rfl⟩
    | fail => exact .inr ⟨rfl, rfl, .inr rfl⟩
  | start hd hstart =>
    obtain ⟨-, -, rfl⟩ := Temporal.startWorkflow_eq_some.mp hstart
    exact nomatch hcurrent
  | _ => exact .inl rfl

/-- Between executions nothing writes over the last result. -/
theorem Watched.Resulting.rows_of_settled (h : q.Resulting n) (horder : q.inOrder l = true)
    (hstep : q.1.step l = some s') (hcurrent : q.1.temporal.current = none)
    (hsettled : q.2 = some (.result, q.1.status)) :
    s'.rows = q.1.rows ∧ q.1.statusCommit l = none := by
  have hresume {i : ℕ} {ans : Answer} (hstep : q.1.step (.resume i ans) = some s') : False := by
    cases State.step_moves hstep with
    | resume hpool =>
      obtain ⟨a, st, ph, ha, hres, rfl⟩ := Pool.resume_eq_some hpool
      have hdead := h.calm.supervised.not_live_of_closed hcurrent (List.mem_of_getElem? ha)
      cases hdead.symm.trans hres.live
  rcases State.rows_of_step hstep with ⟨i, ans, rfl⟩ | hcommits | hrows
  · exact (hresume hstep).elim
  · cases Watched.inOrder_iff.mp horder hcommits _ hsettled
  · refine ⟨hrows, ?_⟩
    cases l with
    | resume i ans => exact (hresume hstep).elim
    | _ => rfl

/-- A step in time and in order keeps the result of every execution that closes. -/
theorem Watched.Resulting.step (h : q.Resulting n) (horder : q.inOrder l = true)
    (hl : q.InTime l) (hstep : q.step l = some q') : q'.Resulting n := by
  have hkept := h.kept.step horder hstep
  obtain ⟨s', last'⟩ := q'
  obtain ⟨hstep, rfl⟩ := observe_eq_some.mp hstep
  obtain ⟨hwritable, hrecords, hclaims⟩ := hl
  have hcalm := h.calm.step hwritable hrecords hclaims
    (fun hcommits => (h.commitsRetry horder hcommits).2) hstep
  have hordered := h.ordered.step (Readings.any_reports l) (h.calm.sequential hstep)
    (State.spares_of_commitsRetry fun hcommits => (h.commitsRetry horder hcommits).1) hstep
  -- COMPLETED is never a claim's status, so a result has stored it last
  have hcompleted (hstatus : s'.status = .completed) :
      (q.1.statusCommit l).or q.2 = some (.result, .completed) := by
    rcases h.kept.status_cases hstep with hput | ⟨-, hprocessing⟩
    · cases hset : q.1.statusCommit l with
      | some set =>
        obtain ⟨kind, status⟩ := set
        rw [hset] at hput
        obtain rfl : status = .completed := hput.symm.trans hstatus
        cases kind with
        | result => rfl
        | claim => cases (h.kept.faithful.statusCommit hset).mp rfl
      | none =>
        rw [hset] at hput
        exact h.completed (hput.symm.trans hstatus)
    · cases hprocessing.symm.trans hstatus
  refine ⟨hkept, hcalm, hordered, hcompleted, fun t ht => ?_, fun hn hcurrent => ?_⟩
  -- an activity that fails for good now does so at the commit of its failure
  · rcases h.calm.failedForGood_cases hwritable hrecords hstep ht with hbefore |
      ⟨i, a, f, error, now, rfl, ha, hph, htx, hf, -, -⟩
    · exact fun hnone => h.failed t hbefore (Option.or_eq_none_iff.mp hnone).2
    · simp [State.statusCommit, ha, hph, Phase.statusCommit, htx, Frame.statusSet,
        hf.pending_status]
  · rcases State.closed_cases hstep hcurrent with htemporal | ⟨rfl, hrows, hclosed⟩
    · -- no decision: the execution was closed before, and the step leaves the rows alone
      have hsettled := h.closed (htemporal ▸ hn) (htemporal ▸ hcurrent)
      obtain ⟨hrows, hset⟩ := h.rows_of_settled horder hstep (htemporal ▸ hcurrent) hsettled.1
      have hstatus : s'.status = q.1.status := congrArg (·.video.status) hrows
      have hbefore := hsettled.2
      rw [State.Settled, ← htemporal, ← hstatus] at hbefore
      refine ⟨?_, hbefore⟩
      change (q.1.statusCommit l).or q.2 = some (.result, s'.status)
      rw [hset, hstatus, Option.none_or]
      exact hsettled.1
    · rcases hclosed with hclosed | hclosed
      · -- the workflow completes, so the transcode job was completed and with it the video
        have hmem : .completed ∈ s'.temporal.closed := by
          rw [hclosed]
          exact List.mem_cons_self
        have hstatus : s'.status = .completed :=
          (hordered.pool.rows.transcoded (hordered.closed hmem)).2.2
        refine ⟨?_, .inl ⟨congrArg List.head? hclosed, hstatus⟩⟩
        change (q.1.statusCommit .decide).or q.2 = some (.result, s'.status)
        rw [hstatus]
        exact hcompleted hstatus
      · -- the workflow fails by an activity that failed for good, so its failure was recorded
        obtain ⟨t, ht⟩ := State.failedForGood_of_decide hstep hclosed
        obtain ⟨⟨kind, status⟩, hlast⟩ := Option.ne_none_iff_exists'.mp (h.failed t ht)
        have hstatus : s'.status = .failed := by
          rw [State.status, hrows]
          exact (h.calm.failed t ht).1
        obtain rfl : q.1.status = status := h.kept.kept _ hlast
        have hfailed : q.1.status = .failed := (h.calm.failed t ht).1
        refine ⟨?_, .inr ⟨congrArg List.head? hclosed, hstatus⟩⟩
        change q.2 = some (.result, s'.status)
        cases kind with
        | result => rw [hlast, hfailed, hstatus]
        | claim => cases hfailed.symm.trans ((h.kept.claim _ hlast).mp rfl)

/-! ## Runs -/

/-- Sequential attempts and retries that spare a completed video keep the stages in order. -/
theorem State.exec_ordered {videoId : UUID} {filename key : Str} {ls : List Label}
    (hrun : exec (restrict State.Spared State.step) (.created videoId filename key) ls = some s) :
    s.Ordered Readings.any := by
  refine exec_invariant (fun q l q' hq hstep => ?_)
    (State.ordered_created Readings.any videoId filename key) hrun
  obtain ⟨⟨hseq, hspares⟩, hstep⟩ := restrict_eq_some.mp hstep
  exact hq.step (Readings.any_reports l) hseq hspares hstep

/-- Nothing has been committed yet in a state that a run has led to. -/
theorem Watched.kept_of_exec {videoId : UUID} {filename key : Str} {ls : List Label}
    (hrun : exec State.step (.created videoId filename key) ls = some s) :
    Watched.Kept (s, none) := by
  refine ⟨State.exec_faithful hrun, ?_, nofun, nofun⟩
  exact exec_invariant (I := fun s => ∀ phase ∈ s.requests, phase.ReadFailed)
    (fun _ _ _ hq hstep => State.readFailed_step hq hstep) (fun _ hmem => nomatch hmem) hrun

/-- In any run from any state reached: as long as every request to retry commits before an activity
has committed a status, or after a claim, the status an activity committed last stays, and the next
request keeps it exactly if it commits in order too. Where besides the run starts from a video that
is not completed, without an open execution or a live attempt, by a history of sequential attempts
and retries that spare a completed video, and the steps are in time, the video of a closed execution
has the result its activities committed last, and is completed or failed as the execution was. -/
theorem retry_spares_result {videoId : UUID} {filename key : Str} {s₀ s : State}
    {ls₀ ls : List Label} {last : Option (StatusCommit × VideoStatus)}
    (hreached : exec State.step (.created videoId filename key) ls₀ = some s₀)
    (hrun : exec (restrict Watched.InOrder Watched.step) (s₀, none) ls = some (s, last)) :
    (∀ kind status, last = some (kind, status) → s.status = status ∧
      ∀ l s', s.commitsRetry l = true → s.step l = some s' →
        (s'.status = status ↔ kind = .claim)) ∧
    (exec (restrict State.Spared State.step) (.created videoId filename key) ls₀ = some s₀ →
      s₀.atRest = true → s₀.status ≠ .completed →
      exec (restrict Watched.InTime Watched.step) (s₀, none) ls = some (s, last) →
      s₀.temporal.closed.length < s.temporal.closed.length → s.temporal.current = none →
      last = some (.result, s.status) ∧ s.Settled) := by
  have hstart := Watched.kept_of_exec hreached
  have hkept := hstart.exec hrun
  refine ⟨fun kind status hlast => ⟨hkept.kept _ hlast, fun l s' hcommits hstep =>
    hkept.retry_iff hcommits hstep hlast⟩, fun hspared hrest hstatus hintime hclosed hopen => ?_⟩
  have hcurrent := (State.atRest_iff.mp hrest).1
  have hresulting : Watched.Resulting s₀.temporal.closed.length (s₀, none) :=
    ⟨hstart, hstart.faithful.calm hrest, State.exec_ordered hspared,
      fun h => absurd h hstatus,
      fun t ht => absurd ht (State.not_failedForGood_of_closed hcurrent t),
      fun h => absurd h (lt_irrefl _)⟩
  have hboth := exec_restrict_and hrun hintime
  have hlast := exec_invariant (I := Watched.Resulting s₀.temporal.closed.length)
    (fun q l q' hq hstep => ?_) hresulting hboth
  · exact hlast.closed hclosed hopen
  · obtain ⟨⟨horder, hl⟩, hstep⟩ := restrict_eq_some.mp hstep
    exact hq.step horder hl hstep

/-! ## Sample runs -/

/-- The thumbnail completes, the metadata activity fails for good. -/
def State.failedOnce : List Label := List.flatten [
  [.notify, .receive 0, .start 0 .received, .delete 0 true, .dispatch .thumbnail],
  Label.resumes 0 11, [.report .thumbnail], Label.failMetadata 1 4, Label.failMetadata 2 3,
  Label.failMetadata 3 3, [.decide]]

/-- A retry sends its message, and its execution is started. -/
def Label.sends : List Label :=
  [.retryBegin, .retryStep 0 true, .retryStep 0 true, .receive 1, .start 1 .received,
    .delete 1 true]

/-- That execution completes the video. -/
def Label.completes : List Label := List.flatten [
  [.dispatch .metadata, .dispatch .thumbnail], Label.resumes 4 4,
  [.resume 4 (.probed ⟨1000, 1280, 720⟩ 0)], Label.resumes 4 3, Label.resumes 5 2,
  [.report .metadata, .report .thumbnail, .decide, .dispatch .transcode], Label.resumes 6 11,
  [.report .transcode, .decide]]

/-- The request commits after its execution has completed the video: the video is processing, and
no execution will be started for it again. -/
theorem retry_overwrites_result : ∃ s₀ s s',
    exec (restrict State.Spared State.step) State.clip State.failedOnce = some s₀ ∧
    s₀.atRest = true ∧ s₀.status = .failed ∧
    exec (restrict Watched.InTime Watched.step) (s₀, none) (Label.sends ++ Label.completes) =
      some (s, some (.result, .completed)) ∧
    s.temporal.closed.head? = some .completed ∧ s.step (.retryStep 0 true) = some s' ∧
    s'.requests[0]? = some .returned ∧ s'.status = .processing := by
  have hrun : (exec (restrict State.Spared State.step) State.clip State.failedOnce).any fun s₀ =>
      s₀.atRest && decide (s₀.status = .failed) &&
      (exec (restrict Watched.InTime Watched.step) (s₀, none)
        (Label.sends ++ Label.completes)).any fun q =>
          decide (q.2 = some (.result, .completed) ∧
            q.1.temporal.closed.head? = some .completed) &&
          (q.1.step (.retryStep 0 true)).any fun s' =>
            decide (s'.requests[0]? = some .returned ∧ s'.status = .processing) := by
    decide +kernel
  obtain ⟨s₀, h₀, h⟩ := (Option.any_eq_true _ _).mp hrun
  obtain ⟨hs₀, h⟩ := Bool.and_eq_true_iff.mp h
  obtain ⟨hrest, hstatus⟩ := Bool.and_eq_true_iff.mp hs₀
  obtain ⟨⟨s, last⟩, hs, h⟩ := (Option.any_eq_true _ _).mp h
  obtain ⟨hclosed, h⟩ := Bool.and_eq_true_iff.mp h
  obtain ⟨s', hs', hlast⟩ := (Option.any_eq_true _ _).mp h
  obtain ⟨rfl, hclosed⟩ := of_decide_eq_true hclosed
  exact ⟨s₀, s, s', h₀, hrest, of_decide_eq_true hstatus, hs, hclosed, hs',
    of_decide_eq_true hlast⟩

/-- A request that commits as soon as its message is taken keeps the result. -/
theorem retry_spares_result_clip : ∃ s₀ s last,
    exec (restrict State.Spared State.step) State.clip State.failedOnce = some s₀ ∧
    exec (restrict Watched.InOrder Watched.step) (s₀, none)
      (Label.sends ++ .retryStep 0 true :: Label.completes) = some (s, last) ∧
    last = some (.result, s.status) ∧ s.Settled := by
  have hrun : (exec (restrict State.Spared State.step) State.clip State.failedOnce).any fun s₀ =>
      s₀.atRest && decide (s₀.status ≠ .completed) &&
      (exec (restrict (fun q l => Watched.InOrder q l ∧ Watched.InTime q l) Watched.step) (s₀, none)
        (Label.sends ++ .retryStep 0 true :: Label.completes)).any fun q =>
          decide (s₀.temporal.closed.length < q.1.temporal.closed.length) &&
          q.1.temporal.current.isNone := by
    decide +kernel
  obtain ⟨s₀, h₀, h⟩ := (Option.any_eq_true _ _).mp hrun
  obtain ⟨hs₀, h⟩ := Bool.and_eq_true_iff.mp h
  obtain ⟨hrest, hstatus⟩ := Bool.and_eq_true_iff.mp hs₀
  obtain ⟨⟨s, last⟩, hs, h⟩ := (Option.any_eq_true _ _).mp h
  obtain ⟨hclosed, hcurrent⟩ := Bool.and_eq_true_iff.mp h
  have horder : exec (restrict Watched.InOrder Watched.step) (s₀, none)
      (Label.sends ++ .retryStep 0 true :: Label.completes) = some (s, last) :=
    exec_restrict_mono (fun _ _ hl => hl.1) hs
  exact ⟨s₀, s, last, h₀, horder, (retry_spares_result (exec_of_restrict h₀) horder).2 h₀ hrest
    (of_decide_eq_true hstatus) (exec_restrict_mono (fun _ _ hl => hl.2) hs)
    (of_decide_eq_true hclosed) (Option.isNone_iff_eq_none.mp hcurrent)⟩

end VideoProcessing
