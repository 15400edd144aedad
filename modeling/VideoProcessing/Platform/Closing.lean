import VideoProcessing.Platform.Readers
import VideoProcessing.Platform.Undisturbed

/-!
# An execution that closes Failed

No attempt is killed or times out, the database accepts every write and no request touches the
video. An execution that closes Failed then leaves the video failed and free to be retried, if the
last attempt of no activity raises past `fail_job` and no claim writes over the failure of an
activity that has failed for good. A claim that comes later takes the failure back, and a last
attempt whose read fails leaves none.

The failure that closes the execution is followed from the commit that stores it to the workflow's
decision: no step on the way changes the status, and the decision is taken on failed tasks only.
-/

namespace VideoProcessing

open Python UnitOfWork Transitions

/-- No execution is open and no attempt is alive. -/
def State.atRest (s : State) : Bool :=
  s.temporal.current.isNone && s.pool.attempts.all fun a => !a.phase.live

/-- A step of a request to the API. -/
def Label.requested : Label → Bool
  | .retryBegin | .retryStep _ _ | .retryVideo => true
  | _ => false

/-- No attempt is killed or times out, the database accepts every write, and no request touches the
video. -/
abbrev State.Writable (s : State) (l : Label) : Prop :=
  s.writable l = true ∧ l.requested = false

/-- The steps among them at which the last attempt of an activity has its failure recorded and no
claim comes too late. -/
abbrev State.InTime (s : State) (l : Label) : Prop :=
  s.Writable l ∧ s.recordsFailure l = true ∧ s.claimsInTime l = true

variable {s s' : State} {l : Label}

/-- No execution is open, and no attempt is alive. -/
theorem State.atRest_iff : s.atRest = true ↔
    s.temporal.current = none ∧ ∀ a ∈ s.pool.attempts, a.phase.live = false := by
  simp [State.atRest, Option.isNone_iff_eq_none]

/-- Every run holds the data it should. -/
theorem State.exec_faithful {videoId : UUID} {filename key : Str} {ls : List Label}
    (hrun : exec State.step (.created videoId filename key) ls = some s) :
    s.Faithful Readings.any :=
  exec_invariant (fun _ _ _ hq hstep => (hq.step (Readings.any_reports _) hstep).1)
    (State.faithful_created Readings.any videoId filename key) hrun

/-- Nothing can be disturbed where nothing is under way. -/
theorem State.Faithful.calm (h : s.Faithful Readings.any) (hrest : s.atRest = true) : s.Calm := by
  obtain ⟨hcurrent, hdead⟩ := State.atRest_iff.mp hrest
  have hdead {i : ℕ} {a : Attempt} (ha : s.pool.attempts[i]? = some a) : a.phase.live = false :=
    hdead a (List.mem_of_getElem? ha)
  refine ⟨h, ⟨h.pool.sound, ?_, ?_⟩, ?_, ?_, ?_, ?_, ?_⟩
  · intro i j a b ha _ hlive
    exact nomatch (hdead ha).symm.trans hlive
  · intro i a ha
    exact Attempt.unfinished_of_not_live (hdead ha)
  · intro i a ha hlive
    exact nomatch (hdead ha).symm.trans hlive
  · intro tasks htasks
    exact nomatch hcurrent.symm.trans htasks
  · intro i ⟨act, ph⟩ ha
    have hph := hdead ha
    cases ph with
    | returned | raised | vanished => trivial
    | _ => exact nomatch hph
  · rintro i ⟨act, ph⟩ ha f rfl
    exact nomatch hdead ha
  · exact fun t ht => absurd ht (State.not_failedForGood_of_closed hcurrent t)

/-- Without requests no request commits. -/
theorem State.commitsRetry_of_not_requested (h : l.requested = false) :
    s.commitsRetry l = false := by
  cases l with
  | retryBegin | retryStep | retryVideo => exact nomatch h
  | _ => rfl

/-- A run in time stays calm. -/
theorem State.Calm.exec {ls : List Label} (h : s.Calm)
    (hrun : exec (restrict State.InTime State.step) s ls = some s') : s'.Calm := by
  refine exec_invariant (fun q l q' hq hstep => ?_) h hrun
  obtain ⟨⟨⟨hwritable, hrequested⟩, hrecords, hclaims⟩, hstep⟩ := restrict_eq_some.mp hstep
  refine hq.step hwritable hrecords hclaims (fun hretry => ?_) hstep
  exact nomatch (State.commitsRetry_of_not_requested hrequested).symm.trans hretry

/-- An execution closes Failed with an activity that has failed for good. -/
theorem State.failedForGood_of_decide (hstep : s.step .decide = some s')
    (hclosed : s'.temporal.closed = .failed :: s.temporal.closed) :
    ∃ t, s.failedForGood t = true := by
  cases State.step_moves hstep with
  | decide hdecides =>
    cases hdecides with
    | schedule => exact absurd hclosed.symm (List.cons_ne_self _ _)
    | complete => exact nomatch (List.cons.inj hclosed).1
    | fail hcurrent hrun =>
      obtain ⟨t, ht⟩ := run_eq_fail hrun
      obtain ⟨task, htask, hstate⟩ := Tasks.result?_eq_error.mp ht
      exact ⟨t, State.failedForGood_iff.mpr ⟨_, task, hcurrent, htask,
        Task.failedForGood_iff.mpr (.inl ⟨_, hstate⟩)⟩⟩

/-- The workflow's own step leaves the rows and the attempts alone. -/
theorem State.decide_pool (hstep : s.step .decide = some s') : s'.pool = s.pool := by
  cases State.step_moves hstep with
  | decide => rfl

/-- An attempt that is over holds no locks. -/
theorem Phase.held_of_not_live {t : JobType} {ph : Phase} (h : ph.live = false) :
    ph.held t = [] := by
  cases ph with
  | countCompleted | commitCompletion => exact nomatch h
  | _ => rfl

/-- A failed video is retried unless another session holds its row. -/
theorem State.retryVideo_of_failed (hstatus : s.status = .failed)
    (hdead : ∀ a ∈ s.pool.attempts, a.phase.live = false) :
    ∃ s', s.step .retryVideo = some s' ∧ s'.requests = s.requests ++ [.returned] := by
  have hblocked : s.pool.blocked s.pool.attempts.length [.video] = false := by
    rw [Pool.blocked, List.eraseIdx_of_length_le le_rfl, List.any_eq_false]
    intro a ha
    simp [Phase.held_of_not_live (hdead a ha)]
  have hrow : s.pool.store.rows.video.status = .failed := hstatus
  have hsome : s.retryVideo.isSome := by
    simp [State.retryVideo, State.retryStep, State.retryBegin, State.rows, hrow, hblocked]
  obtain ⟨s', hs'⟩ := Option.isSome_iff_exists.mp hsome
  refine ⟨s', hs', ?_⟩
  cases State.retryVideo_moves hs' with
  | retryVideo => rfl
  | retryVideoRefused hne => exact absurd hstatus hne

/-- An execution in which the last attempt of every activity has its failure recorded and no claim
comes too late leaves the video failed when it closes Failed, so that a retry of the video is
accepted. -/
theorem closed_failed_retried {videoId : UUID} {filename key : Str} {s₀ s s' : State}
    {ls₀ ls : List Label}
    (hreached : exec State.step (.created videoId filename key) ls₀ = some s₀)
    (hrest : s₀.atRest = true)
    (hrun : exec (restrict State.InTime State.step) s₀ ls = some s)
    (hdecide : s.step .decide = some s')
    (hclosed : s'.temporal.closed = .failed :: s.temporal.closed) :
    s'.status = .failed ∧
      ∃ s'', s'.step .retryVideo = some s'' ∧ s''.requests = s'.requests ++ [.returned] := by
  have hcalm := ((State.exec_faithful hreached).calm hrest).exec hrun
  obtain ⟨t, ht⟩ := State.failedForGood_of_decide hdecide hclosed
  have hpool := State.decide_pool hdecide
  have hstatus : s'.status = .failed := by
    rw [State.status, State.rows, hpool]
    exact (hcalm.failed t ht).1
  have hcalm' :=
    hcalm.step (l := .decide) rfl rfl rfl (fun h => absurd h Bool.false_ne_true) hdecide
  have hcurrent : s'.temporal.current = none := by
    cases State.step_moves hdecide with
    | decide hdecides =>
      cases hdecides with
      | schedule => exact absurd hclosed.symm (List.cons_ne_self _ _)
      | complete | fail => rfl
  refine ⟨hstatus, State.retryVideo_of_failed hstatus fun a ha => ?_⟩
  exact hcalm'.supervised.not_live_of_closed hcurrent ha

/-! ## A claim that comes too late -/

/-- The next attempt of the metadata activity is dispatched, claims the job and fails. -/
def Label.failMetadata (i n : ℕ) : List Label :=
  .dispatch .metadata :: Label.resumes i n ++
    [.resume i .error, .resume i (.ok 0), .report .metadata]

/-- The metadata activity uses up its attempts. -/
def State.metadataFails : List Label := List.flatten [
  [.notify, .receive 0, .start 0 .received, .delete 0 true], Label.failMetadata 0 4,
  Label.failMetadata 1 3, Label.failMetadata 2 3]

/-- The thumbnail is dispatched only then, and completes: the execution closes Failed, the video is
processing, and a retry is refused. -/
theorem closed_failed_processing : ∃ s s' s'', State.clip.atRest = true ∧
    exec (restrict State.Writable State.step) State.clip (State.metadataFails ++
      .dispatch .thumbnail :: Label.resumes 3 11 ++ [.report .thumbnail]) = some s ∧
    s.step .decide = some s' ∧ s'.temporal.closed = .failed :: s.temporal.closed ∧
    s'.status = .processing ∧
    s'.step .retryVideo = some s'' ∧ s''.requests = s'.requests ++ [.notFailed] := by
  have hrun : (exec (restrict State.Writable State.step) State.clip (State.metadataFails ++
      .dispatch .thumbnail :: Label.resumes 3 11 ++ [.report .thumbnail])).any fun s =>
      (s.step .decide).any fun s' => decide (s'.temporal.closed = .failed :: s.temporal.closed ∧
        s'.status = .processing) && (s'.step .retryVideo).any fun s'' =>
          decide (s''.requests = s'.requests ++ [.notFailed]) := by decide +kernel
  obtain ⟨s, hrun, h⟩ := (Option.any_eq_true _ _).mp hrun
  obtain ⟨s', hdecide, h⟩ := (Option.any_eq_true _ _).mp h
  obtain ⟨h, hretry⟩ := Bool.and_eq_true_iff.mp h
  obtain ⟨hclosed, hstatus⟩ := of_decide_eq_true h
  obtain ⟨s'', hretry, hrequests⟩ := (Option.any_eq_true _ _).mp hretry
  exact ⟨s, s', s'', rfl, hrun, hdecide, hclosed, hstatus, hretry, of_decide_eq_true hrequests⟩

/-- A metadata activity none of whose attempts gets to read the video leaves it processing. -/
example : (exec (restrict State.Writable State.step) State.clip (List.flatten [
    [.notify, .receive 0, .start 0 .received, .delete 0 true, .dispatch .thumbnail],
    Label.resumes 0 11, [.report .thumbnail],
    [.dispatch .metadata, .resume 1 .error, .report .metadata],
    [.dispatch .metadata, .resume 2 .error, .report .metadata],
    [.dispatch .metadata, .resume 3 .error, .report .metadata, .decide]])).any fun s =>
      s.temporal.closed = [.failed] ∧ s.status = .processing := by decide +kernel

/-- The thumbnail is dispatched before the last failure. The first metadata attempt does not get to
read the video, the other two fail. -/
def State.failsInTime : List Label := List.flatten [
  [.notify, .receive 0, .start 0 .received, .delete 0 true, .dispatch .thumbnail],
  Label.resumes 0 4, [.dispatch .metadata, .resume 1 .error, .report .metadata],
  Label.failMetadata 2 4, Label.failMetadata 3 3, Label.resumes 0 7, [.report .thumbnail]]

/-- A run in which a read fails before the metadata activity has failed for good. -/
theorem closed_failed_retried_clip : ∃ s s',
    exec (restrict State.InTime State.step) State.clip State.failsInTime = some s ∧
    s.step .decide = some s' ∧ s'.status = .failed ∧
      ∃ s'', s'.step .retryVideo = some s'' ∧ s''.requests = s'.requests ++ [.returned] := by
  have hrun : (exec (restrict State.InTime State.step) State.clip State.failsInTime).any fun s =>
      (s.step .decide).any fun s' =>
        decide (s'.temporal.closed = .failed :: s.temporal.closed) := by decide +kernel
  obtain ⟨s, hrun, h⟩ := (Option.any_eq_true _ _).mp hrun
  obtain ⟨s', hdecide, hclosed⟩ := (Option.any_eq_true _ _).mp h
  exact ⟨s, s', hrun, hdecide,
    closed_failed_retried (exec_nil State.step State.clip) rfl hrun hdecide
      (of_decide_eq_true hclosed)⟩

end VideoProcessing
