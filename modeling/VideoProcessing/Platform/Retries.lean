import VideoProcessing.Platform.Closing
import VideoProcessing.Platform.History

/-!
# Retries that are not lost

While nothing is disturbed, no claim comes too late and no retry is accepted between the last
failure of an activity and the closing of its execution, a video that is processing without an open
execution has a message on the queue that will start one. A retry in that window can be lost: the
shim finds the execution still open and deletes the message.

What is lost is a message, so the invariant is about the queue: while the video is processing
without an execution, some message is still there whose next delivery will start one.
-/

namespace VideoProcessing

open Python UnitOfWork Transitions

/-- No retry is accepted once an activity of the open execution has failed for good. -/
def State.retriesInTime (s : State) (l : Label) : Bool :=
  !s.commitsRetry l || JobType.members.all fun t => !s.failedForGood t

/-- The steps at which nothing is disturbed and no claim comes too late, with requests to retry
taken as one step. -/
abbrev State.ClaimsTimely (s : State) (l : Label) : Prop :=
  s.undisturbed l = true ∧ l.atomic = true ∧ s.claimsInTime l = true

/-- Those among them at which no retry comes too late. -/
abbrev State.Timely (s : State) (l : Label) : Prop :=
  s.ClaimsTimely l ∧ s.retriesInTime l = true

/-- A retry that was accepted and that nothing will carry out. -/
structure State.Lost (s : State) (r : ℕ) : Prop where
  returned : s.requests[r]? = some .returned
  deleted : ⟨.retry r, some .alreadyStarted⟩ ∈ s.messages
  current : s.temporal.current = none
  empty : ∀ message ∈ s.messages, message.deleted ≠ none
  status : s.status = .processing

/-- The message is on the queue and no delivery of it is about to delete it. -/
structure State.Waiting (s : State) (m : ℕ) : Prop where
  queued : s.messages[m]?.map Message.deleted = some none
  kept : ∀ d ∈ s.deliveries, d.message = m → ∀ outcome, d.phase ≠ .deleting outcome

/-- No handler has found its transaction failed. -/
def Attempt.Unbroken (_ : VideoRows) (a : Attempt) : Prop :=
  ∀ f error, a.phase = .failJob f error → f.tx ≠ .broken

structure State.Driven (s : State) : Prop where
  calm : s.Calm
  unbroken : s.pool.Each Attempt.Unbroken
  ordered : s.Ordered Readings.any
  delivered : ∀ d ∈ s.deliveries, d.message < s.messages.length
  ended : ∀ status ∈ s.temporal.closed, status = .completed ∨ status = .failed
  driven : s.temporal.current = none → s.status = .processing →
    (∀ status ∈ s.temporal.closed, status = .failed) ∧ ∃ m, s.Waiting m

variable {s s' : State} {l : Label} {m : ℕ}

/-! ## Waiting messages -/

/-- More messages, and other deliveries that delete nothing. -/
theorem State.Waiting.mono (h : s.Waiting m) {messages : List Message} {deliveries : List Delivery}
    (hmessages : s.messages[m]?.map Message.deleted = some none →
      messages[m]?.map Message.deleted = some none)
    (hdeliveries : ∀ d ∈ deliveries, d ∈ s.deliveries ∨ ∀ outcome, d.phase ≠ .deleting outcome) :
    State.Waiting { s with messages := messages, deliveries := deliveries } m where
  queued := hmessages h.queued
  kept := fun d hd hm outcome =>
    (hdeliveries d hd).elim (fun hd => h.kept d hd hm outcome) fun hphase => hphase outcome

/-- A message is where it was. -/
theorem map_deleted_append {messages : List Message} {message : Message}
    (h : messages[m]?.map Message.deleted = some none) :
    (messages ++ [message])[m]?.map Message.deleted = some none := by
  obtain ⟨b, hb, hdeleted⟩ := Option.map_eq_some_iff.mp h
  rw [List.getElem?_append_left (List.getElem?_eq_some_iff.mp hb).1, hb, Option.map_some, hdeleted]

/-- A delivery that is over deletes nothing. -/
theorem mem_set_over {deliveries : List Delivery} {d : ℕ} {delivery : Delivery}
    (h : delivery ∈ deliveries.set d ⟨m, .over⟩) :
    delivery ∈ deliveries ∨ ∀ outcome, delivery.phase ≠ .deleting outcome := by
  rcases List.mem_or_eq_of_mem_set h with h | rfl
  · exact .inl h
  · exact .inr nofun

/-- A start is refused only while an execution is open or once one has completed. -/
theorem Temporal.startWorkflow_ne_none {tp : Temporal} (hcurrent : tp.current = none)
    (hclosed : ∀ status ∈ tp.closed, status = .failed) : tp.startWorkflow ≠ none := by
  intro h
  rcases Temporal.startWorkflow_eq_none.mp h with hopen | ⟨status, hhead, hne⟩
  · exact hopen hcurrent
  · exact hne (hclosed status (List.mem_of_head? hhead))

/-! ## The steps -/

/-- Only the commits of requests can come too late. -/
theorem State.retriesInTime_iff : s.retriesInTime l = true ↔
    (s.commitsRetry l = true → ∀ t, s.failedForGood t ≠ true) := by
  have hall : (JobType.members.all fun t => !s.failedForGood t) = true ↔
      ∀ t, s.failedForGood t ≠ true := by
    rw [List.all_eq_true]
    refine ⟨fun h t => ?_, fun h t _ => ?_⟩
    · simpa using h t t.mem_members
    · simpa using h t
  rw [State.retriesInTime, Bool.or_eq_true, hall]
  cases s.commitsRetry l <;> simp

/-- A handler that was not sent there by a statement of its transaction finds it whole. -/
theorem Resumes.unbroken {videoId : UUID} {act : Activity} {st st' : Store} {ph ph' : Phase}
    {ans : Answer} (h : Resumes videoId act st ph ans st' ph')
    (hworking : ans = .error → ph.working = true) : Attempt.Unbroken st'.rows ⟨act, ph'⟩ := by
  rintro f error rfl
  -- by cases on the step; the phases that lead to no failure are excluded one by one
  generalize hph' : Phase.failJob f error = ph' at h
  cases h with
  | selectCompleted =>
    cases act with
    | extractMetadata =>
      simp only [alreadyCompleted] at hph'
      split at hph' <;> cases hph'
    | generateThumbnail | transcode => cases hph'
  | commitClaim =>
    cases act with
    | extractMetadata | generateThumbnail => cases hph'
    | transcode sourceHeight =>
      simp only [claimed] at hph'
      split at hph'
      · cases hph'
        simp [Frame.failJob, Frame.committed]
      · cases hph'
  | call _ _ hwork | probe hwork | upload hwork =>
    subst hph'
    exact absurd (working_underway hwork) Bool.false_ne_true
  | workFails | noConnection =>
    cases hph'
    intro hbroken
    cases hbroken
  | @selectAsset _ _ _ _ todo => cases todo <;> cases hph'
  | @completionFails ph g hph =>
    -- only a call of the work may raise here
    have hwork := hworking rfl
    cases ph with
    | work => cases hph
    | _ => cases hwork
  | _ => cases hph'

/-- An undisturbed step breaks no transaction. -/
theorem State.unbroken_step (h : s.pool.Each Attempt.Unbroken)
    (hundisturbed : s.undisturbed l = true) (hstep : s.step l = some s') :
    s'.pool.Each Attempt.Unbroken := by
  cases State.step_moves hstep with
  | @resume i ans pool hpool =>
    refine h.resume hpool (fun a st ph ha _ hres => hres.unbroken fun hans => ?_)
      fun _ _ _ _ _ _ _ _ _ hb => hb
    subst hans
    simpa [State.undisturbed, ha] using hundisturbed
  | vanish | timeOut => exact absurd hundisturbed Bool.false_ne_true
  | dispatch =>
    refine h.begin fun f error hph => ?_
    cases hph
  | retryCommit | retryVideo => exact fun _ _ ha => h _ _ ha
  | _ => exact h

/-- Where nothing is disturbed no exception goes unrecorded. -/
theorem State.recordsFailure_of_undisturbed (hundisturbed : s.undisturbed l = true)
    (h : s.pool.Each Attempt.Unbroken) : s.recordsFailure l = true := by
  cases l with
  | resume i ans =>
    rw [State.recordsFailure]
    cases ha : s.pool.attempts[i]? with
    | none => rfl
    | some a =>
      have hunbroken := h i a ha
      obtain ⟨act, ph⟩ := a
      -- an undisturbed error is one of the work, which the handler records
      have hrecorded : ph.unrecorded ans = false := by
        cases ans with
        | ok now =>
          cases ph with
          | failJob f error => exact decide_eq_false (hunbroken f error rfl)
          | _ => rfl
        | error =>
          have hworking : ph.working = true := by simpa [State.undisturbed, ha] using hundisturbed
          cases ph <;> first | rfl | cases hworking
        | probed m now => cases ph <;> rfl
        | noConnection => exact absurd hundisturbed Bool.false_ne_true
      simp only [Option.all_some, hrecorded, Bool.not_false, Bool.true_or]
  | _ => rfl

/-- While nothing outlives its execution, attempts of one activity follow one another. -/
theorem State.Calm.sequential (h : s.Calm) (hstep : s.step l = some s') :
    s.sequential l = true := by
  cases State.step_moves hstep with
  | dispatch hcurrent htask hstate => exact h.idle hcurrent htask hstate
  | _ => rfl

/-- A video that has been failed since its last execution closed has no completed one. -/
theorem State.Driven.failed_of_status (h : s.Driven) (hstatus : s.status = .failed) :
    ∀ status ∈ s.temporal.closed, status = .failed := by
  intro status hmem
  refine (h.ended status hmem).resolve_left ?_
  rintro rfl
  have hcompleted := (h.ordered.pool.rows.transcoded (h.ordered.closed hmem)).2.2
  exact nomatch hstatus.symm.trans hcompleted

/-- A video goes on waiting where its message is kept and no other delivery deletes it. -/
theorem State.Driven.still (h : s.Driven) (hcurrent : s.temporal.current = none)
    (hstatus : s.status = .processing) {messages : List Message} {deliveries : List Delivery}
    (hmessages : ∀ m, s.Waiting m → messages[m]?.map Message.deleted = some none)
    (hdeliveries : ∀ d ∈ deliveries, d ∈ s.deliveries ∨ ∀ outcome, d.phase ≠ .deleting outcome) :
    (∀ status ∈ s.temporal.closed, status = .failed) ∧
      ∃ m, State.Waiting { s with messages := messages, deliveries := deliveries } m := by
  obtain ⟨hclosed, m, hm⟩ := h.driven hcurrent hstatus
  exact ⟨hclosed, m, hm.mono (fun _ => hmessages m hm) hdeliveries⟩

/-- A timely step leaves no video without a driver. -/
theorem State.Driven.step (h : s.Driven) (hl : s.Timely l) (hstep : s.step l = some s') :
    s'.Driven := by
  obtain ⟨⟨hundisturbed, hatomic, hclaims⟩, hretries⟩ := hl
  have hcalm := h.calm.step (State.writable_of_undisturbed hundisturbed)
    (State.recordsFailure_of_undisturbed hundisturbed h.unbroken) hclaims
    (State.retriesInTime_iff.mp hretries) hstep
  have hunbroken := State.unbroken_step h.unbroken hundisturbed hstep
  have hordered := h.ordered.step (Readings.any_reports l) (h.calm.sequential hstep)
    (State.spares_of_atomic hatomic) hstep
  have happend {d : Delivery} {message : Message} (hd : d ∈ s.deliveries) :
      d.message < (s.messages ++ [message]).length := by
    rw [List.length_append]
    exact Nat.lt_add_right _ (h.delivered d hd)
  have hset {d i : ℕ} {before : DeliveryPhase} (hd : s.deliveries[d]? = some ⟨i, before⟩)
      {phase : DeliveryPhase} {delivery : Delivery}
      (hmem : delivery ∈ s.deliveries.set d ⟨i, phase⟩) :
      delivery.message < s.messages.length := by
    rcases List.mem_or_eq_of_mem_set hmem with hmem | rfl
    · exact h.delivered _ hmem
    · exact h.delivered ⟨i, before⟩ (List.mem_of_getElem? hd)
  cases State.step_moves hstep with
  | resume hpool =>
    refine ⟨hcalm, hunbroken, hordered, h.delivered, h.ended, fun hcurrent _ => ?_⟩
    obtain ⟨a, st, ph, ha, hres, rfl⟩ := Pool.resume_eq_some hpool
    -- no attempt runs while no execution is open
    have hdead := h.calm.supervised.not_live_of_closed hcurrent (List.mem_of_getElem? ha)
    exact nomatch hdead.symm.trans hres.live
  | vanish | timeOut => exact absurd hundisturbed Bool.false_ne_true
  | dispatch | reportReturned | reportRaised =>
    exact ⟨hcalm, hunbroken, hordered, h.delivered, h.ended, nofun⟩
  | decide hdecides =>
    cases hdecides with
    | schedule => exact ⟨hcalm, hunbroken, hordered, h.delivered, h.ended, nofun⟩
    | complete =>
      refine ⟨hcalm, hunbroken, hordered, h.delivered, ?_, fun _ hstatus => ?_⟩
      · intro status hmem
        exact (List.mem_cons.mp hmem).elim .inl (h.ended status)
      · have hcompleted := hordered.pool.rows.transcoded (hordered.closed List.mem_cons_self)
        exact nomatch hstatus.symm.trans hcompleted.2.2
    | fail =>
      refine ⟨hcalm, hunbroken, hordered, h.delivered, ?_, fun _ hstatus => ?_⟩
      · intro status hmem
        exact (List.mem_cons.mp hmem).elim .inr (h.ended status)
      · obtain ⟨t, ht⟩ := State.failedForGood_of_decide hstep rfl
        exact nomatch hstatus.symm.trans (h.calm.failed t ht).1
  | start hd hstart =>
    obtain ⟨-, -, rfl⟩ := Temporal.startWorkflow_eq_some.mp hstart
    exact ⟨hcalm, hunbroken, hordered, fun _ => hset hd, h.ended, nofun⟩
  | refuse hd hphase =>
    refine ⟨hcalm, hunbroken, hordered, fun _ => hset hd, h.ended, fun hcurrent hstatus => ?_⟩
    rcases hphase with rfl | ⟨-, hrefused⟩
    · exact h.still hcurrent hstatus (fun _ hm => hm.queued) fun _ => mem_set_over
    · have hclosed := (h.driven hcurrent hstatus).1
      exact absurd hrefused (Temporal.startWorkflow_ne_none hcurrent hclosed)
  | @delete d i outcome hd =>
    refine ⟨hcalm, hunbroken, hordered, fun _ hmem => ?_, h.ended, fun hcurrent hstatus => ?_⟩
    · rw [List.length_modify]
      exact hset hd hmem
    · refine h.still hcurrent hstatus (fun m hm => ?_) fun _ => mem_set_over
      -- the waiting message is not the one a delivery is about to delete
      have hne : i ≠ m := fun heq => hm.kept _ (List.mem_of_getElem? hd) heq outcome rfl
      rw [List.getElem?_modify_ne _ _ hne]
      exact hm.queued
  | deleteFails hd =>
    exact ⟨hcalm, hunbroken, hordered, fun _ => hset hd, h.ended, fun hcurrent hstatus =>
      h.still hcurrent hstatus (fun _ hm => hm.queued) fun _ => mem_set_over⟩
  | notify =>
    exact ⟨hcalm, hunbroken, hordered, fun _ => happend, h.ended, fun hcurrent hstatus =>
      h.still hcurrent hstatus (fun _ hm => map_deleted_append hm.queued) fun _ => .inl⟩
  | receive hm =>
    refine ⟨hcalm, hunbroken, hordered, fun d hd => ?_, h.ended, fun hcurrent hstatus => ?_⟩
    · rcases List.mem_append.mp hd with hd | hd
      · exact h.delivered d hd
      · obtain rfl := List.mem_singleton.mp hd
        exact (List.getElem?_eq_some_iff.mp hm).1
    · refine h.still hcurrent hstatus (fun _ hm => hm.queued) fun d hd => ?_
      rcases List.mem_append.mp hd with hd | hd
      · exact .inl hd
      · obtain rfl := List.mem_singleton.mp hd
        exact .inr nofun
  | retryVideo hstatus =>
    refine ⟨hcalm, hunbroken, hordered, fun _ => happend, h.ended, fun _ _ => ?_⟩
    -- the message of this request is the one that waits
    refine ⟨h.failed_of_status hstatus, s.messages.length, ?_, fun d hd hm => ?_⟩
    · simp
    · exact absurd hm (h.delivered d hd).ne
  | retryVideoRefused =>
    refine ⟨hcalm, hunbroken, hordered, h.delivered, h.ended, fun hcurrent hstatus => ?_⟩
    obtain ⟨hclosed, m, hm⟩ := h.driven hcurrent hstatus
    exact ⟨hclosed, m, hm.queued, hm.kept⟩
  | retryBegin | retryRead | retryRefused | retrySend | retryCommit | retryRaises =>
    exact absurd hatomic Bool.false_ne_true

/-- A new video is not processing. -/
theorem State.driven_created (videoId : UUID) (filename key : Str) :
    (State.created videoId filename key).Driven where
  calm := (State.faithful_created Readings.any videoId filename key).calm rfl
  unbroken := fun _ _ ha => nomatch ha
  ordered := State.ordered_created Readings.any videoId filename key
  delivered := fun _ hd => nomatch hd
  ended := fun _ hmem => nomatch hmem
  driven := fun _ hstatus => nomatch hstatus

/-! ## Runs -/

/-- A message that waits is not deleted. -/
theorem State.Driven.not_lost (h : s.Driven) (r : ℕ) : ¬ s.Lost r := by
  intro hlost
  obtain ⟨-, m, hm⟩ := h.driven hlost.current hlost.status
  obtain ⟨message, hmessage, hdeleted⟩ := Option.map_eq_some_iff.mp hm.queued
  exact hlost.empty message (List.mem_of_getElem? hmessage) hdeleted

/-- In a run in which nothing is disturbed and no claim or retry comes too late, no accepted retry
is lost. -/
theorem retry_not_lost {videoId : UUID} {filename key : Str} {s : State} {ls : List Label}
    (hrun : exec (restrict State.Timely State.step) (.created videoId filename key) ls = some s)
    (r : ℕ) : ¬ s.Lost r := by
  refine (exec_invariant (fun q l q' hq hstep => ?_)
    (State.driven_created videoId filename key) hrun).not_lost r
  obtain ⟨hl, hstep⟩ := restrict_eq_some.mp hstep
  exact hq.step hl hstep

/-- The metadata activity fails for good while the thumbnail is being made, and a retry is accepted
then: its message finds the execution open and is deleted, the thumbnail completes, and the
execution closes Failed. -/
def State.retriedTooSoon : List Label := List.flatten [
  [.notify, .receive 0, .start 0 .received, .delete 0 true, .dispatch .thumbnail],
  Label.resumes 0 4, Label.failMetadata 1 4, Label.failMetadata 2 3, Label.failMetadata 3 3,
  [.retryVideo, .receive 1, .start 1 .received, .delete 1 true],
  Label.resumes 0 7, [.report .thumbnail, .decide]]

/-- A retry that is accepted between the last failure and the closing is lost. -/
theorem retry_lost : ∃ s, exec (restrict State.ClaimsTimely State.step) State.clip
    State.retriedTooSoon = some s ∧ s.Lost 0 := by
  have hrun : (exec (restrict State.ClaimsTimely State.step) State.clip
      State.retriedTooSoon).any fun s => s.temporal.current.isNone && decide
        (s.requests[0]? = some .returned ∧ ⟨.retry 0, some .alreadyStarted⟩ ∈ s.messages ∧
          (∀ message ∈ s.messages, message.deleted ≠ none) ∧ s.status = .processing) := by
    decide +kernel
  obtain ⟨s, hrun, h⟩ := (Option.any_eq_true _ _).mp hrun
  obtain ⟨hcurrent, h⟩ := Bool.and_eq_true_iff.mp h
  obtain ⟨hreturned, hdeleted, hempty, hstatus⟩ := of_decide_eq_true h
  exact ⟨s, hrun, hreturned, hdeleted, Option.isNone_iff_eq_none.mp hcurrent, hempty, hstatus⟩

/-- Once the execution has closed, a retry has its failed activity run again. -/
theorem retry_not_lost_clip : ∃ s,
    exec (restrict State.Timely State.step) State.clip (List.flatten [
      [.notify, .receive 0, .start 0 .received, .delete 0 true, .dispatch .thumbnail],
      Label.resumes 0 4, Label.failMetadata 1 4, Label.failMetadata 2 3, Label.failMetadata 3 3,
      Label.resumes 0 7, [.report .thumbnail, .decide, .retryVideo, .receive 1, .start 1 .received,
        .delete 1 true]]) = some s ∧ s.requests[0]? = some .returned ∧ ¬ s.Lost 0 := by
  have hrun : (exec (restrict State.Timely State.step) State.clip (List.flatten [
      [.notify, .receive 0, .start 0 .received, .delete 0 true, .dispatch .thumbnail],
      Label.resumes 0 4, Label.failMetadata 1 4, Label.failMetadata 2 3, Label.failMetadata 3 3,
      Label.resumes 0 7, [.report .thumbnail, .decide, .retryVideo, .receive 1, .start 1 .received,
        .delete 1 true]])).any fun s => decide (s.requests[0]? = some .returned) := by
    decide +kernel
  obtain ⟨s, hrun, hreturned⟩ := (Option.any_eq_true _ _).mp hrun
  exact ⟨s, hrun, of_decide_eq_true hreturned, retry_not_lost hrun 0⟩

end VideoProcessing
