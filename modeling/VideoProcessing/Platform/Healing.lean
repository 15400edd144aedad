import VideoProcessing.Platform.History
import VideoProcessing.Platform.Progress
import VideoProcessing.Worker.Succeeding

/-!
# A failed video heals

Whatever the executions before it went through and left behind, an execution that begins when none
of their attempts is alive, and in which nothing fails any more, completes the video: none of its
steps leads to a dead end, and there are only so many of them. The original has to be one the
platform can take: with a height above zero, and with a duration, a width and a height that fit the
integer columns; and the `attempts` columns need room for one more claim.
-/

namespace VideoProcessing

open Python UnitOfWork Transitions

/-- A step of an execution at which nothing fails. -/
def Label.healthy (M : VideoMetadata) : Label → Bool
  | .resume _ ans => ans.healthy M
  | .dispatch _ | .report _ | .decide => true
  | _ => false

abbrev State.Healthy (M : VideoMetadata) (_ : State) (l : Label) : Prop := l.healthy M = true

/-! ## The invariant -/

/-- Where an activity stands in an execution in which nothing has failed: it still has its claim
before it, or an attempt at which nothing has gone wrong, or it has succeeded. -/
def Pool.Thrives (p : Pool) (t : JobType) : Option Task → Prop
  | none => p.rows.Room t
  | some task =>
    match task.state with
    | .waiting _ => p.rows.Room t
    | .running _ i => ∃ a, p.attempts[i]? = some a ∧ a.Succeeding p.videoId p.rows
    | .succeeded _ => True
    | .failed _ => False

structure State.Heals (M : VideoMetadata) (s : State) : Prop where
  calm : s.Calm
  ordered : s.Ordered (Readings.of M)
  paid : s.Paid
  thrives : ∀ tasks, s.temporal.current = some tasks → ∀ t, s.pool.Thrives t (tasks t)

variable {M : VideoMetadata} {s s' : State} {l : Label} {tasks : Tasks} {task : Task} {t : JobType}
  {p p' : Pool} {a b : Attempt} {i j : ℕ} {ans : Answer}

/-- Nothing has failed. -/
theorem State.Heals.not_failedForGood (h : s.Heals M) (t : JobType) :
    s.failedForGood t ≠ true := by
  intro hfailed
  obtain ⟨tasks, task, hcurrent, htask, hlost⟩ := State.failedForGood_iff.mp hfailed
  have hthrives := h.thrives tasks hcurrent t
  rw [htask] at hthrives
  rcases Task.failedForGood_iff.mp hlost with
    ⟨error, hstate⟩ | ⟨failures, i, a, error, hstate, ha, hphase, -⟩
  · simp only [Pool.Thrives, hstate] at hthrives
  · simp only [Pool.Thrives, hstate] at hthrives
    obtain ⟨b, hb, hsucceeding⟩ := hthrives
    obtain rfl := Option.some.inj (ha.symm.trans hb)
    rw [Attempt.Succeeding, hphase] at hsucceeding
    exact hsucceeding

/-- A live attempt is the one its activity is under way as, so nothing has gone wrong at it. -/
theorem State.Heals.supervised (h : s.Heals M) (ha : s.pool.attempts[i]? = some a)
    (hlive : a.phase.live = true) :
    ∃ tasks task failures, s.temporal.current = some tasks ∧
      tasks a.activity.jobType = some task ∧ task.state = .running failures i ∧
      a.Succeeding s.pool.videoId s.rows := by
  obtain ⟨tasks, task, failures, hcurrent, htask, hstate⟩ := h.calm.supervised i a ha hlive
  have hthrives := h.thrives tasks hcurrent a.activity.jobType
  simp only [htask, Pool.Thrives, hstate] at hthrives
  obtain ⟨b, hb, hsucceeding⟩ := hthrives
  obtain rfl := Option.some.inj (ha.symm.trans hb)
  exact ⟨tasks, task, failures, hcurrent, htask, hstate, hsucceeding⟩

/-! ## The steps keep it -/

/-- What is left of an activity that another one's steps do not concern. -/
theorem Pool.Thrives.mono {task : Option Task} (h : p.Thrives t task)
    (hroom : p.rows.Room t → p'.rows.Room t)
    (hattempt : ∀ failures i a, (∃ x, task = some x ∧ x.state = .running failures i) →
      p.attempts[i]? = some a → a.Succeeding p.videoId p.rows →
      ∃ b, p'.attempts[i]? = some b ∧ b.Succeeding p'.videoId p'.rows) : p'.Thrives t task := by
  cases task with
  | none => exact hroom h
  | some task =>
    cases hstate : task.state with
    | waiting failures =>
      simp only [Pool.Thrives, hstate] at h ⊢
      exact hroom h
    | running failures i =>
      simp only [Pool.Thrives, hstate] at h ⊢
      obtain ⟨a, ha, hsucceeding⟩ := h
      exact hattempt failures i a ⟨task, rfl, hstate⟩ ha hsucceeding
    | succeeded result => simp only [Pool.Thrives, hstate]
    | failed error => simp only [Pool.Thrives, hstate] at h

/-- One activity changes, the others thrive as before. -/
theorem Pool.thrives_update (hall : ∀ t', t' ≠ t → p.Thrives t' (tasks t'))
    (h : p.Thrives t (some task)) (t' : JobType) :
    p.Thrives t' (Function.update tasks t (some task) t') := by
  by_cases heq : t' = t
  · subst heq
    rwa [Function.update_self]
  · rw [Function.update_of_ne heq]
    exact hall t' heq

/-- A healthy step asks the database for nothing it refuses. -/
theorem Label.healthy_writable (h : l.healthy M = true) : s.writable l = true := by
  cases l with
  | resume i ans =>
    cases ans with
    | ok | probed => rfl
    | error | noConnection => exact absurd h Bool.false_ne_true
  | dispatch | report | decide => rfl
  | _ => exact absurd h Bool.false_ne_true

/-- At a healthy step ffprobe reports the original. -/
theorem Label.healthy_probes (h : l.healthy M = true) : l.probes M = true := by
  cases l with
  | resume i ans =>
    cases ans with
    | probed => exact h
    | _ => rfl
  | _ => rfl

/-- And the execution gets on. -/
theorem Label.healthy_drives (h : l.healthy M = true) : s.drives l = true := by
  cases l with
  | resume | dispatch | report | decide => rfl
  | _ => exact absurd h Bool.false_ne_true

/-- Where nothing has failed no exception goes unrecorded. -/
theorem State.Heals.recordsFailure (h : s.Heals M) (hl : l.healthy M = true) :
    s.recordsFailure l = true := by
  cases l with
  | resume i ans =>
    rw [State.recordsFailure]
    cases ha : s.pool.attempts[i]? with
    | none => rfl
    | some a =>
      obtain ⟨act, ph⟩ := a
      have hrecorded : ph.unrecorded ans = false := by
        cases ans with
        | ok now =>
          cases ph with
          | failJob f error =>
            obtain ⟨_, _, _, -, -, -, hsucceeding⟩ := h.supervised ha rfl
            exact hsucceeding.elim
          | _ => rfl
        | probed m now => cases ph <;> rfl
        | error | noConnection => exact absurd hl Bool.false_ne_true
      simp only [Option.all_some, hrecorded, Bool.not_false, Bool.true_or]
  | _ => rfl

/-- No claim comes too late where nothing has failed. -/
theorem State.Heals.claimsInTime (h : s.Heals M) (l : Label) : s.claimsInTime l = true := by
  have hall : (JobType.members.all fun t => !s.failedForGood t) = true :=
    List.all_eq_true.mpr fun t _ => by simp [h.not_failedForGood t]
  cases l with
  | resume i ans =>
    cases ans with
    | ok now =>
      rw [State.claimsInTime]
      cases s.pool.attempts[i]? with
      | none => rfl
      | some a =>
        rw [Option.all_some]
        cases a.phase with
        | commitClaim f => simp only [hall, Bool.or_true]
        | _ => rfl
    | _ => rfl
  | _ => rfl

/-- The room is that of the job's row. -/
theorem VideoRows.Room.of_jobs {rows rows' : VideoRows} (h : rows.Room t)
    (hjobs : rows'.jobs t = rows.jobs t) : rows'.Room t := by
  rwa [VideoRows.Room, VideoRows.attempts, hjobs]

/-- The attempt of one activity goes on, and the others stay where they are. -/
theorem State.Heals.resume (h : s.Heals M) (hheight : 0 < M.height) {pool : Pool}
    (hpool : s.pool.resume i ans = some pool) (hans : ans.healthy M = true)
    (hcurrent : s.temporal.current = some tasks) (t : JobType) : pool.Thrives t (tasks t) := by
  obtain ⟨a, st, ph, ha, hres, rfl⟩ := Pool.resume_eq_some hpool
  obtain ⟨tasks', task, failures, hcurrent', htask, hstate, hsucceeding⟩ :=
    h.supervised ha hres.live
  obtain rfl := Option.some.inj (hcurrent.symm.trans hcurrent')
  obtain ⟨hshaped, -⟩ := h.calm.alone.sound i a ha
  have hfaithful := h.ordered.faithful.pool.attempts i a ha
  -- a source height is the one that was probed
  have huse : a.activity.Usable := by
    have hsuits := hfaithful.suits
    cases hact : a.activity with
    | extractMetadata | generateThumbnail => trivial
    | transcode sourceHeight =>
      rw [hact] at hsuits
      obtain rfl : sourceHeight = M.height := hsuits
      exact hheight
  -- the attempt's own task goes on; a sibling's sees neither its job nor its assets change
  by_cases ht : t = a.activity.jobType
  · subst ht
    rw [htask]
    simp only [Pool.Thrives, hstate]
    refine ⟨_, getElem?_set_self_of ha, ?_⟩
    refine hres.succeeding hans hshaped (h.calm.alone.unfinished i a ha) huse ?_ hsucceeding
    intro video hph hact hcompleted c
    have hcalm := h.calm.calm i a ha
    rw [Attempt.Calm, hph] at hcalm
    exact hcalm hact hcompleted c
  · have hjobs : st.rows.jobs t = s.pool.store.rows.jobs t := hres.jobs_of_ne ht
    refine (h.thrives tasks hcurrent t).mono (fun hroom => hroom.of_jobs hjobs) ?_
    rintro failures' j b ⟨task', htask', hstate'⟩ hb hb'
    have hjob := h.calm.faithful.attempt_jobType hcurrent htask' hstate' hb
    have hne : a.activity.jobType ≠ b.activity.jobType := by
      rw [hjob]
      exact Ne.symm ht
    have hj : j ≠ i := by
      rintro rfl
      obtain rfl := Option.some.inj (ha.symm.trans hb)
      exact ht hjob.symm
    refine ⟨b, by rw [← hb]; exact List.getElem?_set_ne (Ne.symm hj), ?_⟩
    refine hb'.mono (h.calm.alone.sound j b hb).shaped ?_ fun x hx => ?_
    · rw [hjob]
      exact hjobs
    · exact (hres.rowChange hshaped).assets_of_not_mem hfaithful.phase
        (uploads_disjoint hne.symm hx)

/-- A healthy step keeps everything well. -/
theorem State.Heals.step (h : s.Heals M) (hheight : 0 < M.height) (hl : l.healthy M = true)
    (hstep : s.step l = some s') : s'.Heals M := by
  have hcalm : s'.Calm := by
    refine h.calm.step (Label.healthy_writable hl) (h.recordsFailure hl) (h.claimsInTime l) ?_ hstep
    exact fun _ => h.not_failedForGood
  have hseq : s.sequential l = true := by
    cases State.step_moves hstep with
    | dispatch hcurrent htask hstate => exact h.calm.idle hcurrent htask hstate
    | _ => rfl
  have hspares : s.spares l = true := by
    cases l with
    | retryStep => exact absurd hl Bool.false_ne_true
    | _ => rfl
  have hordered := h.ordered.step (Label.Probes.reports (s := s) (Label.healthy_probes hl)) hseq
    hspares hstep
  refine ⟨hcalm, hordered, h.paid.step hstep, ?_⟩
  cases State.step_moves hstep with
  | resume hpool => exact fun tasks hcurrent => h.resume hheight hpool hl hcurrent
  | @dispatch t tasks task failures hcurrent htask hstate =>
    rintro tasks' htasks'
    obtain rfl := Option.some.inj htasks'
    have hbefore := h.thrives tasks hcurrent
    refine Pool.thrives_update (fun t' _ => (hbefore t').mono id ?_) ?_
    · rintro failures' i a - ha hsucceeding
      refine ⟨a, ?_, hsucceeding⟩
      obtain ⟨hi, -⟩ := List.getElem?_eq_some_iff.mp ha
      rw [Pool.begin, List.getElem?_append_left hi, ha]
    · have hroom := hbefore t
      simp only [htask, Pool.Thrives, hstate] at hroom
      refine ⟨⟨task.activity, .loadVideo⟩, by simp [Pool.begin], ?_⟩
      rw [Attempt.Succeeding, ((h.calm.faithful.tasks tasks hcurrent).activity t task htask).1]
      exact hroom
  | @reportReturned t tasks task failures i a result hcurrent htask hstate ha hphase =>
    rintro tasks' htasks'
    obtain rfl := Option.some.inj htasks'
    exact Pool.thrives_update (fun t' _ => h.thrives tasks hcurrent t') trivial
  | @reportRaised t tasks task failures i a error hcurrent htask hstate ha hphase =>
    have hthrives := h.thrives tasks hcurrent t
    simp only [htask, Pool.Thrives, hstate] at hthrives
    obtain ⟨b, hb, hsucceeding⟩ := hthrives
    obtain rfl := Option.some.inj (ha.symm.trans hb)
    rw [Attempt.Succeeding, hphase] at hsucceeding
    exact hsucceeding.elim
  | decide hdecides =>
    rintro tasks' htasks'
    cases hdecides with
    | @schedule tasks sourceHeight hcurrent hrun =>
      obtain ⟨-, -, -, -, hnone, -⟩ := run_eq_executeTranscode hrun
      obtain rfl := Option.some.inj htasks'
      have hroom := h.thrives tasks hcurrent .transcode
      rw [hnone] at hroom
      exact Pool.thrives_update (fun t' _ => h.thrives tasks hcurrent t') hroom
    | complete | fail => cases htasks'
  | _ => exact absurd hl Bool.false_ne_true

/-! ## There is always a next step -/

/-- A statement that needs no lock is not blocked. -/
theorem Pool.not_blocked_nil (p : Pool) (i : ℕ) : p.blocked i [] = false := by
  refine List.any_eq_false.mpr fun b _ hany => ?_
  obtain ⟨lock, -, hlock⟩ := List.any_eq_true.mp hany
  exact Bool.false_ne_true hlock

/-- An attempt that holds locks is alive. -/
theorem Phase.live_of_holds {ph : Phase} (h : ph.holds = true) : ph.live = true := by
  cases ph with
  | countCompleted | commitCompletion => rfl
  | _ => exact absurd h Bool.false_ne_true

/-- Once the transcode is under way the other attempts are over. -/
theorem State.Heals.eq_of_transcode (h : s.Heals M) (ha : s.pool.attempts[i]? = some a)
    (hlive : a.phase.live = true) (htranscode : a.activity.jobType = .transcode)
    (hb : s.pool.attempts[j]? = some b) (hblive : b.phase.live = true) : j = i := by
  obtain ⟨tasks, task, failures, hcurrent, htask, hstate⟩ := h.calm.supervised i a ha hlive
  obtain ⟨tasks', task', failures', hcurrent', htask', hstate'⟩ :=
    h.calm.supervised j b hb hblive
  obtain rfl := Option.some.inj (hcurrent.symm.trans hcurrent')
  by_cases hjob : b.activity.jobType = .transcode
  · exact h.calm.alone.one hb ha hblive hlive (hjob.trans htranscode.symm)
  · rw [htranscode] at htask
    have hsome : tasks .transcode ≠ none := by
      rw [htask]
      exact Option.some_ne_none task
    obtain ⟨result, hresult⟩ := h.calm.sequenced tasks hcurrent hsome _ hjob
    cases hresult.symm.trans (Tasks.result?_of_running htask' hstate')

/-- An attempt between its flush and its commit waits for no other. -/
theorem State.Heals.holder_not_blocked (h : s.Heals M) (ha : s.pool.attempts[i]? = some a)
    (hholds : a.phase.holds = true) :
    s.pool.blocked i (a.phase.wanted a.activity.jobType) = false := by
  obtain ⟨hshaped, -⟩ := h.calm.alone.sound i a ha
  have hordered := (h.ordered.pool.attempts i a ha).phase
  obtain ⟨act, ph⟩ := a
  cases ph with
  | countCompleted f => exact s.pool.not_blocked_nil i
  | commitCompletion f =>
    -- the transcode runs alone
    by_cases hact : act.jobType = .transcode
    · refine Pool.not_blocked (fun j hj => ?_) _
      intro x hx
      obtain ⟨b, hb, rfl⟩ := Option.map_eq_some_iff.mp hx
      rw [Phase.holds_footprint]
      refine Bool.eq_false_iff.mpr fun hb' => hj ?_
      exact h.eq_of_transcode ha rfl hact hb (Phase.live_of_holds hb')
    · -- only the transcode has the status of the video left to write
      have hf : f.Flushed := hshaped
      have hstatus : f.pending.video.status = none := hordered.trans (if_neg hact)
      have hvideo : f.pending.video = Writes.empty.video := by
        obtain ⟨hd, hw, hh, -⟩ := hf.statusOnly
        have heta : f.pending.video = ⟨f.pending.video.status, f.pending.video.durationMs,
            f.pending.video.width, f.pending.video.height⟩ := rfl
        rw [heta, hstatus, hd, hw, hh]
        rfl
      have hwanted : (Phase.commitCompletion f).wanted act.jobType = [] := by
        rw [Phase.wanted, Writes.locks, if_pos hvideo, if_pos hf.pending_job, List.append_nil]
      rw [hwanted]
      exact s.pool.not_blocked_nil i
  | _ => exact absurd hholds Bool.false_ne_true

/-- As long as an attempt is live, one of them can go on. -/
theorem State.Heals.exists_resume (h : s.Heals M) (hfits : M.Fits)
    (ha : s.pool.attempts[i]? = some a) (hlive : a.phase.live = true) :
    ∃ l, l.healthy M = true ∧ (s.step l).isSome = true := by
  have hgo {j : ℕ} {b : Attempt} (hb : s.pool.attempts[j]? = some b) (hblive : b.phase.live = true)
      (hblocked : s.pool.blocked j (b.phase.wanted b.activity.jobType) = false) :
      ∃ l, l.healthy M = true ∧ (s.step l).isSome = true := by
    obtain ⟨_, _, _, -, -, -, hsucceeding⟩ := h.supervised hb hblive
    have hfits (m : VideoMetadata) (hm : (Readings.of M).Admits m) : m.Fits := by
      intro c
      rw [show m.column c = M.column c from hm c]
      exact hfits c
    obtain ⟨ans, hans, hstep⟩ := hsucceeding.exists_step hblive
      (h.calm.alone.sound j b hb).shaped (h.ordered.faithful.pool.attempts j b hb).phase
      h.ordered.faithful.pool.rows hfits
    obtain ⟨⟨st, ph⟩, hstep⟩ := Option.isSome_iff_exists.mp hstep
    refine ⟨.resume j ans, hans, ?_⟩
    rw [State.step, Pool.resume_of_step hb hblocked hstep, Option.map_some, Option.isSome_some]
  -- an attempt that holds a lock can go on; if there is none, this one can
  by_cases hholds : ∃ (j : ℕ) (b : Attempt), s.pool.attempts[j]? = some b ∧ b.phase.holds = true
  · obtain ⟨j, b, hb, hb'⟩ := hholds
    exact hgo hb (Phase.live_of_holds hb') (h.holder_not_blocked hb hb')
  · refine hgo ha hlive (Pool.not_blocked (fun j _ => Pool.quiet_of_holds ?_ j) _)
    intro b hb
    obtain ⟨j, hj⟩ := List.mem_iff_getElem?.mp hb
    exact Bool.eq_false_iff.mpr fun hb' => hholds ⟨j, b, hj, hb'⟩

/-- As long as the execution is open a healthy step can be taken. -/
theorem State.Heals.exists_healthy (h : s.Heals M) (hfits : M.Fits)
    (hcurrent : s.temporal.current = some tasks) :
    ∃ l, l.healthy M = true ∧ (s.step l).isSome = true := by
  cases hrun : VideoProcessingWorkflow.run tasks with
  | wait =>
    -- the workflow waits for some task, which is handed out, run or reported
    obtain ⟨t, task, htask, hnone⟩ := (h.paid.tasks tasks hcurrent).unsettled hrun
    have htask? := Temporal.task?_eq_some.mpr ⟨hcurrent, htask⟩
    cases hstate : task.state with
    | waiting failures =>
      refine ⟨.dispatch t, rfl, ?_⟩
      simp only [State.step, State.dispatch, htask?, Option.bind_some, hstate, Option.isSome_some]
    | running failures i =>
      have hthrives := h.thrives tasks hcurrent t
      simp only [htask, Pool.Thrives, hstate] at hthrives
      obtain ⟨⟨act, ph⟩, ha, hsucceeding⟩ := hthrives
      cases hlive : ph.live with
      | true => exact h.exists_resume hfits ha hlive
      | false =>
        cases ph with
        | returned result =>
          refine ⟨.report t, rfl, ?_⟩
          simp only [State.step, State.report, htask?, Option.bind_some, hstate, ha,
            Option.map_some, Option.isSome_some]
        | raised | vanished => exact hsucceeding.elim
        | _ => cases hlive
    | succeeded | failed =>
      rw [Task.result?, hstate] at hnone
      cases hnone
  | executeTranscode | complete | fail =>
    refine ⟨.decide, rfl, ?_⟩
    simp only [State.step, Temporal.decide, hcurrent, Option.bind_some, hrun, Option.map_some,
      Option.isSome_some]

/-! ## Every run completes -/

/-- An execution has begun, and no attempt of an earlier one is alive. -/
theorem State.heals_of_started {videoId : UUID} {filename key : Str} {ls : List Label}
    (hrun : exec (restrict (State.Historic M) State.step) (.created videoId filename key) ls =
      some s)
    (hstarted : s.temporal.current = some Tasks.initial)
    (hover : ∀ a ∈ s.pool.attempts, a.phase.live = false) (hroom : ∀ t, s.rows.Room t) :
    s.Heals M := by
  have hpaid := State.exec_paid (exec_of_restrict hrun)
  have hfaithful := hpaid.faithful
  -- before the execution began the platform was at rest
  have hrest : State.Calm { s with temporal := ⟨s.temporal.closed, none⟩ } := by
    refine State.Faithful.calm ⟨hfaithful.pool, ?_, ?_, hfaithful.requests⟩ ?_
    · exact fun tasks htasks => by cases htasks
    · exact fun tasks htasks => by cases htasks
    · exact State.atRest_iff.mpr ⟨rfl, hover⟩
  have hinitial (t : JobType) : ∀ task, Tasks.initial t = some task → task.state = .waiting 0 := by
    intro task htask
    cases t with
    | metadata | thumbnail =>
      obtain rfl := Option.some.inj htask
      rfl
    | transcode => cases htask
  refine ⟨⟨hfaithful, hrest.alone, ?_, ?_, hrest.calm, hrest.counted, ?_⟩,
    (State.ordered_created (Readings.of M) videoId filename key).exec hrun, hpaid, ?_⟩
  · intro i a ha hlive
    exact absurd (hlive.symm.trans (hover a (List.mem_of_getElem? ha))) Bool.false_ne_true.symm
  · intro tasks htasks hsome
    obtain rfl := Option.some.inj (hstarted.symm.trans htasks)
    exact absurd rfl hsome
  · intro t hfailed
    obtain ⟨tasks, task, hcurrent, htask, hlost⟩ := State.failedForGood_iff.mp hfailed
    obtain rfl := Option.some.inj (hstarted.symm.trans hcurrent)
    rw [Task.failedForGood, hinitial t task htask] at hlost
    exact absurd hlost Bool.false_ne_true
  · intro tasks htasks t
    obtain rfl := Option.some.inj (hstarted.symm.trans htasks)
    cases t <;> exact hroom _

/-- Once the execution has closed nothing is left to do. -/
theorem State.Heals.open_of_step (h : s.Heals M) (hl : l.healthy M = true)
    (hstep : s.step l = some s') : ∃ tasks, s.temporal.current = some tasks := by
  cases State.step_moves hstep with
  | resume hpool =>
    obtain ⟨a, st, ph, ha, hres, -⟩ := Pool.resume_eq_some hpool
    obtain ⟨tasks, -, -, hcurrent, -⟩ := h.supervised ha hres.live
    exact ⟨tasks, hcurrent⟩
  | dispatch hcurrent | reportReturned hcurrent | reportRaised hcurrent => exact ⟨_, hcurrent⟩
  | decide hdecides =>
    cases hdecides with
    | schedule hcurrent | complete hcurrent | fail hcurrent => exact ⟨_, hcurrent⟩
  | _ => exact absurd hl Bool.false_ne_true

/-- Only the completion of the workflow closes an execution in which nothing has failed. -/
theorem State.Heals.temporal (h : s.Heals M) (hl : l.healthy M = true)
    (hstep : s.step l = some s') :
    (s'.temporal.current.isSome = true ∧ s'.temporal.closed = s.temporal.closed) ∨
      s'.temporal = ⟨.completed :: s.temporal.closed, none⟩ := by
  obtain ⟨tasks, hopen⟩ := h.open_of_step hl hstep
  cases State.step_moves hstep with
  | resume => exact .inl ⟨by rw [hopen, Option.isSome_some], rfl⟩
  | dispatch | reportReturned | reportRaised => exact .inl ⟨rfl, rfl⟩
  | decide hdecides =>
    cases hdecides with
    | schedule => exact .inl ⟨rfl, rfl⟩
    | complete => exact .inr rfl
    | fail hcurrent hrun =>
      obtain ⟨t, ht⟩ := run_eq_fail hrun
      obtain ⟨task, htask, hstate⟩ := Tasks.result?_eq_error.mp ht
      have hthrives := h.thrives _ hcurrent t
      simp only [htask, Pool.Thrives, hstate] at hthrives
  | _ => exact absurd hl Bool.false_ne_true

/-- **A failed video heals.** The original's height is positive and its metadata fit their columns.
After any history of executions, with failures, kills and time-outs at any await, an execution that
has just begun while no earlier attempt is alive and while the `attempts` columns have room, and in
which nothing fails, completes however its steps are ordered. Apart from attempts and timestamps the
rows are then the ones an execution without a failure leaves. -/
theorem execution_heals {videoId : UUID} {filename key : Str} {M : VideoMetadata} {s : State}
    {ls : List Label} (hheight : 0 < M.height) (hfits : M.Fits)
    (hrun : exec (restrict (State.Historic M) State.step) (.created videoId filename key) ls =
      some s)
    (hstarted : s.temporal.current = some Tasks.initial)
    (hover : ∀ a ∈ s.pool.attempts, a.phase.live = false) (hroom : ∀ t, s.rows.Room t) :
    Inevitable (restrict (State.Healthy M) State.step) (fun s' =>
      s'.temporal = ⟨.completed :: s.temporal.closed, none⟩ ∧
        s'.rows.outcome = .complete M videoId) s := by
  have hid : s.pool.videoId = videoId := State.exec_videoId (exec_of_restrict hrun)
  -- the fuel goes down at each step, and while the execution is open some step is there
  refine inevitable_of_measure State.fuel (I := fun q => q.Heals M ∧ q.pool.videoId = videoId ∧
    (q.temporal.current.isSome = true ∧ q.temporal.closed = s.temporal.closed ∨
      q.temporal = ⟨.completed :: s.temporal.closed, none⟩)) ?_ ?_
    ⟨State.heals_of_started hrun hstarted hover hroom, hid,
      .inl ⟨by rw [hstarted, Option.isSome_some], rfl⟩⟩
  · rintro q l q' ⟨hq, hqid, hclosed⟩ hstep
    obtain ⟨hl, hstep⟩ := restrict_eq_some.mp hstep
    have hlt := hq.paid.drives (Label.healthy_drives hl) hstep
    refine ⟨⟨hq.step hheight hl hstep, (State.step_videoId hstep).trans hqid, ?_⟩, hlt⟩
    rcases hclosed with ⟨-, hclosed⟩ | hdone
    · rw [← hclosed]
      exact hq.temporal hl hstep
    · obtain ⟨tasks, hopen⟩ := hq.open_of_step hl hstep
      rw [hdone] at hopen
      cases hopen
  · rintro q ⟨hq, hqid, hclosed⟩ hstuck
    rcases hclosed with ⟨hopen, -⟩ | hdone
    · obtain ⟨tasks, hcurrent⟩ := Option.isSome_iff_exists.mp hopen
      obtain ⟨l, hl, hstep⟩ := hq.exists_healthy hfits hcurrent
      obtain ⟨q', hstep⟩ := Option.isSome_iff_exists.mp hstep
      cases (hstuck l).symm.trans (restrict_eq_some.mpr ⟨hl, hstep⟩)
    · refine ⟨hdone, ?_⟩
      rw [← hqid]
      exact hq.ordered.outcome (by rw [hdone]; exact List.mem_cons_self)

/-- The metadata activity uses up its attempts, the thumbnail completes, the execution closes Failed
and a request to retry starts another one. -/
def State.retried : List Label := List.flatten [
  [.notify, .receive 0, .start 0 .received, .delete 0 true, .dispatch .thumbnail],
  Label.resumes 0 4, Label.failMetadata 1 4, Label.failMetadata 2 3, Label.failMetadata 3 3,
  Label.resumes 0 7,
  [.report .thumbnail, .decide, .retryVideo, .receive 1, .start 1 .received, .delete 1 true]]

/-- The retry after three failed metadata attempts. -/
theorem execution_heals_clip : ∃ s,
    exec (restrict (State.Historic ⟨1000, 1280, 720⟩) State.step) State.clip State.retried =
      some s ∧
    Inevitable (restrict (State.Healthy ⟨1000, 1280, 720⟩) State.step) (fun s' =>
      s'.temporal = ⟨.completed :: s.temporal.closed, none⟩ ∧
        s'.rows.outcome = .complete ⟨1000, 1280, 720⟩ ⟨7⟩) s := by
  have hruns : (exec (restrict (State.Historic ⟨1000, 1280, 720⟩) State.step) State.clip
      State.retried).any fun s => decide (s.temporal.current = some Tasks.initial) &&
        (s.pool.attempts.all fun a => !a.phase.live) &&
        JobType.members.all fun t => decide (s.rows.attempts t < 2147483647) := by
    decide +kernel
  obtain ⟨s, hrun, hs⟩ := (Option.any_eq_true _ _).mp hruns
  obtain ⟨hs, hroom⟩ := Bool.and_eq_true_iff.mp hs
  obtain ⟨hstarted, hover⟩ := Bool.and_eq_true_iff.mp hs
  refine ⟨s, hrun, execution_heals (by decide) (fun c => ?_) hrun (of_decide_eq_true hstarted)
    (fun a ha => ?_) fun t => ?_⟩
  · cases c <;> decide
  · simpa using List.all_eq_true.mp hover a ha
  · have hroom := of_decide_eq_true (List.all_eq_true.mp hroom t t.mem_members)
    exact hroom

end VideoProcessing
