import Mathlib.Algebra.BigOperators.Group.List.Basic
import VideoProcessing.Platform.Closing

/-!
# Every execution closes

The server hands out three attempts of each activity, and an attempt gets through finitely many
awaits. So while an execution is open there are only so many steps of the server, the workflow and
the live attempts left, however attempts fail, are killed, time out or overlap. As long as it is
open the server or the workflow has one of them to take, whatever the attempts do: a waiting
activity is dispatched, a running one is given up at its time-out, and once they have settled the
workflow decides. No execution needs an answer to an attempt or a kill to get on.
-/

namespace VideoProcessing

open Python UnitOfWork Transitions

/-! ## The awaits of an attempt -/

/-- The awaits an attempt may still get through: each asset costs one for its call, one for its
upload and one for its select. -/
def Phase.fuel : Phase → ℕ
  | .loadVideo => 26
  | .selectJob _ => 25
  | .insertJob _ => 24
  | .commitClaim _ => 23
  | .work f todo => 2 * todo.length + f.uploads.length + 6
  | .selectAsset _ todo => todo.length + 5
  | .flush _ => 4
  | .countCompleted _ => 3
  | .commitCompletion _ => 2
  | .failJob _ _ => 1
  | .returned _ | .raised _ | .vanished => 0

variable {videoId : UUID} {act : Activity} {st st' : Store} {ph ph' : Phase} {ans : Answer}
  {f : Frame} {rows : VideoRows} {t : JobType} {tasks : Tasks} {task : Task} {s s' : State}
  {l : Label} {i : ℕ} {p p' : Pool}

/-- An attempt that has ended awaits nothing. -/
theorem Phase.fuel_of_not_live (h : ph.live = false) : ph.fuel = 0 := by
  cases ph <;> first | rfl | cases h

/-- A completion selects each asset before it flushes. -/
theorem completing_fuel (f : Frame) (assets : List (AssetType × Str)) :
    (completing f assets).fuel ≤ assets.length + 5 := by
  cases assets <;> simp [completing, Phase.fuel]

/-- Leaving a call costs more than the next await is worth. -/
theorem working_fuel {now : Time} {todo : List Io} (h : working videoId act f now todo = some ph) :
    ph.fuel ≤ 2 * todo.length + f.uploads.length + 6 := by
  cases todo with
  | cons =>
    obtain rfl := Option.some.inj h
    exact le_rfl
  | nil =>
    cases act with
    | extractMetadata =>
      obtain ⟨m, -, rfl⟩ := Option.map_eq_some_iff.mp h
      exact (completing_fuel _ _).trans (by simp)
    | generateThumbnail =>
      obtain rfl := Option.some.inj h
      exact (completing_fuel _ _).trans (by simp)
    | transcode =>
      obtain rfl := Option.some.inj h
      exact (completing_fuel _ _).trans (by simp)

/-- No activity makes more than seven calls. -/
theorem io_length_le (videoId : UUID) (key : Str) (act : Activity) :
    (act.io videoId key).length ≤ 7 := by
  cases act with
  | extractMetadata | generateThumbnail => simp [Activity.io]
  | transcode sourceHeight =>
    have hle : (renditionsForSourceHeight sourceHeight).length ≤ 3 := List.length_filter_le _ _
    simp only [Activity.io, List.length_cons, List.length_flatMap, List.length_nil,
      List.map_const', List.sum_replicate_nat]
    omega

/-- What follows the claim is worth less than its commit. -/
theorem claimed_fuel (h : f.uploads = []) : (claimed videoId act f).fuel < 23 := by
  have hwork (key : Str) : (Phase.work f (act.io videoId key)).fuel < 23 := by
    have hle := io_length_le videoId key act
    simp only [Phase.fuel, h, List.length_nil]
    omega
  cases act with
  | extractMetadata | generateThumbnail => exact hwork _
  | transcode sourceHeight =>
    rw [claimed]
    split
    · simp [Phase.fuel]
    · exact hwork _

/-- An attempt that finds its job completed is over. -/
theorem alreadyCompleted_fuel (video : Tracked Video) :
    (alreadyCompleted videoId act video).fuel = 0 := by
  cases act with
  | extractMetadata =>
    rw [alreadyCompleted]
    split <;> rfl
  | generateThumbnail | transcode => rfl

/-- Every await is paid for. -/
theorem Resumes.fuel (h : Resumes videoId act st ph ans st' ph')
    (hshaped : ph.Shaped videoId act) : ph'.fuel < ph.fuel := by
  cases h with
  | selectCompleted =>
    rw [alreadyCompleted_fuel]
    simp [Phase.fuel]
  | giveUp hph => cases ph <;> simp [Phase.unguarded] at hph <;> simp [Phase.fuel]
  | commitClaim =>
    refine claimed_fuel ?_
    obtain ⟨_, _, _, -, rfl⟩ := hshaped
    rfl
  | call _ _ hwork | probe hwork | upload hwork =>
    -- a call less to make, or the completion with an await for each upload
    have hle := working_fuel hwork
    simp only [Phase.fuel, List.length_cons, List.length_append, List.length_nil] at hle ⊢
    omega
  | selectAsset =>
    refine (completing_fuel _ _).trans_lt ?_
    simp [Phase.fuel]
  | completionFails hph =>
    cases ph <;> simp [Phase.completion?] at hph <;> simp [Phase.fuel, handle]
  | workFails | noConnection =>
    simp only [Phase.fuel, handle]
    omega
  | _ => simp [Phase.fuel]

/-! ## The execution -/

/-- The steps a scheduled activity may still cause, its attempts included; an activity that is not
scheduled yet is worth the step that schedules it too. -/
def taskFuel : Option Task → ℕ
  | none => 28 * maximumAttempts + 1
  | some task =>
    match task.state with
    | .waiting failures => 28 * (maximumAttempts - failures)
    | .running failures _ => 28 * (maximumAttempts - (failures + 1)) + 1
    | .succeeded _ | .failed _ => 0

def Tasks.fuel (tasks : Tasks) : ℕ :=
  taskFuel (tasks .metadata) + taskFuel (tasks .thumbnail) + taskFuel (tasks .transcode) + 1

/-- The steps the open execution and the live attempts may still take. -/
def State.fuel (s : State) : ℕ :=
  (s.pool.attempts.map fun a => a.phase.fuel).sum + s.temporal.current.elim 0 Tasks.fuel

/-- A step of the server, of the workflow or of a live attempt. -/
def State.drives (s : State) : Label → Bool
  | .resume _ _ | .dispatch _ | .report _ | .timeOut _ | .decide => true
  | .vanish i => s.pool.attempts[i]?.any fun a => a.phase.live
  | _ => false

abbrev State.Drives (s : State) (l : Label) : Prop := s.drives l = true

/-- A step of the server or the workflow: it hands an attempt out, hears of its end or gives it up,
or the workflow goes on. -/
def Label.ofServer : Label → Bool
  | .dispatch _ | .report _ | .timeOut _ | .decide => true
  | _ => false

/-- An execution is open. -/
abbrev State.IsOpen (s : State) (_ : Label) : Prop := s.temporal.current.isSome = true

/-- An attempt that has ended is worth nothing any more. -/
theorem taskFuel_settled {failures : ℕ} {state : TaskState}
    (hstate : task.state = .running failures i) (hsettled : ∀ n, state ≠ .waiting n)
    (hended : ∀ n j, state ≠ .running n j) :
    taskFuel (some { task with state := state }) < taskFuel (some task) := by
  simp only [taskFuel, hstate]
  cases state with
  | waiting n => exact absurd rfl (hsettled n)
  | running n j => exact absurd rfl (hended n j)
  | succeeded | failed => exact Nat.succ_pos _

/-- The attempt that may follow a failed one is paid for. -/
theorem taskFuel_fail {failures : ℕ} (hstate : task.state = .running failures i)
    (error : ActivityError) :
    taskFuel (some { task with state := .fail failures error }) < taskFuel (some task) := by
  rcases TaskState.fail_cases failures error with hfail | hfail <;> rw [hfail]
  · exact taskFuel_settled hstate (by simp) (by simp)
  · simp only [taskFuel, hstate]
    exact Nat.lt_succ_self _

/-- An activity that is worth less makes the execution worth less. -/
theorem Tasks.fuel_update (htask : taskFuel (some task) < taskFuel (tasks t)) :
    Tasks.fuel (Function.update tasks t (some task)) < tasks.fuel := by
  cases t <;> simp [Tasks.fuel, Function.update] <;> omega

/-- The sum follows the attempt that changes. -/
theorem sum_fuel_set {a : Attempt} {attempts : List Attempt} (ha : attempts[i]? = some a)
    (ph : Phase) :
    ((attempts.set i { a with phase := ph }).map fun a => a.phase.fuel).sum + a.phase.fuel =
      (attempts.map fun a => a.phase.fuel).sum + ph.fuel := by
  induction attempts generalizing i with
  | nil => simp at ha
  | cons b attempts ih =>
    cases i with
    | zero =>
      obtain rfl := Option.some.inj ha
      simp only [List.set_cons_zero, List.map_cons, List.sum_cons]
      omega
    | succ i =>
      have hrest := ih ha
      simp only [List.set_cons_succ, List.map_cons, List.sum_cons]
      omega

/-! ## The invariant -/

/-- The execution is one the workflow has scheduled: both activities it starts with are there, no
activity waits for more attempts than it may have, and the metadata activity has metadata. -/
structure Tasks.Scheduled (tasks : Tasks) : Prop where
  both : ∀ t ≠ .transcode, tasks t ≠ none
  budget : ∀ t task failures, tasks t = some task → task.state = .waiting failures →
    failures < maximumAttempts
  result : ∀ task result, tasks .metadata = some task → task.state = .succeeded result →
    result ≠ none

/-- What an attempt has of the metadata once ffprobe has returned. -/
def Phase.Probed : Phase → Prop
  | .selectAsset f _ | .flush f | .countCompleted f | .commitCompletion f => f.metadata ≠ none
  | .returned result => result ≠ none
  | _ => True

/-- An attempt that has not ended is worth what an attempt is worth at its beginning at most, and
the metadata activity does not return without metadata. -/
structure Attempt.Paid (a : Attempt) : Prop where
  fuel : a.phase.fuel ≤ 26
  probed : a.activity = .extractMetadata → a.phase.Probed

structure State.Paid (s : State) : Prop where
  faithful : s.Faithful Readings.any
  attempts : ∀ a ∈ s.pool.attempts, a.Paid
  tasks : ∀ tasks, s.temporal.current = some tasks → tasks.Scheduled

/-- An attempt begins with the whole budget. -/
theorem Attempt.paid_loadVideo (act : Activity) : Attempt.Paid ⟨act, .loadVideo⟩ :=
  ⟨le_rfl, fun _ => trivial⟩

/-- An attempt that is gone needs none of it. -/
theorem Attempt.paid_vanished (act : Activity) : Attempt.Paid ⟨act, .vanished⟩ :=
  ⟨Nat.zero_le _, fun _ => trivial⟩

/-- ffprobe is the last call of the metadata activity. -/
theorem Resumes.probed (h : Resumes videoId .extractMetadata st ph ans st' ph')
    (hph : ph.Probed) : ph'.Probed := by
  have hwork {f : Frame} {now : Time} {todo : List Io}
      (hwork : working videoId .extractMetadata f now todo = some ph') : ph'.Probed := by
    cases todo with
    | cons =>
      obtain rfl := Option.some.inj hwork
      trivial
    | nil =>
      obtain ⟨m, hm, rfl⟩ := Option.map_eq_some_iff.mp hwork
      simp [completeMetadataJob, completing, Phase.Probed, Frame.completeJob, Frame.setMetadata, hm]
  cases h with
  | selectCompleted =>
    rw [alreadyCompleted]
    split
    · exact Option.some_ne_none _
    · trivial
  | call _ _ hnext | probe hnext | upload hnext => exact hwork hnext
  | @selectAsset _ f a key todo => cases todo <;> exact hph
  | flush | commitCompletion => exact hph
  | countCompleted =>
    simp only [Phase.Probed, Frame.completeVideo]
    split <;> exact hph
  | _ => trivial

/-- An await keeps to the budget. -/
theorem Resumes.paid (h : Resumes videoId act st ph ans st' ph') (hshaped : ph.Shaped videoId act)
    (hpaid : Attempt.Paid ⟨act, ph⟩) : Attempt.Paid ⟨act, ph'⟩ where
  fuel := (h.fuel hshaped).le.trans hpaid.fuel
  probed := by
    rintro rfl
    exact h.probed (hpaid.probed rfl)

/-- An execution starts with two activities and three attempts for each. -/
theorem Tasks.scheduled_initial : Tasks.initial.Scheduled where
  both := fun t ht => by
    cases t with
    | metadata | thumbnail => exact Option.some_ne_none _
    | transcode => exact absurd rfl ht
  budget := fun t task failures htask hstate => by
    cases t with
    | metadata | thumbnail =>
      obtain rfl := Option.some.inj htask
      obtain rfl := TaskState.waiting.inj hstate
      decide
    | transcode => cases htask
  result := fun task result htask hstate => by
    obtain rfl := Option.some.inj htask
    cases hstate

/-- An activity is replaced by one that keeps to its budget. -/
theorem Tasks.Scheduled.update (h : tasks.Scheduled)
    (hbudget : ∀ failures, task.state = .waiting failures → failures < maximumAttempts)
    (hresult : t = .metadata → ∀ result, task.state = .succeeded result → result ≠ none) :
    Tasks.Scheduled (Function.update tasks t (some task)) where
  both := fun t' ht' => by
    by_cases heq : t' = t
    · subst heq
      simp
    · rw [Function.update_of_ne heq]
      exact h.both t' ht'
  budget := fun t' task' failures htask' hstate => by
    by_cases heq : t' = t
    · subst heq
      rw [Function.update_self] at htask'
      obtain rfl := Option.some.inj htask'
      exact hbudget failures hstate
    · rw [Function.update_of_ne heq] at htask'
      exact h.budget t' task' failures htask' hstate
  result := fun task' result htask' hstate => by
    by_cases heq : .metadata = t
    · subst heq
      rw [Function.update_self] at htask'
      obtain rfl := Option.some.inj htask'
      exact hresult rfl result hstate
    · rw [Function.update_of_ne heq] at htask'
      exact h.result task' result htask' hstate

/-- A failed attempt is followed by another one only within the budget. -/
theorem TaskState.fail_waiting {failures n : ℕ} {error : ActivityError}
    (h : TaskState.fail failures error = .waiting n) : n = failures + 1 ∧ n < maximumAttempts := by
  rw [TaskState.fail] at h
  split at h
  · cases h
  · rename_i hnot
    obtain rfl := TaskState.waiting.inj h
    exact ⟨rfl, not_le.mp fun hle => hnot (.inr hle)⟩

/-- A failed attempt keeps the execution within the budget. -/
theorem Tasks.Scheduled.fail (h : tasks.Scheduled) (failures : ℕ) (error : ActivityError) :
    Tasks.Scheduled
      (Function.update tasks t (some { task with state := .fail failures error })) :=
  h.update (fun _ hstate => (TaskState.fail_waiting hstate).2)
    fun _ _ hstate => absurd hstate TaskState.fail_ne_succeeded

/-- One attempt is replaced by another one that is paid for. -/
theorem paid_set {attempts : List Attempt} {b : Attempt} (hall : ∀ c ∈ attempts, c.Paid)
    (hb : b.Paid) : ∀ c ∈ attempts.set i b, c.Paid := by
  intro c hc
  rcases List.mem_or_eq_of_mem_set hc with hc | rfl
  exacts [hall c hc, hb]

/-- Every step keeps the budget. -/
theorem State.Paid.step (h : s.Paid) (hstep : s.step l = some s') : s'.Paid := by
  have hfaithful := (h.faithful.step (Readings.any_reports l) hstep).1
  have hset {t : JobType} {tasks tasks' : Tasks} {task : Task} {state : TaskState}
      (hscheduled : Tasks.Scheduled (Function.update tasks t (some { task with state := state })))
      (htasks : (s.temporal.setTask t tasks task state).current = some tasks') :
      tasks'.Scheduled := by
    obtain rfl := Option.some.inj htasks
    exact hscheduled
  cases State.step_moves hstep with
  | resume hpool =>
    obtain ⟨a, st, ph, ha, hres, rfl⟩ := Pool.resume_eq_some hpool
    have hpaid := h.attempts a (List.mem_of_getElem? ha)
    exact ⟨hfaithful, paid_set h.attempts
      (hres.paid (h.faithful.pool.sound _ a ha).shaped hpaid), h.tasks⟩
  | vanish hpool =>
    obtain ⟨a, -, rfl⟩ := Pool.vanish_eq_some hpool
    exact ⟨hfaithful, paid_set h.attempts (Attempt.paid_vanished _), h.tasks⟩
  | @dispatch t tasks task failures hcurrent htask hstate =>
    refine ⟨hfaithful, fun a ha => ?_, fun tasks' htasks' => hset ?_ htasks'⟩
    · rcases List.mem_append.mp ha with ha | ha
      · exact h.attempts a ha
      · exact List.mem_singleton.mp ha ▸ Attempt.paid_loadVideo _
    · exact (h.tasks tasks hcurrent).update (by simp) (by simp)
  | @reportReturned t tasks task failures i a result hcurrent htask hstate ha hphase =>
    refine ⟨hfaithful, h.attempts, fun tasks' htasks' => hset ?_ htasks'⟩
    refine (h.tasks tasks hcurrent).update (by simp) fun ht result' hresult' => ?_
    obtain rfl := TaskState.succeeded.inj hresult'
    have hact : a.activity = .extractMetadata := by
      have hjob := h.faithful.attempt_jobType hcurrent htask hstate ha
      rw [ht] at hjob
      cases hactivity : a.activity <;> rw [hactivity] at hjob <;> first | rfl | cases hjob
    have hprobed := (h.attempts a (List.mem_of_getElem? ha)).probed hact
    rwa [hphase] at hprobed
  | @reportRaised t tasks task failures i a error hcurrent =>
    exact ⟨hfaithful, h.attempts, fun tasks' => hset ((h.tasks tasks hcurrent).fail failures error)⟩
  | @timeOut t tasks task failures i hcurrent =>
    exact ⟨hfaithful, h.attempts,
      fun tasks' => hset ((h.tasks tasks hcurrent).fail failures .timedOut)⟩
  | decide hdecides =>
    cases hdecides with
    | @schedule tasks sourceHeight hcurrent =>
      refine ⟨hfaithful, h.attempts, fun tasks' htasks' => ?_⟩
      obtain rfl := Option.some.inj htasks'
      refine (h.tasks tasks hcurrent).update (fun failures hstate => ?_) nofun
      obtain rfl := TaskState.waiting.inj hstate
      decide
    | complete | fail => exact ⟨hfaithful, h.attempts, fun tasks' htasks' => by cases htasks'⟩
  | start hd hstart =>
    obtain ⟨-, -, rfl⟩ := Temporal.startWorkflow_eq_some.mp hstart
    refine ⟨hfaithful, h.attempts, fun tasks' htasks' => ?_⟩
    obtain rfl := Option.some.inj htasks'
    exact Tasks.scheduled_initial
  | _ => exact ⟨hfaithful, h.attempts, h.tasks⟩

/-- A new video has spent nothing. -/
theorem State.paid_created (videoId : UUID) (filename key : Str) :
    (State.created videoId filename key).Paid where
  faithful := State.faithful_created Readings.any videoId filename key
  attempts := fun a ha => by cases ha
  tasks := fun tasks htasks => by cases htasks

/-! ## What a step costs -/

/-- A step of a live attempt, the server or the workflow is paid for. -/
theorem State.Paid.drives (h : s.Paid) (hdrives : s.drives l = true)
    (hstep : s.step l = some s') : s'.fuel < s.fuel := by
  -- a task's step costs fuel if its new state and the pool have less together
  have htask {t : JobType} {tasks : Tasks} {task : Task} {state : TaskState} {p : Pool}
      (hcurrent : s.temporal.current = some tasks)
      (hsum : (p.attempts.map fun a => a.phase.fuel).sum +
        taskFuel (some { task with state := state }) <
          (s.pool.attempts.map fun a => a.phase.fuel).sum + taskFuel (tasks t)) :
      State.fuel { s with pool := p, temporal := s.temporal.setTask t tasks task state } <
        s.fuel := by
    simp only [State.fuel, Temporal.setTask, hcurrent, Option.elim_some]
    cases t <;> simp [Tasks.fuel, Function.update] <;> omega
  cases State.step_moves hstep with
  | resume hpool =>
    obtain ⟨a, st, ph, ha, hres, rfl⟩ := Pool.resume_eq_some hpool
    have hlt := hres.fuel (h.faithful.pool.sound _ a ha).shaped
    have hsum := sum_fuel_set ha ph
    simp only [State.fuel]
    omega
  | vanish hpool =>
    obtain ⟨a, ha, rfl⟩ := Pool.vanish_eq_some hpool
    have hlive : a.phase.live = true := by simpa [State.drives, ha] using hdrives
    -- a live attempt has fuel left, which it gives up
    have hpos : 0 < a.phase.fuel := by
      cases hph : a.phase <;> rw [hph] at hlive <;> simp [Phase.fuel, Phase.live] at hlive ⊢
    have hsum := sum_fuel_set ha .vanished
    have hended : Phase.vanished.fuel = 0 := rfl
    simp only [State.fuel]
    omega
  | @dispatch t tasks task failures hcurrent htask' hstate =>
    -- a retry is paid for by the budget of the task
    have hbudget := (h.tasks tasks hcurrent).budget t task failures htask' hstate
    refine htask (p := s.pool.begin task.activity) hcurrent ?_
    simp only [Pool.begin, List.map_append, List.sum_append, List.map_cons, List.map_nil,
      List.sum_cons, List.sum_nil, Phase.fuel, htask', taskFuel, hstate]
    omega
  | reportReturned hcurrent htask' hstate =>
    refine htask (p := s.pool) hcurrent ?_
    rw [htask']
    exact Nat.add_lt_add_left (taskFuel_settled hstate (by simp) (by simp)) _
  | reportRaised hcurrent htask' hstate | timeOut hcurrent htask' hstate =>
    refine htask (p := s.pool) hcurrent ?_
    rw [htask']
    exact Nat.add_lt_add_left (taskFuel_fail hstate _) _
  | decide hdecides =>
    cases hdecides with
    | @schedule tasks sourceHeight hcurrent hrun =>
      obtain ⟨-, -, -, -, hnone, -⟩ := run_eq_executeTranscode hrun
      have hlt : Tasks.fuel (Function.update tasks .transcode
          (some ⟨.transcode sourceHeight, .waiting 0⟩)) < tasks.fuel := by
        refine Tasks.fuel_update ?_
        rw [hnone]
        exact Nat.lt_succ_self _
      simp only [State.fuel, hcurrent, Option.elim_some]
      omega
    | complete hcurrent | fail hcurrent =>
      simp only [State.fuel, hcurrent, Option.elim_some, Option.elim_none, Tasks.fuel]
      omega
  | _ => exact absurd hdrives Bool.false_ne_true

/-- While an execution is open no other step adds to what is left of it. -/
theorem State.fuel_spared (hopen : s.temporal.current.isSome = true)
    (hdrives : ¬ s.drives l = true) (hstep : s.step l = some s') : s'.fuel ≤ s.fuel := by
  cases State.step_moves hstep with
  | vanish hpool =>
    obtain ⟨a, ha, rfl⟩ := Pool.vanish_eq_some hpool
    have hsum := sum_fuel_set ha .vanished
    have hended : Phase.vanished.fuel = 0 := rfl
    simp only [State.fuel]
    omega
  | start _ hstart =>
    obtain ⟨hcurrent, -⟩ := Temporal.startWorkflow_eq_some.mp hstart
    rw [hcurrent] at hopen
    cases hopen
  | resume | dispatch | reportReturned | reportRaised | timeOut | decide =>
    exact absurd rfl hdrives
  | _ => exact le_rfl

/-- A workflow that waits waits for an activity that has not settled. -/
theorem Tasks.Scheduled.unsettled (h : tasks.Scheduled)
    (hwait : VideoProcessingWorkflow.run tasks = .wait) :
    ∃ t task, tasks t = some task ∧ task.result? = none := by
  by_contra hall
  push Not at hall
  -- were every task settled, both siblings would have their results
  have hresult (t : JobType) (ht : t ≠ .transcode) : ∃ result, tasks.result? t = some result := by
    obtain ⟨task, htask⟩ := Option.ne_none_iff_exists'.mp (h.both t ht)
    obtain ⟨result, hresult⟩ := Option.ne_none_iff_exists'.mp (hall t task htask)
    exact ⟨result, by rw [Tasks.result?, htask, Option.bind_some, hresult]⟩
  obtain ⟨metadata, hmetadata⟩ := hresult .metadata (by decide)
  obtain ⟨thumbnail, hthumbnail⟩ := hresult .thumbnail (by decide)
  simp only [VideoProcessingWorkflow.run, hmetadata, hthumbnail] at hwait
  split at hwait
  · cases hwait
  · cases hwait
  · obtain ⟨task, htask, hstate⟩ := Tasks.result?_eq_ok.mp hmetadata
    -- the metadata activity never returns None
    exact h.result task none htask hstate rfl
  · split at hwait
    · cases hwait
    · rename_i transcode htranscode
      split at hwait
      · rename_i hnone
        exact hall .transcode transcode htranscode hnone
      · cases hwait
      · cases hwait

/-- As long as an execution is open the server or the workflow has a step to take. -/
theorem State.Paid.exists_server (h : s.Paid) (hopen : s.temporal.current.isSome = true) :
    ∃ l : Label, l.ofServer = true ∧ (s.step l).isSome = true := by
  obtain ⟨tasks, hcurrent⟩ := Option.isSome_iff_exists.mp hopen
  cases hrun : VideoProcessingWorkflow.run tasks with
  | wait =>
    obtain ⟨t, task, htask, hnone⟩ := (h.tasks tasks hcurrent).unsettled hrun
    have htask? := Temporal.task?_eq_some.mpr ⟨hcurrent, htask⟩
    cases hstate : task.state with
    | waiting failures =>
      refine ⟨.dispatch t, rfl, ?_⟩
      simp only [State.step, State.dispatch, htask?, Option.bind_some, hstate, Option.isSome_some]
    | running failures i =>
      -- the server can always give the attempt up
      refine ⟨.timeOut t, rfl, ?_⟩
      simp only [State.step, State.timeOut, htask?, Option.bind_some, hstate, Option.isSome_some]
    | succeeded | failed =>
      rw [Task.result?, hstate] at hnone
      cases hnone
  | executeTranscode | complete | fail =>
    refine ⟨.decide, rfl, ?_⟩
    simp only [State.step, Temporal.decide, hcurrent, Option.bind_some, hrun, Option.map_some,
      Option.isSome_some]

/-! ## Every run -/

/-- Three activities with three attempts of 28 steps, and the steps of the workflow. -/
theorem Tasks.fuel_le (tasks : Tasks) : tasks.fuel ≤ 256 := by
  have hle (task : Option Task) : taskFuel task ≤ 85 := by
    cases task with
    | none => decide
    | some task =>
      obtain ⟨act, state⟩ := task
      cases state <;> simp only [taskFuel, maximumAttempts] <;> omega
  have hmetadata := hle (tasks .metadata)
  have hthumbnail := hle (tasks .thumbnail)
  have htranscode := hle (tasks .transcode)
  rw [Tasks.fuel]
  omega

/-- The bound, by the number of live attempts. -/
theorem State.Paid.fuel_le (h : s.Paid) :
    s.fuel ≤ 256 + 26 * s.pool.attempts.countP fun a => a.phase.live := by
  -- each live attempt has at most 26 steps left
  have hsum : ∀ attempts : List Attempt, (∀ a ∈ attempts, a.Paid) →
      (attempts.map fun a => a.phase.fuel).sum ≤ 26 * attempts.countP fun a => a.phase.live := by
    intro attempts
    induction attempts with
    | nil => exact fun _ => le_rfl
    | cons a attempts ih =>
      intro hall
      have hrest := ih fun b hb => hall b (List.mem_cons_of_mem a hb)
      have hfuel := (hall a List.mem_cons_self).fuel
      rw [List.map_cons, List.sum_cons, List.countP_cons]
      cases hlive : a.phase.live with
      | false =>
        rw [Phase.fuel_of_not_live hlive]
        simpa using hrest
      | true =>
        rw [if_pos rfl]
        omega
  -- each of the three tasks has its budget
  have htasks : s.temporal.current.elim 0 Tasks.fuel ≤ 256 := by
    cases s.temporal.current with
    | none => exact Nat.zero_le _
    | some tasks => exact tasks.fuel_le
  have hattempts := hsum s.pool.attempts h.attempts
  rw [State.fuel]
  omega

/-- So does every run. -/
theorem State.exec_paid {videoId : UUID} {filename key : Str} {ls : List Label}
    (hrun : exec State.step (.created videoId filename key) ls = some s) : s.Paid :=
  exec_invariant (fun _ _ _ hq hstep => hq.step hstep) (State.paid_created videoId filename key)
    hrun

/-- From every reachable state, whatever goes wrong from there: as long as an execution is open the
server or the workflow has a step to take, and while it is open there are at most so many steps of
the server, the workflow and the live attempts. -/
theorem execution_closes {videoId : UUID} {filename key : Str} {ls ls' : List Label} {s : State}
    {q : State × ℕ} (hrun : exec State.step (.created videoId filename key) ls = some s)
    (hopen : exec (observe (count State.Drives) (restrict State.IsOpen State.step)) (s, 0) ls' =
      some q) :
    q.2 ≤ 256 + 26 * (s.pool.attempts.countP fun a => a.phase.live) ∧
      (q.1.temporal.current.isSome = true →
        ∃ l : Label, l.ofServer = true ∧ (q.1.step l).isSome = true) := by
  have hpaid := State.exec_paid hrun
  have hcount : q.2 + q.1.fuel ≤ 0 + s.fuel := exec_count_le State.fuel (I := State.Paid)
    (fun _ _ _ hq hstep => hq.step (restrict_eq_some.mp hstep).2)
    (fun _ _ _ hq hdrives hstep =>
      hq.drives hdrives (restrict_eq_some.mp hstep).2)
    (fun _ _ _ _ hdrives hstep =>
      State.fuel_spared (restrict_eq_some.mp hstep).1 hdrives (restrict_eq_some.mp hstep).2)
    hpaid hopen
  have hle := hpaid.fuel_le
  refine ⟨by omega, ?_⟩
  have hend := exec_of_restrict (exec_of_observe hopen)
  exact (exec_invariant (fun _ _ _ hq hstep => State.Paid.step hq hstep) hpaid hend).exists_server

/-- The metadata attempt is killed and given up while another notification arrives. -/
def State.killedOnce : List Label :=
  [.dispatch .metadata, .resume 0 (.ok 0), .vanish 0, .notify, .timeOut .metadata,
    .dispatch .metadata]

/-- The killed attempt is given up, and its activity handed out again. -/
theorem execution_closes_clip : ∃ s q,
    exec State.step State.clip [.notify, .receive 0, .start 0 .received] = some s ∧
    exec (observe (count State.Drives) (restrict State.IsOpen State.step)) (s, 0)
      State.killedOnce = some q ∧
    q.2 ≤ 256 + 26 * (s.pool.attempts.countP fun a => a.phase.live) ∧
      (q.1.temporal.current.isSome = true →
        ∃ l : Label, l.ofServer = true ∧ (q.1.step l).isSome = true) := by
  have hruns : (exec State.step State.clip [.notify, .receive 0, .start 0 .received]).any fun s =>
      (exec (observe (count State.Drives) (restrict State.IsOpen State.step)) (s, 0)
        State.killedOnce).isSome := by decide +kernel
  obtain ⟨s, hrun, hopen⟩ := (Option.any_eq_true _ _).mp hruns
  obtain ⟨q, hopen⟩ := Option.isSome_iff_exists.mp hopen
  exact ⟨s, q, hrun, hopen, execution_closes hrun hopen⟩

end VideoProcessing
