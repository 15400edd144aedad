import VideoProcessing.Platform.Progress
import VideoProcessing.Worker.Publication
import VideoProcessing.Worker.Tally

/-!
# The budget of attempts

The retry policy allows an execution three attempts of each activity. Over a whole history the
server hands out at most three attempts of an activity for each execution, and the `attempts`
column, which overlapping claims can leave too low, is never above the number of attempts that were
handed out.

Both are read off one invariant: an attempt beyond its claim has used up one that was handed out,
and a claim that commits writes one more than a count it has read, which was no higher than the
claims there had been.
-/

namespace VideoProcessing

open Python UnitOfWork Transitions

/-- The attempts of the activity that claims the job. -/
def Pool.handedOut (t : JobType) (p : Pool) : ℕ :=
  p.attempts.countP fun a => a.activity.jobType = t

/-- Those among them that are past the awaits of `claim_job`, or ended there. -/
def Pool.pastClaim (t : JobType) (p : Pool) : ℕ :=
  p.attempts.countP fun a => a.activity.jobType = t && !a.phase.unguarded

/-- The attempts a scheduled activity has been given, or all it can be given once it has settled. -/
def taskUsed : Option Task → ℕ
  | none => 0
  | some task =>
    match task.state with
    | .waiting failures => failures
    | .running failures _ => failures + 1
    | .succeeded _ | .failed _ => maximumAttempts

/-- The attempts used up by the open execution and its predecessors. -/
def Temporal.used (t : JobType) (tp : Temporal) : ℕ :=
  maximumAttempts * tp.closed.length + tp.current.elim 0 fun tasks => taskUsed (tasks t)

structure State.Budgeted (s : State) : Prop where
  paid : s.Paid
  /-- no execution exceeds its budget -/
  within : ∀ tasks, s.temporal.current = some tasks → ∀ t, taskUsed (tasks t) ≤ maximumAttempts
  handedOut : ∀ t, s.pool.handedOut t ≤ s.temporal.used t
  below : ∀ t, s.pool.Below t (s.pool.pastClaim t)

variable {t t' : JobType} {p p' : Pool} {a : Attempt} {l : PoolLabel} {i : ℕ} {ph : Phase}
  {attempts : List Attempt} {tasks : Tasks} {task : Task} {s s' : State} {tp : Temporal}

/-! ## The attempts of a pool -/

/-- Replacing an element can only lower the count where it stops to count. -/
theorem countP_set_of {α : Type*} {f : α → Bool} {xs : List α} {x y : α} (hx : xs[i]? = some x) :
    (xs.set i y).countP f + (if f x then 1 else 0) = xs.countP f + if f y then 1 else 0 := by
  induction xs generalizing i with
  | nil => simp at hx
  | cons z xs ih =>
    cases i with
    | zero =>
      obtain rfl := Option.some.inj hx
      simp only [List.set_cons_zero, List.countP_cons]
      omega
    | succ i =>
      have hrest := ih hx
      simp only [List.set_cons_succ, List.countP_cons]
      omega

/-- An attempt that goes on stays handed out. -/
theorem handedOut_set (ha : attempts[i]? = some a) (ph : Phase) :
    (attempts.set i { a with phase := ph }).countP (fun a => a.activity.jobType = t) =
      attempts.countP fun a => a.activity.jobType = t := by
  have hcount := countP_set_of (f := fun a : Attempt => decide (a.activity.jobType = t))
    (y := { a with phase := ph }) ha
  exact Nat.add_right_cancel hcount

/-- A new attempt is one more. -/
theorem Pool.handedOut_begin (p : Pool) (act : Activity) :
    (p.begin act).handedOut t = p.handedOut t + if act.jobType = t then 1 else 0 := by
  simp [Pool.handedOut, Pool.begin, List.countP_append, List.countP_singleton]

/-- Whatever replaces an attempt that is past its claim is past it. -/
theorem pastClaim_set_le {b : Attempt} (ha : attempts[i]? = some a)
    (hact : b.activity = a.activity)
    (hpast : a.phase.unguarded = false → b.phase.unguarded = false) :
    (attempts.countP fun a => a.activity.jobType = t && !a.phase.unguarded) ≤
      (attempts.set i b).countP fun a => a.activity.jobType = t && !a.phase.unguarded := by
  have hcount := countP_set_of (y := b)
    (f := fun a : Attempt => decide (a.activity.jobType = t) && !a.phase.unguarded) ha
  cases hun : a.phase.unguarded with
  | true =>
    rw [hun, Bool.not_true, Bool.and_false, if_neg Bool.false_ne_true] at hcount
    omega
  | false =>
    rw [hact, hun, hpast hun] at hcount
    exact (Nat.add_right_cancel hcount).ge

/-- An attempt that is past its claim stays so, and one that commits its claim gets past it. -/
theorem Pool.pastClaim_step (hstep : p.step l = some p') :
    p.pastClaim t + (if (p.claim? t l).isSome then 1 else 0) ≤ p'.pastClaim t := by
  cases l with
  | begin act =>
    obtain rfl := Option.some.inj hstep
    simp [Pool.pastClaim, Pool.begin, Pool.claim?, List.countP_append, Phase.unguarded]
  | vanish i =>
    obtain ⟨a, ha, rfl⟩ := Pool.vanish_eq_some hstep
    exact pastClaim_set_le ha rfl fun _ => rfl
  | resume i ans =>
    obtain ⟨a, st, ph, ha, hres, rfl⟩ := Pool.resume_eq_some hstep
    cases hclaim : p.claim? t (.resume i ans) with
    | none => exact pastClaim_set_le ha rfl hres.guarded
    | some f =>
      obtain ⟨_, now, b, heq, hb, hclaim⟩ := Pool.claim?_eq_some.mp hclaim
      obtain ⟨rfl, rfl⟩ := PoolLabel.resume.inj heq
      obtain rfl := Option.some.inj (ha.symm.trans hb)
      obtain ⟨act, ph₀⟩ := a
      obtain ⟨rfl, rfl⟩ := Attempt.claim?_eq_some.mp hclaim
      -- a commit of a claim takes the attempt past it
      have hpast : ph.unguarded = false := by
        cases hres with
        | commitClaim => exact Phase.unguarded_of_chosen (claimed_chosen _)
      have hcount := countP_set_of (y := { activity := act, phase := ph })
        (f := fun a : Attempt => decide (a.activity.jobType = act.jobType) && !a.phase.unguarded) ha
      rw [hpast, if_neg (by simp [Phase.unguarded]), if_pos (by simp)] at hcount
      exact hcount.ge

/-- No count above the number of attempts past their claim is stored or about to be. -/
theorem Pool.Below.pastClaim_step (h : p.Below t (p.pastClaim t)) (hstep : p.step l = some p') :
    p'.Below t (p'.pastClaim t) := by
  have hpast := Pool.pastClaim_step (t := t) hstep
  have hattempts := h.step_attempts hstep
  refine h.step hstep (by omega) ?_
  cases hclaim : p.claim? t l with
  | none =>
    rw [hclaim, Option.elim_none] at hattempts
    have hstored := h.stored
    omega
  | some f =>
    obtain ⟨i, now, a, -, ha, hf⟩ := Pool.claim?_eq_some.mp hclaim
    have hloaded := h.pending i a ha f hf
    rw [hclaim, Option.isSome_some, if_pos rfl] at hpast
    rw [hclaim, Option.elim_some] at hattempts
    omega

/-- A request to retry leaves the jobs alone. -/
theorem Pool.Below.setRows {b : ℕ} {rows : VideoRows} (h : p.Below t b)
    (hjobs : ∀ t, rows.jobs t = p.rows.jobs t) {objects : List Str} :
    Pool.Below t b { p with store := ⟨rows, objects⟩ } where
  sound := h.sound.mono fun _ ha => ha.mono fun t ht => (hjobs t).symm ▸ ht
  spares := h.spares
  stored := (VideoRows.attempts_of_jobs (hjobs t)).le.trans h.stored
  pending := h.pending

/-! ## Executions -/

/-- A failed attempt has been used. -/
theorem taskUsed_fail {failures : ℕ} (task : Task) (error : ActivityError)
    (hle : failures + 1 ≤ maximumAttempts) :
    failures + 1 ≤ taskUsed (some { task with state := .fail failures error }) ∧
      taskUsed (some { task with state := .fail failures error }) ≤ maximumAttempts := by
  rcases TaskState.fail_cases failures error with hfail | hfail <;> rw [hfail]
  exacts [⟨hle, le_rfl⟩, ⟨le_rfl, hle⟩]

/-- What an activity may use has been used by the time its execution closes. -/
theorem Temporal.used_closed (h : ∀ tasks, tp.current = some tasks →
    ∀ t, taskUsed (tasks t) ≤ maximumAttempts) (status : ExecutionStatus) (t : JobType) :
    tp.used t ≤ Temporal.used t ⟨status :: tp.closed, none⟩ := by
  have hcurrent : (tp.current.elim 0 fun tasks => taskUsed (tasks t)) ≤ maximumAttempts := by
    cases hcurrent : tp.current with
    | none => exact Nat.zero_le _
    | some tasks => exact h tasks hcurrent t
  simp only [Temporal.used, List.length_cons, Option.elim_none, Nat.mul_add, Nat.mul_one]
  omega

/-- An activity of the open execution is replaced by one that has used as much. -/
theorem Temporal.used_setTask (hcurrent : tp.current = some tasks) (task : Task) {state : TaskState}
    (hle : taskUsed (tasks t') ≤ taskUsed (some { task with state := state })) (t : JobType) :
    tp.used t ≤ (tp.setTask t' tasks task state).used t := by
  simp only [Temporal.used, Temporal.setTask, hcurrent, Option.elim_some]
  by_cases ht : t = t'
  · subst ht
    rw [Function.update_self]
    exact Nat.add_le_add_left hle _
  · rw [Function.update_of_ne ht]

/-- The state of an activity changes within its budget. -/
theorem State.Budgeted.setTask (h : s.Budgeted) (hcurrent : s.temporal.current = some tasks)
    (htask : tasks t = some task) {state : TaskState}
    (hused : taskUsed (some task) ≤ taskUsed (some { task with state := state }))
    (hle : taskUsed (some { task with state := state }) ≤ maximumAttempts)
    (hpaid : State.Paid { s with temporal := s.temporal.setTask t tasks task state }) :
    State.Budgeted { s with temporal := s.temporal.setTask t tasks task state } where
  paid := hpaid
  within := fun tasks' htasks' t' => by
    obtain rfl := Option.some.inj htasks'
    by_cases ht : t' = t
    · subst ht
      rwa [Function.update_self]
    · rw [Function.update_of_ne ht]
      exact h.within tasks hcurrent t'
  handedOut := fun t' =>
    (h.handedOut t').trans (Temporal.used_setTask hcurrent task (htask ▸ hused) t')
  below := h.below

/-- An attempt that failed stays counted, also if it was the last of its activity. -/
theorem State.Budgeted.failed (h : s.Budgeted) (hcurrent : s.temporal.current = some tasks)
    (htask : tasks t = some task) {failures i : ℕ} (hstate : task.state = .running failures i)
    {error : ActivityError} (hpaid : State.Paid { s with
      temporal := s.temporal.setTask t tasks task (.fail failures error) }) :
    State.Budgeted { s with
      temporal := s.temporal.setTask t tasks task (.fail failures error) } := by
  have hwithin := h.within tasks hcurrent t
  rw [htask] at hwithin
  simp only [taskUsed, hstate] at hwithin
  obtain ⟨hused, hle⟩ := taskUsed_fail task error hwithin
  refine h.setTask hcurrent htask ?_ hle hpaid
  simpa only [taskUsed, hstate] using hused

/-- The attempt handed out is the next that its activity may use. -/
theorem State.Budgeted.dispatch (h : s.Budgeted) (hcurrent : s.temporal.current = some tasks)
    (htask : tasks t = some task) {failures : ℕ} (hstate : task.state = .waiting failures)
    (hpaid : State.Paid { s with
      temporal := s.temporal.setTask t tasks task (.running failures s.pool.attempts.length)
      pool := s.pool.begin task.activity }) :
    State.Budgeted { s with
      temporal := s.temporal.setTask t tasks task (.running failures s.pool.attempts.length)
      pool := s.pool.begin task.activity } where
  paid := hpaid
  within := fun tasks' htasks' t' => by
    obtain rfl := Option.some.inj htasks'
    -- the task handed out is the one whose count goes up
    by_cases ht : t' = t
    · subst ht
      rw [Function.update_self]
      exact (h.paid.tasks tasks hcurrent).budget t' task failures htask hstate
    · rw [Function.update_of_ne ht]
      exact h.within tasks hcurrent t'
  handedOut := fun t' => by
    have hact := ((h.paid.faithful.tasks tasks hcurrent).activity t task htask).1
    have hbefore := h.handedOut t'
    simp only [Temporal.used, hcurrent, Option.elim_some] at hbefore
    simp only [Temporal.used, Temporal.setTask, Option.elim_some, Pool.handedOut_begin, hact]
    by_cases ht : t' = t
    · subst ht
      rw [htask] at hbefore
      simp only [taskUsed, hstate] at hbefore
      simp only [Function.update_self, taskUsed, if_true]
      omega
    · rw [Function.update_of_ne ht, if_neg (Ne.symm ht)]
      exact hbefore
  below := fun t' => by
    have hstep : s.pool.step (.begin task.activity) = some (s.pool.begin task.activity) := rfl
    exact (h.below t').pastClaim_step hstep

/-- What an execution's activities have used stays counted when it closes. -/
theorem State.Budgeted.closed (h : s.Budgeted) {status : ExecutionStatus}
    (hpaid : State.Paid { s with temporal := ⟨status :: s.temporal.closed, none⟩ }) :
    State.Budgeted { s with temporal := ⟨status :: s.temporal.closed, none⟩ } where
  paid := hpaid
  within := fun tasks' htasks' => by cases htasks'
  handedOut := fun t => (h.handedOut t).trans (Temporal.used_closed h.within _ t)
  below := h.below

/-- Every step keeps to the budget. -/
theorem State.Budgeted.step {l : Label} (h : s.Budgeted) (hstep : s.step l = some s') :
    s'.Budgeted := by
  have hpaid := h.paid.step hstep
  cases State.step_moves hstep with
  | @resume i ans pool hpool =>
    have hpool' : s.pool.step (.resume i ans) = some pool := hpool
    refine ⟨hpaid, h.within, fun t => ?_, fun t => (h.below t).pastClaim_step hpool'⟩
    -- an attempt keeps its activity, so none is handed out
    obtain ⟨a, st, ph, ha, -, rfl⟩ := Pool.resume_eq_some hpool
    exact (handedOut_set ha ph).le.trans (h.handedOut t)
  | @vanish i pool hpool =>
    have hpool' : s.pool.step (.vanish i) = some pool := hpool
    refine ⟨hpaid, h.within, fun t => ?_, fun t => (h.below t).pastClaim_step hpool'⟩
    obtain ⟨a, ha, rfl⟩ := Pool.vanish_eq_some hpool
    exact (handedOut_set ha .vanished).le.trans (h.handedOut t)
  | dispatch hcurrent htask hstate => exact h.dispatch hcurrent htask hstate hpaid
  | @reportReturned t tasks task failures i a result hcurrent htask hstate =>
    have hwithin := h.within tasks hcurrent t
    rw [htask] at hwithin
    -- a report uses no further attempt
    have hused : taskUsed (some task) ≤ taskUsed (some { task with state := .succeeded result }) :=
      hwithin
    exact h.setTask hcurrent htask hused le_rfl hpaid
  | reportRaised hcurrent htask hstate => exact h.failed hcurrent htask hstate hpaid
  | timeOut hcurrent htask hstate => exact h.failed hcurrent htask hstate hpaid
  | decide hdecides =>
    cases hdecides with
    | @schedule tasks sourceHeight hcurrent hrun =>
      -- the transcode activity has not been scheduled before
      obtain ⟨-, -, -, -, hnone, -⟩ := run_eq_executeTranscode hrun
      refine ⟨hpaid, fun tasks' htasks' t => ?_, fun t => ?_, h.below⟩
      · obtain rfl := Option.some.inj htasks'
        cases t with
        | transcode => exact Nat.zero_le _
        | metadata => exact h.within tasks hcurrent .metadata
        | thumbnail => exact h.within tasks hcurrent .thumbnail
      · have hfresh : taskUsed (tasks .transcode) ≤
            taskUsed (some ⟨.transcode sourceHeight, .waiting 0⟩) := by
          rw [hnone]
          exact Nat.zero_le _
        exact (h.handedOut t).trans
          (Temporal.used_setTask hcurrent ⟨.transcode sourceHeight, .waiting 0⟩ hfresh t)
    | complete | fail => exact h.closed hpaid
  | start hd hstart =>
    -- a new execution has its own budget, and nothing of it is used
    obtain ⟨hcurrent, -, rfl⟩ := Temporal.startWorkflow_eq_some.mp hstart
    refine ⟨hpaid, fun tasks' htasks' t => ?_, fun t => ?_, h.below⟩
    · obtain rfl := Option.some.inj htasks'
      cases t <;> exact Nat.zero_le _
    · refine (h.handedOut t).trans ?_
      rw [Temporal.used, hcurrent]
      exact Nat.le_add_right _ _
  | retryCommit | retryVideo =>
    refine ⟨hpaid, h.within, h.handedOut, fun t => (h.below t).setRows ?_⟩
    exact fun _ => rfl
  | _ => exact ⟨hpaid, h.within, h.handedOut, h.below⟩

/-- A new video has used nothing. -/
theorem State.budgeted_created (videoId : UUID) (filename key : Str) :
    (State.created videoId filename key).Budgeted where
  paid := State.paid_created videoId filename key
  within := fun tasks htasks => by cases htasks
  handedOut := fun t => le_rfl
  below := fun t => ⟨Pool.sound_of_nil rfl, Pool.each_of_nil rfl, le_rfl, Pool.each_of_nil rfl⟩

/-- In every reachable state, for each of the three jobs: its `attempts` column is at most the
number of attempts handed out to workers for it, and these are at most three for each execution the
video has had. -/
theorem attempts_within_budget {videoId : UUID} {filename key : Str} {ls : List Label} {s : State}
    (hrun : exec State.step (.created videoId filename key) ls = some s) (t : JobType) :
    s.rows.attempts t ≤ s.pool.handedOut t ∧
      s.pool.handedOut t ≤ maximumAttempts * s.temporal.executions.length := by
  have h : s.Budgeted := exec_invariant (fun _ _ _ hq hstep => State.Budgeted.step hq hstep)
    (State.budgeted_created videoId filename key) hrun
  refine ⟨(h.below t).stored.trans ?_, (h.handedOut t).trans ?_⟩
  · refine List.countP_mono_left fun a _ ha => ?_
    exact (Bool.and_eq_true_iff.mp ha).1
  · rw [Temporal.used, Temporal.executions, List.length_append, Nat.mul_add, Nat.add_comm]
    refine Nat.add_le_add_right ?_ _
    cases hcurrent : s.temporal.current with
    | none => exact Nat.zero_le _
    | some tasks => exact h.within tasks hcurrent t

/-- The metadata attempt is killed after its claim and given up, and the next one claims the job
too. -/
def State.claimedTwice : List Label := List.flatten [
  [.notify, .receive 0, .start 0 .received, .dispatch .metadata], Label.resumes 0 4,
  [.vanish 0, .timeOut .metadata, .dispatch .metadata], Label.resumes 1 3]

/-- Two attempts were handed out, and both are counted. -/
theorem attempts_within_budget_clip : ∃ s,
    exec State.step State.clip State.claimedTwice = some s ∧ s.rows.attempts .metadata = 2 ∧
    s.rows.attempts .metadata ≤ s.pool.handedOut .metadata ∧
      s.pool.handedOut .metadata ≤ maximumAttempts * s.temporal.executions.length := by
  have hruns : (exec State.step State.clip State.claimedTwice).any fun s =>
      decide (s.rows.attempts .metadata = 2) := by decide +kernel
  obtain ⟨s, hrun, htwice⟩ := (Option.any_eq_true _ _).mp hruns
  exact ⟨s, hrun, of_decide_eq_true htwice, attempts_within_budget hrun .metadata⟩

end VideoProcessing
