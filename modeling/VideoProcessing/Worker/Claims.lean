import VideoProcessing.Library.Transitions
import VideoProcessing.Worker.Attempts

/-!
# The insert race of `claim_job`

`claim_job` on its own, with the fallback for a lost insert that `Phase.step` takes as one await:
the rollback expires the caller's `video`, and the fallback's first act is to read `video.id`. Any
number of sessions call it for one video and job type while other transactions change the rows.

The race is open until the first insert, and while it is open every call is at its select or about
to insert. The insert closes it, and whoever else is about to insert has lost.
-/

namespace VideoProcessing

open Python UnitOfWork Transitions

inductive ClaimError where
  | missingGreenlet
  /-- an attribute of `None` -/
  | attributeError
deriving DecidableEq, Repr

/-- The await a call of `claim_job` is suspended in. -/
inductive ClaimPhase where
  /-- the select of `get_by_video_and_type` -/
  | select (video : Persistent Video)
  /-- the commit of a new row -/
  | insert (video : Persistent Video)
  /-- `db.rollback()` after an IntegrityError -/
  | rollback (video : Persistent Video)
  /-- the select of the fallback -/
  | reselect (video : Persistent Video)
  /-- the last commit -/
  | commit (f : Frame)
  /-- the job is completed: returned None -/
  | completed (video : Tracked Video)
  /-- returned the job -/
  | claimed (f : Frame)
  | raised (error : ClaimError)
deriving DecidableEq

/-- `claim_job` from the row it has found to its last commit. -/
def claimRow (now : Time) (video : Persistent Video) (job : ProcessingJob) : ClaimPhase :=
  if job.status = .completed then .completed video.object
  else
    -- `video.status`
    match video.read with
    | none => .raised .missingGreenlet
    | some _ => .commit (claimJob now video.object (.fresh job))

/-- Run a call to its next await. -/
def ClaimPhase.step (t : JobType) (rows : VideoRows) (now : Time) :
    ClaimPhase → Option (VideoRows × ClaimPhase)
  | .select video =>
    match rows.jobs t with
    | none => some (rows, .insert video)
    | some job => some (rows, claimRow now video job)
  | .insert video =>
    match rows.jobs t with
    | none =>
      let jobs := Function.update rows.jobs t (some ProcessingJob.new)
      some ({ rows with jobs := jobs }, claimRow now video .new)
    | some _ => some (rows, .rollback video)
  | .rollback video =>
    -- `video.id`
    match video.rollback.read with
    | none => some (rows, .raised .missingGreenlet)
    | some _ => some (rows, .reselect video.rollback)
  | .reselect video =>
    match rows.jobs t with
    | none => some (rows, .raised .attributeError)
    | some job => some (rows, claimRow now video job)
  | .commit f => if f.accepted rows then some (f.commit t rows, .claimed f.committed) else none
  | .completed _ | .claimed _ | .raised _ => none

/-- The call is over. -/
def ClaimPhase.over : ClaimPhase → Bool
  | .completed _ | .claimed _ | .raised _ => true
  | _ => false

/-- The call has returned None, or the job as processing. -/
def ClaimPhase.survived : ClaimPhase → Bool
  | .completed _ => true
  | .claimed f => f.job.current.status = .processing
  | _ => false

/-- The call is about to commit a new row. -/
def ClaimPhase.inserting : ClaimPhase → Bool
  | .insert _ => true
  | _ => false

/-- The calls of `claim_job` for one video and job type. -/
structure Claims where
  rows : VideoRows
  calls : List ClaimPhase

inductive ClaimsLabel where
  /-- call `i` runs to its next await -/
  | resume (i : ℕ) (now : Time)
  /-- another transaction changes the rows; it neither inserts nor deletes the job -/
  | others (rows : VideoRows)

def Claims.step (t : JobType) (c : Claims) : ClaimsLabel → Option Claims
  | .resume i now => c.calls[i]?.bind fun call =>
    (call.step t c.rows now).map fun (rows, call') => ⟨rows, c.calls.set i call'⟩
  | .others rows =>
    if (rows.jobs t).isSome = (c.rows.jobs t).isSome then some { c with rows := rows } else none

/-- A step that inserts the row. -/
def Claims.inserts (t : JobType) (c : Claims) : ClaimsLabel → Bool
  | .resume i _ => c.calls[i]?.any ClaimPhase.inserting && (c.rows.jobs t).isNone
  | .others _ => false

/-- Count the successful inserts. -/
def Claims.inserted (t : JobType) (c : Claims) (l : ClaimsLabel) (n : ℕ) : ℕ :=
  if c.inserts t l then n + 1 else n

/-- A select finds no row only while no other call is about to insert one. -/
def Claims.unrivalled (t : JobType) (c : Claims) : ClaimsLabel → Bool
  | .resume i _ => match c.calls[i]? with
    | some (.select _) => (c.rows.jobs t).isSome || !c.calls.any ClaimPhase.inserting
    | _ => true
  | .others _ => true

abbrev Claims.Unrivalled (t : JobType) (c : Claims) (l : ClaimsLabel) : Prop :=
  c.unrivalled t l = true

variable {videoId : UUID} {act : Activity} {st : Store} {t : JobType} {rows rows' : VideoRows}
  {now : Time} {call call' : ClaimPhase} {c c' : Claims} {i : ℕ} {l : ClaimsLabel} {n : ℕ}

/-! ## The claim inside an activity -/

/-- What an attempt is doing while it calls `claim_job`. -/
inductive ClaimPhase.Shown (videoId : UUID) (act : Activity) : ClaimPhase → Phase → Prop
  | select {video : Tracked Video} : Shown videoId act (.select ⟨video, false⟩) (.selectJob video)
  | insert {video : Tracked Video} : Shown videoId act (.insert ⟨video, false⟩) (.insertJob video)
  | rollback {video : Persistent Video} :
      Shown videoId act (.rollback video) (.raised .missingGreenlet)
  | commit {f : Frame} : Shown videoId act (.commit f) (.commitClaim f)
  | completed {video : Tracked Video} :
      Shown videoId act (.completed video) (alreadyCompleted videoId act video)
  | claimed {f : Frame} : Shown videoId act (.claimed f) (VideoProcessing.claimed videoId act f)
  | raised : Shown videoId act (.raised .missingGreenlet) (.raised .missingGreenlet)

/-- A completed job is not claimed. -/
theorem claimRow_completed {video : Tracked Video} {job : ProcessingJob}
    (hstatus : job.status = .completed) :
    claimRow now ⟨video, false⟩ job = .completed video := if_pos hstatus

/-- Any other one is. -/
theorem claimRow_of_ne {video : Tracked Video} {job : ProcessingJob}
    (hstatus : job.status ≠ .completed) :
    claimRow now ⟨video, false⟩ job = .commit (claimJob now video (.fresh job)) := if_neg hstatus

/-- Every await of `claim_job` is an await of the attempt, except for the rollback: after a lost
insert the attempt is taken to have raised at once. -/
theorem ClaimPhase.Shown.step {ph : Phase} (h : call.Shown videoId act ph)
    (hstep : call.step act.jobType st.rows now = some (rows', call')) :
    ∃ ph', call'.Shown videoId act ph' ∧
      (ph.step videoId act st (.ok now) = some ({ st with rows := rows' }, ph') ∨
        rows' = st.rows ∧ ph' = ph) := by
  cases h with
  | @select video =>
    cases hjob : st.rows.jobs act.jobType with
    | none =>
      simp only [ClaimPhase.step, hjob, Option.some.injEq, Prod.mk.injEq] at hstep
      obtain ⟨rfl, rfl⟩ := hstep
      exact ⟨_, .insert, .inl (by simp only [Phase.step, hjob])⟩
    | some job =>
      simp only [ClaimPhase.step, hjob, Option.some.injEq, Prod.mk.injEq] at hstep
      obtain ⟨rfl, rfl⟩ := hstep
      by_cases hstatus : job.status = .completed
      · rw [claimRow_completed hstatus]
        exact ⟨_, .completed, .inl (by simp only [Phase.step, hjob, if_pos hstatus])⟩
      · rw [claimRow_of_ne hstatus]
        exact ⟨_, .commit, .inl (by simp only [Phase.step, hjob, if_neg hstatus])⟩
  | @insert video =>
    cases hjob : st.rows.jobs act.jobType with
    | none =>
      simp only [ClaimPhase.step, hjob, Option.some.injEq, Prod.mk.injEq] at hstep
      obtain ⟨rfl, rfl⟩ := hstep
      -- a row that is new is not completed
      rw [claimRow_of_ne (by decide)]
      exact ⟨_, .commit, .inl (by simp only [Phase.step, hjob])⟩
    | some job =>
      simp only [ClaimPhase.step, hjob, Option.some.injEq, Prod.mk.injEq] at hstep
      obtain ⟨rfl, rfl⟩ := hstep
      exact ⟨_, .rollback, .inl (by simp only [Phase.step, hjob])⟩
  | rollback =>
    obtain ⟨rfl, rfl⟩ := Prod.mk.inj (Option.some.inj hstep)
    -- the phases take the rollback and the refresh after it in one step
    exact ⟨_, .raised, .inr ⟨rfl, rfl⟩⟩
  | @commit f =>
    simp only [ClaimPhase.step, Option.ite_none_right_eq_some, Option.some.injEq,
      Prod.mk.injEq] at hstep
    obtain ⟨haccepted, rfl, rfl⟩ := hstep
    exact ⟨_, .claimed, .inl (by simp only [Phase.step, if_pos haccepted])⟩
  | completed | claimed | raised => cases hstep

/-! ## One await of a call -/

/-- A call that has not lost an insert. -/
inductive ClaimPhase.Safe : ClaimPhase → Prop
  | select {video : Tracked Video} : Safe (.select ⟨video, false⟩)
  | insert {video : Tracked Video} : Safe (.insert ⟨video, false⟩)
  | commit {f : Frame} (hstatus : f.job.current.status = .processing) : Safe (.commit f)
  | completed {video : Tracked Video} : Safe (.completed video)
  | claimed {f : Frame} (hstatus : f.job.current.status = .processing) : Safe (.claimed f)

/-- A call that has lost its insert raises sooner or later. -/
inductive ClaimPhase.Lost : ClaimPhase → Prop
  | insert {video : Persistent Video} : Lost (.insert video)
  | rollback {video : Persistent Video} : Lost (.rollback video)
  | raised : Lost (.raised .missingGreenlet)

/-- A call that has found the row inserts nothing. -/
theorem claimRow_safe (now : Time) (video : Tracked Video) (job : ProcessingJob) :
    (claimRow now ⟨video, false⟩ job).Safe ∧
      (claimRow now ⟨video, false⟩ job).inserting = false := by
  by_cases hstatus : job.status = .completed
  · rw [claimRow_completed hstatus]
    exact ⟨.completed, rfl⟩
  · rw [claimRow_of_ne hstatus]
    exact ⟨.commit rfl, rfl⟩

/-- A call comes to insert only from a select that finds no row; it makes the row only by an
insert that finds none, and no await takes the row away. -/
theorem ClaimPhase.Safe.step (h : call.Safe) (hstep : call.step t rows now = some (rows', call'))
    (hrow : call.inserting = true → rows.jobs t = none) :
    call'.Safe ∧
      ((rows'.jobs t).isSome = ((rows.jobs t).isSome || call.inserting)) ∧
      (call'.inserting = true → (∃ video, call = .select video) ∧ rows.jobs t = none) := by
  cases h with
  | @select video =>
    cases hjob : rows.jobs t with
    | none =>
      simp only [ClaimPhase.step, hjob, Option.some.injEq, Prod.mk.injEq] at hstep
      obtain ⟨rfl, rfl⟩ := hstep
      exact ⟨.insert, by rw [hjob]; rfl, fun _ => ⟨⟨_, rfl⟩, rfl⟩⟩
    | some job =>
      simp only [ClaimPhase.step, hjob, Option.some.injEq, Prod.mk.injEq] at hstep
      obtain ⟨rfl, rfl⟩ := hstep
      obtain ⟨hsafe, hinserting⟩ := claimRow_safe now video job
      exact ⟨hsafe, by rw [hjob]; rfl, fun hins => by cases hinserting.symm.trans hins⟩
  | @insert video =>
    -- a call that is safe at its insert finds no row
    have hjob := hrow rfl
    simp only [ClaimPhase.step, hjob, Option.some.injEq, Prod.mk.injEq] at hstep
    obtain ⟨rfl, rfl⟩ := hstep
    obtain ⟨hsafe, hinserting⟩ := claimRow_safe now video ProcessingJob.new
    refine ⟨hsafe, ?_, fun hins => by cases hinserting.symm.trans hins⟩
    simp [hjob, ClaimPhase.inserting]
  | @commit f hstatus =>
    simp only [ClaimPhase.step, Option.ite_none_right_eq_some, Option.some.injEq,
      Prod.mk.injEq] at hstep
    obtain ⟨-, rfl, rfl⟩ := hstep
    refine ⟨.claimed hstatus, ?_, fun hins => absurd hins Bool.false_ne_true⟩
    simp [Frame.commit, ClaimPhase.inserting]
  | completed | claimed => cases hstep

/-- A lost call stays lost. -/
theorem ClaimPhase.Lost.step (h : call.Lost) (hrow : rows.jobs t ≠ none)
    (hstep : call.step t rows now = some (rows', call')) :
    call'.Lost ∧ rows' = rows := by
  cases h with
  | insert =>
    obtain ⟨job, hjob⟩ := Option.ne_none_iff_exists'.mp hrow
    simp only [ClaimPhase.step, hjob, Option.some.injEq, Prod.mk.injEq] at hstep
    obtain ⟨rfl, rfl⟩ := hstep
    exact ⟨.rollback, rfl⟩
  | rollback =>
    obtain ⟨rfl, rfl⟩ := Prod.mk.inj (Option.some.inj hstep)
    exact ⟨.raised, rfl⟩
  | raised => cases hstep

/-- Only a call that inserts can lose. -/
theorem ClaimPhase.Safe.lost_iff (h : call.Safe) : call.Lost ↔ call.inserting = true := by
  constructor
  · rintro (_ | _ | _)
    · rfl
    · cases h
    · cases h
  · cases h with
    | insert => exact fun _ => .insert
    | select | commit | completed | claimed => exact fun hins => absurd hins Bool.false_ne_true

/-! ## The calls before and after the insert -/

/-- No row yet: the calls are before their selects or about to insert. -/
structure Claims.Open (t : JobType) (c : Claims) : Prop where
  row : c.rows.jobs t = none
  calls : ∀ (i : ℕ) (call : ClaimPhase), c.calls[i]? = some call →
    ∃ video, call = .select ⟨video, false⟩ ∨ call = .insert ⟨video, false⟩

/-- The row exists: the calls are safe or have lost their insert. -/
structure Claims.Closed (t : JobType) (c : Claims) : Prop where
  row : c.rows.jobs t ≠ none
  calls : ∀ (i : ℕ) (call : ClaimPhase), c.calls[i]? = some call → call.Safe ∨ call.Lost

/-- Some call loses. -/
def Claims.Losing (c : Claims) : Prop :=
  ∃ (i : ℕ) (call : ClaimPhase), c.calls[i]? = some call ∧ call.Lost

/-- At most one call is about to insert. -/
def Claims.Single (c : Claims) : Prop :=
  ∀ (i j : ℕ) (call call' : ClaimPhase), c.calls[i]? = some call → c.calls[j]? = some call' →
    call.inserting = true → call'.inserting = true → i = j

/-- The step of a call. -/
theorem Claims.resume_eq_some (h : c.step t (.resume i now) = some c') :
    ∃ call rows' call', c.calls[i]? = some call ∧
      call.step t c.rows now = some (rows', call') ∧ c' = ⟨rows', c.calls.set i call'⟩ := by
  obtain ⟨call, hcall, h⟩ := Option.bind_eq_some_iff.mp h
  obtain ⟨⟨rows', call'⟩, hstep, rfl⟩ := Option.map_eq_some_iff.mp h
  exact ⟨call, rows', call', hcall, hstep, rfl⟩

/-- Everything else leaves the rows of jobs there are. -/
theorem Claims.others_eq_some {rows : VideoRows} (h : c.step t (.others rows) = some c') :
    (rows.jobs t).isSome = (c.rows.jobs t).isSome ∧ c' = { c with rows := rows } := by
  obtain ⟨hsome, h⟩ := Option.ite_none_right_eq_some.mp h
  exact ⟨hsome, (Option.some.inj h).symm⟩

/-- Before the insert: another transaction leaves the calls alone, a select that finds no row
leads to an insert, and the first insert succeeds. -/
theorem Claims.Open.step_cases (h : c.Open t) (hstep : c.step t l = some c') :
    (c.inserts t l = false ∧ c.unrivalled t l = true ∧ c'.Open t ∧ c'.calls = c.calls) ∨
    (c.inserts t l = false ∧ c'.Open t ∧
      (c.unrivalled t l = true ↔ ∀ (j : ℕ) (call : ClaimPhase), c.calls[j]? = some call →
        call.inserting = false) ∧
      ∃ i video, c.calls[i]? = some (.select ⟨video, false⟩) ∧
        c'.calls = c.calls.set i (.insert ⟨video, false⟩)) ∨
    (c.inserts t l = true ∧ c.unrivalled t l = true ∧ c'.rows.jobs t ≠ none ∧
      ∃ i call call', c.calls[i]? = some call ∧ call.inserting = true ∧ call'.Safe ∧
        call'.inserting = false ∧ c'.calls = c.calls.set i call') := by
  cases l with
  | others rows =>
    obtain ⟨hsome, rfl⟩ := Claims.others_eq_some hstep
    refine .inl ⟨rfl, rfl, ⟨?_, h.calls⟩, rfl⟩
    rw [h.row] at hsome
    exact Option.isNone_iff_eq_none.mp (by simpa using hsome)
  | resume i now =>
    obtain ⟨call, rows', call', hcall, hres, rfl⟩ := Claims.resume_eq_some hstep
    obtain ⟨video, rfl | rfl⟩ := h.calls i call hcall
    · -- a call that selects no row goes on to insert, one that inserts closes the race
      simp only [ClaimPhase.step, h.row, Option.some.injEq, Prod.mk.injEq] at hres
      obtain ⟨rfl, rfl⟩ := hres
      refine .inr (.inl ⟨?_, ⟨h.row, fun j call hj => ?_⟩, ?_, i, video, hcall, rfl⟩)
      · simp [Claims.inserts, hcall, ClaimPhase.inserting]
      · rcases getElem?_set_cases hj with ⟨-, rfl⟩ | ⟨-, hj⟩
        · exact ⟨video, .inr rfl⟩
        · exact h.calls j call hj
      · simp only [Claims.unrivalled, hcall, h.row, Option.isSome_none, Bool.false_or,
          Bool.not_eq_true', List.any_eq_false, Bool.not_eq_true]
        refine ⟨fun hnone j call hj => hnone call (List.mem_of_getElem? hj),
          fun hnone call hmem => ?_⟩
        obtain ⟨j, hj⟩ := List.mem_iff_getElem?.mp hmem
        exact hnone j call hj
    · simp only [ClaimPhase.step, h.row, Option.some.injEq, Prod.mk.injEq] at hres
      obtain ⟨rfl, rfl⟩ := hres
      -- a call that inserts closes the race
      obtain ⟨hsafe, hinserting⟩ := claimRow_safe now video ProcessingJob.new
      refine .inr (.inr ⟨?_, ?_, ?_, i, _, _, hcall, rfl, hsafe, hinserting, rfl⟩)
      · simp [Claims.inserts, hcall, h.row, ClaimPhase.inserting]
      · simp [Claims.unrivalled, hcall]
      · simp

/-- After it: nothing is inserted, and a call loses exactly when one has been losing. -/
theorem Claims.Closed.step (h : c.Closed t) (hstep : c.step t l = some c') :
    c'.Closed t ∧ c.inserts t l = false ∧ c.unrivalled t l = true ∧ (c'.Losing ↔ c.Losing) := by
  obtain ⟨job, hjob⟩ := Option.ne_none_iff_exists'.mp h.row
  cases l with
  | others rows =>
    obtain ⟨hsome, rfl⟩ := Claims.others_eq_some hstep
    refine ⟨⟨?_, h.calls⟩, rfl, rfl, Iff.rfl⟩
    rw [hjob] at hsome
    exact Option.ne_none_iff_isSome.mpr hsome
  | resume i now =>
    obtain ⟨call, rows', call', hcall, hres, rfl⟩ := Claims.resume_eq_some hstep
    have hinserts : c.inserts t (.resume i now) = false := by simp [Claims.inserts, hjob]
    have hunrivalled : c.unrivalled t (.resume i now) = true := by
      cases call <;> simp [Claims.unrivalled, hcall, hjob]
    have hkeep (hrow : rows'.jobs t ≠ none) (hcall' : call'.Safe ∨ call'.Lost)
        (hlost : call'.Lost ↔ call.Lost) :
        Claims.Closed t ⟨rows', c.calls.set i call'⟩ ∧
          (Claims.Losing ⟨rows', c.calls.set i call'⟩ ↔ c.Losing) := by
      refine ⟨⟨hrow, fun j call₁ hj => ?_⟩, ?_, ?_⟩
      · rcases getElem?_set_cases hj with ⟨-, rfl⟩ | ⟨-, hj⟩
        · exact hcall'
        · exact h.calls j call₁ hj
      · rintro ⟨j, call₁, hj, hcall₁⟩
        rcases getElem?_set_cases hj with ⟨-, rfl⟩ | ⟨-, hj⟩
        · exact ⟨i, call, hcall, hlost.mp hcall₁⟩
        · exact ⟨j, call₁, hj, hcall₁⟩
      · rintro ⟨j, call₁, hj, hcall₁⟩
        by_cases hji : j = i
        · subst hji
          obtain rfl := Option.some.inj (hcall.symm.trans hj)
          exact ⟨j, call', getElem?_set_self_of hcall, hlost.mpr hcall₁⟩
        · exact ⟨j, call₁, by rw [List.getElem?_set_ne (Ne.symm hji)]; exact hj, hcall₁⟩
    -- a call that found no row is lost already, any other one finds the row now
    by_cases hlost : call.Lost
    · obtain ⟨hlost', rfl⟩ := hlost.step h.row hres
      obtain ⟨hclosed, hlosing⟩ := hkeep h.row (.inr hlost') (iff_of_true hlost' hlost)
      exact ⟨hclosed, hinserts, hunrivalled, hlosing⟩
    · have hsafe := (h.calls i call hcall).resolve_right hlost
      have hnot : ¬ call.inserting = true := fun hins => hlost (hsafe.lost_iff.mpr hins)
      obtain ⟨hsafe', hrow, hinserting⟩ := hsafe.step hres fun hins => absurd hins hnot
      have hlost' : ¬ call'.Lost := fun hl => by
        cases hjob.symm.trans (hinserting (hsafe'.lost_iff.mp hl)).2
      rw [hjob, Option.isSome_some, Bool.true_or] at hrow
      obtain ⟨hclosed, hlosing⟩ := hkeep (Option.ne_none_iff_isSome.mpr hrow) (.inl hsafe')
        (iff_of_false hlost' hlost)
      exact ⟨hclosed, hinserts, hunrivalled, hlosing⟩

/-! ## Runs -/

/-- Nobody has lost or is bound to lose the insert. -/
def Claims.Winning (t : JobType) (q : Claims × ℕ) : Prop :=
  q.2 = 0 ∧ q.1.Open t ∧ q.1.Single ∨ q.2 = 1 ∧ q.1.Closed t ∧ ¬ q.1.Losing

/-- Somebody has lost or is bound to lose it. -/
def Claims.Lost (t : JobType) (q : Claims × ℕ) : Prop :=
  q.2 = 0 ∧ q.1.Open t ∧ ¬ q.1.Single ∨ q.2 = 1 ∧ q.1.Closed t ∧ q.1.Losing

variable {q q' : Claims × ℕ}

/-- An insert counts. -/
theorem Claims.inserted_of_true (h : c.inserts t l = true) : c.inserted t l n = n + 1 := if_pos h

/-- Nothing else does. -/
theorem Claims.inserted_of_false (h : c.inserts t l = false) : c.inserted t l n = n := by
  rw [Claims.inserted, h]
  rfl

/-- It is a matter of the calls. -/
theorem Claims.Single.of_calls (h : c.Single) (hcalls : c'.calls = c.calls) : c'.Single := by
  rw [Claims.Single, hcalls]
  exact h

/-- The insert succeeds, and the other calls are as they were. -/
theorem Claims.Open.closed (h : c.Open t) (hrow : c'.rows.jobs t ≠ none) (hsafe : call'.Safe)
    (hcalls : c'.calls = c.calls.set i call') : c'.Closed t := by
  refine ⟨hrow, fun j call hj => ?_⟩
  rw [hcalls] at hj
  rcases getElem?_set_cases hj with ⟨-, rfl⟩ | ⟨-, hj⟩
  · exact .inl hsafe
  · obtain ⟨video, rfl | rfl⟩ := h.calls j call hj
    · exact .inl .select
    · exact .inl .insert

/-- Without a rival the one that inserts wins. -/
theorem Claims.Winning.keep (h : Claims.Winning t q)
    (hstep : observe (Claims.inserted t) (Claims.step t) q l = some q')
    (hunrivalled : q.1.Unrivalled t l) : Claims.Winning t q' := by
  obtain ⟨hstep, hn⟩ := observe_eq_some.mp hstep
  rcases h with ⟨hzero, hopen, hsingle⟩ | ⟨hone, hclosed, hnot⟩
  -- nobody moves in the race, a call joins it alone, or the one call inserts
  · rcases hopen.step_cases hstep with ⟨hins, -, hopen', hcalls⟩ |
      ⟨hins, hopen', hiff, i, video, hi, hcalls⟩ | ⟨hins, -, hrow, i, call, call', hi, hcall, hsafe,
        hnot, hcalls⟩
    · rw [Claims.inserted_of_false hins, hzero] at hn
      exact .inl ⟨hn, hopen', hsingle.of_calls hcalls⟩
    · rw [Claims.inserted_of_false hins, hzero] at hn
      refine .inl ⟨hn, hopen', fun j k call call' hj hk hcall hcall' => ?_⟩
      rw [hcalls] at hj hk
      have hnone := hiff.mp hunrivalled
      rcases getElem?_set_cases hj with ⟨rfl, -⟩ | ⟨-, hj⟩
      · rcases getElem?_set_cases hk with ⟨rfl, -⟩ | ⟨-, hk⟩
        · rfl
        · cases (hnone k call' hk).symm.trans hcall'
      · cases (hnone j call hj).symm.trans hcall
    · rw [Claims.inserted_of_true hins, hzero] at hn
      refine .inr ⟨hn, hopen.closed hrow hsafe hcalls, ?_⟩
      rintro ⟨j, call₁, hj, hlost⟩
      rw [hcalls] at hj
      rcases getElem?_set_cases hj with ⟨-, rfl⟩ | ⟨hji, hj⟩
      · cases hnot.symm.trans (hsafe.lost_iff.mp hlost)
      -- a second call about to insert would rival the first
      · obtain ⟨video, rfl | rfl⟩ := hopen.calls j call₁ hj
        · cases hlost
        · exact hji (hsingle j i _ call hj hi rfl hcall)
  · obtain ⟨hclosed', hins, -, hlosing⟩ := hclosed.step hstep
    rw [Claims.inserted_of_false hins, hone] at hn
    exact .inr ⟨hn, hclosed', fun hl => hnot (hlosing.mp hl)⟩

/-- With a rival one of them has lost. -/
theorem Claims.Winning.break (h : Claims.Winning t q)
    (hstep : observe (Claims.inserted t) (Claims.step t) q l = some q')
    (hunrivalled : ¬ q.1.Unrivalled t l) : Claims.Lost t q' := by
  obtain ⟨hstep, hn⟩ := observe_eq_some.mp hstep
  rcases h with ⟨hzero, hopen, -⟩ | ⟨-, hclosed, -⟩
  · rcases hopen.step_cases hstep with ⟨-, htrue, -⟩ | ⟨hins, hopen', hiff, i, video, hi, hcalls⟩ |
      ⟨-, htrue, -⟩
    · exact absurd htrue hunrivalled
    · rw [Claims.inserted_of_false hins, hzero] at hn
      refine .inl ⟨hn, hopen', fun hsingle => hunrivalled (hiff.mpr fun j call hj => ?_)⟩
      by_contra hcall
      have hcall : call.inserting = true := by simpa using hcall
      have hji : j ≠ i := by
        rintro rfl
        obtain rfl := Option.some.inj (hi.symm.trans hj)
        exact absurd hcall Bool.false_ne_true
      refine hji (hsingle j i call (.insert ⟨video, false⟩) ?_ ?_ hcall rfl)
      · rw [hcalls, List.getElem?_set_ne (Ne.symm hji)]
        exact hj
      · rw [hcalls]
        exact getElem?_set_self_of hi
    · exact absurd htrue hunrivalled
  · exact absurd (hclosed.step hstep).2.2.1 hunrivalled

/-- Two calls are about to insert. -/
theorem Claims.not_single_iff : ¬ c.Single ↔ ∃ (i j : ℕ) (call call' : ClaimPhase), i ≠ j ∧
    c.calls[i]? = some call ∧ c.calls[j]? = some call' ∧ call.inserting = true ∧
      call'.inserting = true := by
  rw [Claims.Single]
  push Not
  constructor
  · rintro ⟨i, j, call, call', hi, hj, hcall, hcall', hij⟩
    exact ⟨i, j, call, call', hij, hi, hj, hcall, hcall'⟩
  · rintro ⟨i, j, call, call', hij, hi, hj, hcall, hcall'⟩
    exact ⟨i, j, call, call', hi, hj, hcall, hcall', hij⟩

/-- What is lost stays lost. -/
theorem Claims.Lost.step (h : Claims.Lost t q)
    (hstep : observe (Claims.inserted t) (Claims.step t) q l = some q') : Claims.Lost t q' := by
  obtain ⟨hstep, hn⟩ := observe_eq_some.mp hstep
  rcases h with ⟨hzero, hopen, hdouble⟩ | ⟨hone, hclosed, hlosing⟩
  · obtain ⟨j, k, call₁, call₂, hjk, hj, hk, hcall₁, hcall₂⟩ := Claims.not_single_iff.mp hdouble
    rcases hopen.step_cases hstep with ⟨hins, -, hopen', hcalls⟩ |
      ⟨hins, hopen', -, i, video, hi, hcalls⟩ | ⟨hins, -, hrow, i, call, call', hi, hcall, hsafe,
        hnot, hcalls⟩
    · rw [Claims.inserted_of_false hins, hzero] at hn
      exact .inl ⟨hn, hopen', fun hsingle => hdouble (hsingle.of_calls hcalls.symm)⟩
    · rw [Claims.inserted_of_false hins, hzero] at hn
      -- the call that selects is none of the two about to insert
      have hstay {m : ℕ} {call : ClaimPhase} (hm : q.1.calls[m]? = some call)
          (hcall : call.inserting = true) : q'.1.calls[m]? = some call := by
        have hmi : i ≠ m := by
          rintro rfl
          obtain rfl := Option.some.inj (hi.symm.trans hm)
          exact absurd hcall Bool.false_ne_true
        rw [hcalls, List.getElem?_set_ne hmi]
        exact hm
      exact .inl ⟨hn, hopen', Claims.not_single_iff.mpr
        ⟨j, k, call₁, call₂, hjk, hstay hj hcall₁, hstay hk hcall₂, hcall₁, hcall₂⟩⟩
    · rw [Claims.inserted_of_true hins, hzero] at hn
      -- one of the two is still about to insert
      have hlose {m : ℕ} {call : ClaimPhase} (hmi : i ≠ m) (hm : q.1.calls[m]? = some call)
          (hcall : call.inserting = true) : q'.1.Losing := by
        refine ⟨m, call, by rw [hcalls, List.getElem?_set_ne hmi]; exact hm, ?_⟩
        obtain ⟨video, rfl | rfl⟩ := hopen.calls m call hm
        · exact absurd hcall Bool.false_ne_true
        · exact .insert
      refine .inr ⟨hn, hopen.closed hrow hsafe hcalls, ?_⟩
      by_cases hij : i = j
      · exact hlose (hij ▸ hjk) hk hcall₂
      · exact hlose hij hj hcall₁
  · obtain ⟨hclosed', hins, -, hiff⟩ := hclosed.step hstep
    rw [Claims.inserted_of_false hins, hone] at hn
    exact .inr ⟨hn, hclosed', hiff.mpr hlosing⟩

/-- No call disappears. -/
theorem Claims.step_ne_nil (h : c.step t l = some c') (hcalls : c.calls ≠ []) : c'.calls ≠ [] := by
  cases l with
  | others rows =>
    obtain ⟨-, rfl⟩ := Claims.others_eq_some h
    exact hcalls
  | resume i now =>
    obtain ⟨call, rows', call', -, -, rfl⟩ := Claims.resume_eq_some h
    simpa using hcalls

/-- While it is open a call is left. -/
theorem Claims.Open.not_over (h : c.Open t) (hcalls : c.calls ≠ []) :
    ¬ ∀ call ∈ c.calls, call.over = true := by
  intro hover
  obtain ⟨call, hmem⟩ := List.exists_mem_of_ne_nil _ hcalls
  obtain ⟨i, hi⟩ := List.mem_iff_getElem?.mp hmem
  obtain ⟨video, rfl | rfl⟩ := h.calls i call hi <;>
    exact absurd (hover _ hmem) Bool.false_ne_true

/-- Where all calls of `claim_job` are over, exactly one insert has succeeded and every call has
returned the job as processing, or None, exactly when no select has found no row while another call
was about to insert one. -/
theorem claim_race (t : JobType) {c c' : Claims} {ls : List ClaimsLabel} {n : ℕ}
    (hrow : c.rows.jobs t = none) (hcalls : c.calls ≠ [])
    (hselect : ∀ call ∈ c.calls, ∃ video, call = .select ⟨video, false⟩)
    (hrun : exec (observe (Claims.inserted t) (Claims.step t)) (c, 0) ls = some (c', n))
    (hover : ∀ call ∈ c'.calls, call.over = true) :
    (n = 1 ∧ ∀ call ∈ c'.calls, call.survived = true) ↔
      exec (restrict (Claims.Unrivalled t) (Claims.step t)) c ls = some c' := by
  -- at the start nobody has inserted
  have hwinning : Claims.Winning t (c, 0) := by
    refine .inl ⟨rfl, ⟨hrow, fun i call hi => ?_⟩, fun i j call call' hi _ hcall => ?_⟩
    · obtain ⟨video, hvideo⟩ := hselect call (List.mem_of_getElem? hi)
      exact ⟨video, .inl hvideo⟩
    · obtain ⟨video, rfl⟩ := hselect call (List.mem_of_getElem? hi)
      exact absurd hcall Bool.false_ne_true
  have hcalls' : c'.calls ≠ [] :=
    exec_invariant (fun _ _ _ hq hstep => Claims.step_ne_nil hstep hq) hcalls
      (exec_of_observe hrun)
  rcases exec_restrict_cases (fun _ _ _ => Claims.Winning.keep)
    (fun _ _ _ => Claims.Winning.break) (fun _ _ _ => Claims.Lost.step) hwinning hrun with
    ⟨⟨-, hopen, -⟩ | ⟨hone, hclosed, hnot⟩, hexec⟩ |
    ⟨⟨-, hopen, -⟩ | ⟨-, hclosed, i, call, hi, hlost⟩, hexec⟩
  -- every call is over, so the race cannot be open
  · exact absurd hover (hopen.not_over hcalls')
  · refine iff_of_true ⟨hone, fun call hmem => ?_⟩ hexec
    obtain ⟨i, hi⟩ := List.mem_iff_getElem?.mp hmem
    have hsafe := (hclosed.calls i call hi).resolve_right fun hl => hnot ⟨i, call, hi, hl⟩
    have hcall := hover call hmem
    cases hsafe with
    | completed => rfl
    | claimed hstatus => exact decide_eq_true hstatus
    | select | insert | commit => exact absurd hcall Bool.false_ne_true
  · exact absurd hover (hopen.not_over hcalls')
  · refine iff_of_false (fun hall => ?_) (fun h => by cases hexec.symm.trans h)
    have hsurvived := hall.2 call (List.mem_of_getElem? hi)
    cases hlost <;> exact absurd hsurvived Bool.false_ne_true

/-- Two calls for the first job of a video that has none. -/
def Claims.pair : Claims where
  rows := .new (.new (str "clip.mp4") (str "key"))
  calls :=
    let video := Video.new (str "clip.mp4") (str "key")
    [.select ⟨.fresh video, false⟩, .select ⟨.fresh video, false⟩]

/-- The second of two calls loses the race. -/
theorem claim_race_pair : ∃ c,
    exec (observe (Claims.inserted .metadata) (Claims.step .metadata)) (.pair, 0)
      [.resume 0 0, .resume 0 0, .resume 1 0, .resume 0 0, .resume 1 0] = some (c, 1) ∧
    ∀ call ∈ c.calls, call.survived = true := by
  have hobserve : (exec (observe (Claims.inserted .metadata) (Claims.step .metadata)) (.pair, 0)
      [.resume 0 0, .resume 0 0, .resume 1 0, .resume 0 0, .resume 1 0]).any fun q =>
        decide (q.2 = 1) && q.1.calls.all ClaimPhase.over := by decide +kernel
  have hrestrict : (exec (restrict (Claims.Unrivalled .metadata) (Claims.step .metadata)) .pair
      [.resume 0 0, .resume 0 0, .resume 1 0, .resume 0 0, .resume 1 0]).isSome := by
    decide +kernel
  obtain ⟨⟨c, n⟩, hrun, hc⟩ := (Option.any_eq_true _ _).mp hobserve
  simp only [Bool.and_eq_true, decide_eq_true_iff, List.all_eq_true] at hc
  obtain ⟨rfl, hover⟩ := hc
  obtain ⟨c', hc'⟩ := Option.isSome_iff_exists.mp hrestrict
  obtain rfl : c = c' := Option.some.inj ((exec_of_observe hrun).symm.trans (exec_of_restrict hc'))
  refine ⟨c, hrun, ((claim_race .metadata rfl (List.cons_ne_nil _ _) (fun call hmem => ?_) hrun
    hover).mpr hc').2⟩
  rcases List.mem_cons.mp hmem with rfl | hmem
  · exact ⟨_, rfl⟩
  · exact ⟨_, List.mem_singleton.mp hmem⟩

/-- Both select before either inserts: the second call raises. -/
theorem claim_race_raises : ∃ c,
    exec (observe (Claims.inserted .metadata) (Claims.step .metadata)) (.pair, 0)
      [.resume 0 0, .resume 1 0, .resume 0 0, .resume 0 0, .resume 1 0, .resume 1 0] =
        some (c, 1) ∧
    (∀ call ∈ c.calls, call.over = true) ∧
    c.calls[1]? = some (.raised .missingGreenlet) := by
  have hrun : (exec (observe (Claims.inserted .metadata) (Claims.step .metadata)) (.pair, 0)
      [.resume 0 0, .resume 1 0, .resume 0 0, .resume 0 0, .resume 1 0, .resume 1 0]).any
      fun q => decide (q.2 = 1) && q.1.calls.all ClaimPhase.over &&
        decide (q.1.calls[1]? = some (.raised .missingGreenlet)) := by decide +kernel
  obtain ⟨⟨c, n⟩, hrun, hc⟩ := (Option.any_eq_true _ _).mp hrun
  simp only [Bool.and_eq_true, decide_eq_true_iff, List.all_eq_true] at hc
  obtain ⟨⟨rfl, hover⟩, hraised⟩ := hc
  exact ⟨c, hrun, hover, hraised⟩

end VideoProcessing
