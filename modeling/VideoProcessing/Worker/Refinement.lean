import VideoProcessing.Library.Selection
import VideoProcessing.Worker.Following
import VideoProcessing.Worker.Holding

/-!
# The activities as they are written refine their phases

In every run of a host, with any interleaving of its activity functions, with cancellations and
kills and with exits of blocks that raise, the rows and the ends of the functions are those of a run
of the pool of phases, and S3 holds what the phases stored. It may hold more: an object is stored
before the blocks around its upload are left, and when one of these exits fails, the phase that
stands for the function fails at the upload. What the rest of this development shows of the pool's
rows, and of objects that are there, therefore holds of the code with its blocks and handlers. In
the same runs an activity holds exactly what it should at every await.
-/

namespace VideoProcessing

open Python UnitOfWork Coroutine Transitions Selection

/-! ## One activity function -/

/-- The script has gone on to its next await, or to its end. -/
def Settled : ActivityScript → Prop
  | .acquire .. | .release .. => False
  | _ => True

/-- Going on ends at an await or at the end. -/
theorem settle_settled (script : ActivityScript) (held : List Resource) :
    Settled (script.settle held).1 := by
  induction script generalizing held with
  | done result => exact trivial
  | acquire r rest ih => exact ih _
  | release r rest ih => exact ih _
  | await op rest _ => exact trivial

/-- A phase sees no difference. -/
theorem settle_follows {decimal : ℕ → Option ℕ} {videoId : UUID} {act : Activity} {b : Shadow}
    {Q : Except Interrupt (Option VideoMetadata) × Time → Shadow → Prop} {script : ActivityScript}
    {held : List Resource} (h : script.wp (follows decimal videoId act) Q b) :
    (script.settle held).1.wp (follows decimal videoId act) Q b := by
  induction script generalizing held with
  | done result => exact h
  | acquire r rest ih => exact ih h
  | release r rest ih => exact ih h
  | await op rest _ => exact h

/-- How an activity function has ended. -/
def Fiber.result (fiber : Fiber) : Option (Except Interrupt (Option VideoMetadata)) :=
  match fiber.code with
  | .done (result, _) => some result
  | _ => none

/-- How an attempt ends that stands for a function with this end. One that is cancelled, or raises
when it has left its handler, has vanished: what it committed stays. -/
def Phase.ended : Except Interrupt (Option VideoMetadata) → Phase
  | .ok result => .returned result
  | .error (.error e) => .raised e
  | .error .cancelled | .error .closing => .vanished

/-- An activity function and the attempt that stands for it, when S3 holds these objects. -/
structure Fiber.Matches (decimal : ℕ → Option ℕ) (videoId : UUID) (objects : List Str)
    (fiber : Fiber) (a : Attempt) : Prop where
  activity : a.activity = fiber.activity
  settled : Settled fiber.code
  follows : ∃ known ⊆ objects, fiber.code.wp
    (VideoProcessing.follows decimal videoId fiber.activity)
    (fun q b => Concludes Returning q b.1) (a.phase, known)

/-- What the function holds is what it should hold where it is. -/
structure Fiber.Orderly (fiber : Fiber) : Prop where
  settled : Settled fiber.code
  holds : fiber.code.wp VideoProcessing.holds (fun _ held => held = []) fiber.held

variable {decimal : ℕ → Option ℕ} {videoId : UUID} {fiber : Fiber} {a : Attempt} {h h' : Host}
  {p : Pool} {l : HostLabel} {i : ℕ} {objects : List Str}

/-- A phase that stands for the end of a function ends as it should. -/
theorem ended_of_concludes {ph : Phase} {result : Except Interrupt (Option VideoMetadata)}
    {now : Time} (h : Concludes Returning (result, now) ph) : ph = .ended result := by
  rcases result with (e | _ | _) | value
  · exact h
  · exact h
  · exact h
  · exact h

/-- An attempt at its end locks nothing. -/
theorem Phase.held_ended (result : Except Interrupt (Option VideoMetadata)) (t : JobType) :
    (Phase.ended result).held t = [] := by
  rcases result with (e | _ | _) | value
  · rfl
  · rfl
  · rfl
  · rfl

/-- The two end together. -/
theorem Fiber.Matches.ended (hmatches : fiber.Matches decimal videoId objects a)
    {result : Except Interrupt (Option VideoMetadata)} (hresult : fiber.result = some result) :
    a.phase = .ended result := by
  obtain ⟨activity, code, held⟩ := fiber
  obtain ⟨known, -, hfollows⟩ := hmatches.follows
  cases code with
  | done outcome =>
    obtain rfl := Option.some.inj hresult
    exact ended_of_concludes hfollows
  | acquire r rest => cases hresult
  | release r rest => cases hresult
  | await op rest => cases hresult

/-- More objects do no harm. -/
theorem Fiber.Matches.mono (hmatches : fiber.Matches decimal videoId objects a)
    {objects' : List Str} (hle : objects ⊆ objects') :
    fiber.Matches decimal videoId objects' a := by
  obtain ⟨known, hknown, hfollows⟩ := hmatches.follows
  exact ⟨hmatches.activity, hmatches.settled, known, List.Subset.trans hknown hle, hfollows⟩

/-- Both hold the same locks. -/
theorem Fiber.Matches.locks (hmatches : fiber.Matches decimal videoId objects a) :
    fiber.locks = a.phase.held a.activity.jobType := by
  obtain ⟨activity, code, held⟩ := fiber
  obtain ⟨activity', phase⟩ := a
  obtain rfl : activity' = activity := hmatches.activity
  obtain ⟨known, -, hfollows⟩ := hmatches.follows
  cases code with
  | done outcome =>
    obtain rfl : phase = .ended outcome.1 := ended_of_concludes hfollows
    exact (Phase.held_ended outcome.1 _).symm
  | acquire r rest => exact hmatches.settled.elim
  | release r rest => exact hmatches.settled.elim
  | await op rest => exact hfollows.2.1.symm

/-- The attempt stands for what the function goes on to. -/
theorem Fiber.matches_goOn {act : Activity} {code : ActivityScript} {held : List Resource}
    {ph : Phase} {known : List Str} (hknown : known ⊆ objects)
    (h : code.wp (follows decimal videoId act) (fun q b => Concludes Returning q b.1) (ph, known)) :
    (Fiber.goOn act code held).Matches decimal videoId objects ⟨act, ph⟩ :=
  ⟨rfl, settle_settled code held, known, hknown, settle_follows h⟩

/-- An attempt writes the objects of S3 and never reads them: with fewer of them it goes on in the
same way. -/
theorem Phase.step_fewer {act : Activity} {ph ph' : Phase} {ans : Answer} {st st₁ st' : Store}
    (h : ph.step videoId act st ans = some (st₁, ph'))
    (hrows : st'.rows = st.rows) (hobjects : st'.objects ⊆ st.objects) :
    ∃ st₁', ph.step videoId act st' ans = some (st₁', ph') ∧ st₁'.rows = st₁.rows ∧
      st₁'.objects ⊆ st₁.objects := by
  obtain ⟨rows, objects⟩ := st
  obtain ⟨rows', objects'⟩ := st'
  obtain rfl : rows' = rows := hrows
  cases Phase.step_resumes h with
  | upload hph =>
    exact ⟨_, congrArg (Option.map _) hph, rfl, List.cons_subset_cons _ hobjects⟩
  | call hprobe hupload hph =>
    rename_i now f io todo
    refine ⟨⟨rows', objects'⟩, ?_, rfl, hobjects⟩
    cases io with
    | extractMetadata => exact absurd rfl hprobe
    | uploadFile a key => exact absurd rfl (hupload a key)
    | downloadOriginal | generateThumbnail | transcode => exact congrArg (Option.map _) hph
  | probe hph => exact ⟨_, congrArg (Option.map _) hph, rfl, hobjects⟩
  | selectNone hjob | insertLost hjob =>
    refine ⟨⟨rows', objects'⟩, ?_, rfl, hobjects⟩
    have hjob' : rows'.jobs act.jobType = _ := hjob
    simp only [Phase.step, hjob']
  | selectCompleted hjob hstatus =>
    refine ⟨⟨rows', objects'⟩, ?_, rfl, hobjects⟩
    have hjob' : rows'.jobs act.jobType = _ := hjob
    simp only [Phase.step, hjob', if_pos hstatus]
  | selectJob hjob hstatus =>
    refine ⟨⟨rows', objects'⟩, ?_, rfl, hobjects⟩
    have hjob' : rows'.jobs act.jobType = _ := hjob
    simp only [Phase.step, hjob', if_neg hstatus]
  | insert hjob =>
    have hjob' : rows'.jobs act.jobType = _ := hjob
    let jobs := Function.update rows'.jobs act.jobType (some ProcessingJob.new)
    refine ⟨⟨{ rows' with jobs := jobs }, objects'⟩, ?_, rfl, hobjects⟩
    simp only [Phase.step, hjob', jobs]
  | commitClaim haccepted | commitCompletion haccepted | flush haccepted =>
    exact ⟨_, if_pos haccepted, rfl, hobjects⟩
  | failJobBroken htx => exact ⟨_, if_pos htx, rfl, hobjects⟩
  | failJob htx haccepted =>
    exact ⟨_, (if_neg htx).trans (if_pos haccepted), rfl, hobjects⟩
  | failJobFails htx => exact ⟨_, if_neg htx, rfl, hobjects⟩
  | noConnection htx =>
    refine ⟨⟨rows', objects'⟩, ?_, rfl, hobjects⟩
    rename_i f todo
    cases todo <;> exact if_pos htx
  | giveUp hph =>
    cases ph with
    | loadVideo | selectJob | insertJob | commitClaim => exact ⟨_, rfl, rfl, hobjects⟩
    | _ => cases hph
  | completionFails hph =>
    cases ph with
    | selectAsset f todo => cases todo <;> cases hph <;> exact ⟨_, rfl, rfl, hobjects⟩
    | flush | countCompleted | commitCompletion => cases hph; exact ⟨_, rfl, rfl, hobjects⟩
    | _ => cases hph
  | load | workFails | selectAsset | countCompleted => exact ⟨_, rfl, rfl, hobjects⟩
/-- The host and the pool that stands for it. -/
structure Host.Matches (decimal : ℕ → Option ℕ) (h : Host) (p : Pool) : Prop where
  videoId : p.videoId = h.videoId
  rows : p.store.rows = h.store.rows
  objects : p.store.objects ⊆ h.store.objects
  fibers : List.Forall₂ (Fiber.Matches decimal h.videoId h.store.objects) h.fibers p.attempts

/-- The same statements wait for row locks. -/
theorem Host.Matches.blocked (hmatches : h.Matches decimal p) (i : ℕ) (wanted : List RowLock) :
    h.blocked i wanted = p.blocked i wanted :=
  any_eq_of_forall₂ (forall₂_eraseIdx hmatches.fibers) fun fiber a hfiber => by rw [hfiber.locks]

/-- A step of a function whose attempt goes to another phase. -/
theorem Host.Matches.set (hmatches : h.Matches decimal p) {fiber' : Fiber} {a' : Attempt}
    {st st' : Store} (hgrows : h.store.objects ⊆ st.objects) (hrows : st'.rows = st.rows)
    (hobjects : st'.objects ⊆ st.objects)
    (hfiber : fiber'.Matches decimal h.videoId st.objects a') :
    Host.Matches decimal { h with store := st, fibers := h.fibers.set i fiber' }
      { p with store := st', attempts := p.attempts.set i a' } :=
  ⟨hmatches.videoId, hrows, hobjects,
    forall₂_set (hmatches.fibers.imp fun _ _ hmatch => hmatch.mono hgrows) hfiber⟩

/-- What a host can do when an await ends. -/
theorem Host.resume_eq_some {ev : Event} (hstep : h.resume decimal i ev = some h') :
    ∃ fiber op rest st reply, h.fibers[i]? = some fiber ∧ fiber.code = .await op rest ∧
      ¬ (ev.waits = true ∧ h.blocked i op.wanted = true) ∧
      op.respond decimal h.store ev = some (st, reply) ∧
      h' = { h with
        store := st
        fibers := h.fibers.set i (.goOn fiber.activity (rest reply) fiber.held) } := by
  obtain ⟨fiber, hfiber, hstep⟩ := Option.bind_eq_some_iff.mp hstep
  obtain ⟨activity, code, held⟩ := fiber
  cases code with
  | await op rest =>
    obtain ⟨hblocked, hstep⟩ := Option.ite_none_left_eq_some.mp hstep
    obtain ⟨⟨st, reply⟩, hrespond, rfl⟩ := Option.map_eq_some_iff.mp hstep
    exact ⟨_, op, rest, st, reply, hfiber, rfl, hblocked, hrespond, rfl⟩
  | done result => cases hstep
  | acquire r rest => cases hstep
  | release r rest => cases hstep

/-- The end of an await is at most one step of the attempt. -/
theorem Host.Matches.resume (hmatches : h.Matches decimal p) {ev : Event}
    (hstep : h.resume decimal i ev = some h') :
    ∃ p', Reaches Pool.step p p' ∧ h'.Matches decimal p' := by
  obtain ⟨fiber, op, rest, st, reply, hfiber, hcode, hblocked, hrespond, rfl⟩ :=
    Host.resume_eq_some hstep
  obtain ⟨a, ha, hmatch⟩ := getElem?_of_forall₂ hmatches.fibers hfiber
  obtain ⟨known, hknown, hfollows⟩ := hmatch.follows
  have haccompanies : Accompanies decimal h.videoId fiber.activity op (fun reply =>
      (rest reply).wp (follows decimal h.videoId fiber.activity)
        (fun q b => Concludes Returning q b.1)) (a.phase, known) := by
    rw [hcode] at hfollows
    exact hfollows
  obtain ⟨hwanted, -, hends⟩ := haccompanies
  obtain ⟨⟨ph', known'⟩, hadvances, hknown', hnext⟩ := hends h.store ev st reply hknown hrespond
  have hgrows : h.store.objects ⊆ st.objects := respond_objects hrespond
  have hfewer : p.store.objects ⊆ st.objects := List.Subset.trans hmatches.objects hgrows
  have hset {st' : Store} (hrows : st'.rows = st.rows) (hobjects : st'.objects ⊆ st.objects) :
      Host.Matches decimal
        { h with
          store := st
          fibers := h.fibers.set i (.goOn fiber.activity (rest reply) fiber.held) }
        { p with store := st', attempts := p.attempts.set i { a with phase := ph' } } := by
    refine hmatches.set hgrows hrows hobjects ?_
    rw [← hmatch.activity] at hnext ⊢
    exact Fiber.matches_goOn hknown' hnext
  cases hadvances with
  | stay hrows =>
    have hsame : p.attempts.set i a = p.attempts := by
      obtain ⟨hi, rfl⟩ := List.getElem?_eq_some_iff.mp ha
      exact List.set_getElem_self hi
    refine ⟨p, Reaches.refl _ p, ?_⟩
    have hset' := hset (hmatches.rows.trans hrows.symm) hfewer
    rw [show ({ a with phase := a.phase } : Attempt) = a from rfl, hsame] at hset'
    exact hset'
  | vanish hrows =>
    refine ⟨_, Reaches.step (l := .vanish i) ?_, hset (hmatches.rows.trans hrows.symm) hfewer⟩
    rw [Pool.step, Pool.vanish, ha]
    rfl
  | step ans hphase hrows hobjects hwaits =>
    -- the pool's objects may be fewer, which the phase does not see
    obtain ⟨st', hphase', hrows', hobjects'⟩ :=
      Phase.step_fewer hphase hmatches.rows hmatches.objects
    refine ⟨_, Reaches.step (l := .resume i ans) ?_,
      hset (hrows'.trans hrows.symm) (List.Subset.trans hobjects' hobjects)⟩
    have hfree : ¬ (ans ≠ .error ∧ p.blocked i (a.phase.wanted a.activity.jobType) = true) := by
      rintro ⟨hans, hlocked⟩
      rw [hmatch.activity, hwanted, ← hmatches.blocked] at hlocked
      exact hblocked ⟨hwaits hans, hlocked⟩
    rw [Pool.step, Pool.resume, ha, Option.bind_some, if_neg hfree, hmatches.videoId,
      hmatch.activity, hphase']
    rfl

/-- The pool takes at most one step for each of the host. -/
theorem Host.Matches.step (hmatches : h.Matches decimal p) (hstep : h.step decimal l = some h') :
    ∃ p', Reaches Pool.step p p' ∧ h'.Matches decimal p' := by
  cases l with
  | begin act =>
    obtain rfl := Option.some.inj hstep
    refine ⟨p.begin act, Reaches.step (l := .begin act) rfl, hmatches.videoId, hmatches.rows,
      hmatches.objects, ?_⟩
    have hstarted : (Fiber.goOn act (act.script decimal h.videoId 0) []).Matches decimal h.videoId
        h.store.objects ⟨act, .loadVideo⟩ :=
      Fiber.matches_goOn (List.nil_subset _) (script_runs act [])
    exact List.rel_append hmatches.fibers (.cons hstarted .nil)
  | kill i =>
    obtain ⟨fiber, hfiber, rfl⟩ := Option.map_eq_some_iff.mp hstep
    obtain ⟨a, ha, hmatch⟩ := getElem?_of_forall₂ hmatches.fibers hfiber
    have hvanish : p.step (.vanish i) =
        some { p with attempts := p.attempts.set i { a with phase := .vanished } } := by
      rw [Pool.step, Pool.vanish, ha]
      rfl
    refine ⟨_, Reaches.step hvanish, hmatches.videoId, hmatches.rows, hmatches.objects, ?_⟩
    exact forall₂_set hmatches.fibers ⟨hmatch.activity, trivial, [], List.nil_subset _, rfl⟩
  | resume i ev => exact hmatches.resume hstep

/-! ## Runs -/

/-- Whatever happens on a host, the attempts of a pool leave the same rows and end in the same ways,
and every object they have stored is in S3: a function that returns, raises, or is cancelled or
killed is an attempt that returned, raised or vanished, and one that raises as its session is closed
is one that vanished. A cancellation when the child is gone raises. -/
theorem host_refines {filename key : Str} {ls : List HostLabel}
    (hrun : exec (Host.step decimal) (.created videoId filename key) ls = some h) :
    ∃ p, Reaches Pool.step (.created videoId filename key) p ∧ p.store.rows = h.store.rows ∧
      p.store.objects ⊆ h.store.objects ∧ p.attempts.length = h.fibers.length ∧
        ∀ (i : ℕ) (fiber : Fiber), h.fibers[i]? = some fiber →
          ∃ a : Attempt, p.attempts[i]? = some a ∧ a.activity = fiber.activity ∧
            ∀ result, fiber.result = some result → a.phase = .ended result := by
  have hmatched : ∃ p, Reaches Pool.step (.created videoId filename key) p ∧
      h.Matches decimal p := by
    refine exec_invariant (I := fun h => ∃ p, Reaches Pool.step (.created videoId filename key) p ∧
      Host.Matches decimal h p) ?_ ⟨_, Reaches.refl _ _, rfl, rfl, List.Subset.refl _, .nil⟩ hrun
    rintro q l q' ⟨p, hreach, hmatches⟩ hstep
    obtain ⟨p', hreach', hmatches'⟩ := hmatches.step hstep
    exact ⟨p', hreach.trans hreach', hmatches'⟩
  obtain ⟨p, hreach, hmatches⟩ := hmatched
  refine ⟨p, hreach, hmatches.rows, hmatches.objects, hmatches.fibers.length_eq.symm,
    fun i fiber hfiber => ?_⟩
  obtain ⟨a, ha, hmatch⟩ := getElem?_of_forall₂ hmatches.fibers hfiber
  exact ⟨a, ha, hmatch.activity, fun result => hmatch.ended⟩

/-- A video `clip.mp4`, just created. -/
def Host.clip : Host :=
  .created ⟨7⟩ (str "clip.mp4") (str "uploads/00000000-0000-0000-0000-000000000007/original.mp4")

/-- The metadata job is done by one worker; another makes a thumbnail, and is shut down while its
child runs. -/
def Host.shutdown : List HostLabel := List.flatten [
  [.begin .extractMetadata, .begin .generateThumbnail], List.replicate 8 (.resume 0 (.ok 0)),
  [.resume 0 (.exited 0 ffprobeOutput 0)], List.replicate 8 (.resume 1 (.ok 0)),
  List.replicate 6 (.resume 0 (.ok 0)), [.resume 1 .cancelled],
  List.replicate 4 (.resume 1 (.ok 0))]

/-- A function is cancelled when its child is gone, or its client cannot be closed: either way its
job and the video have failed. -/
example : [Event.cancelledLate, .exited 0 ffprobeOutput 0].all (fun ev =>
    (exec (Host.step fun _ => none) .clip (.begin .extractMetadata ::
      List.replicate 8 (.resume 0 (.ok 0)) ++ [.resume 0 ev, .resume 0 .error,
        .resume 0 (.ok 0), .resume 0 (.ok 0)])).any
      fun h => h.store.rows.video.status = .failed) := by decide +kernel

/-- The worker that is shut down while its child runs. -/
theorem host_refines_clip : ∃ h : Host,
    exec (Host.step fun _ => none) .clip Host.shutdown = some h ∧ ∃ p : Pool,
      Reaches Pool.step Pool.clip p ∧ p.store.rows = h.store.rows ∧
        p.store.objects ⊆ h.store.objects ∧ p.attempts.length = h.fibers.length ∧
          ∀ (i : ℕ) (fiber : Fiber), h.fibers[i]? = some fiber →
            ∃ a : Attempt, p.attempts[i]? = some a ∧ a.activity = fiber.activity ∧
              ∀ result, fiber.result = some result → a.phase = .ended result := by
  have hrun : (exec (Host.step fun _ => none) .clip Host.shutdown).isSome := by decide +kernel
  obtain ⟨h, hrun⟩ := Option.isSome_iff_exists.mp hrun
  exact ⟨h, hrun, host_refines hrun⟩

/-- What a function should hold where it is. -/
def Fiber.due (fiber : Fiber) : List Resource :=
  match fiber.code with
  | .await op _ => op.resources
  | _ => []

/-- In order, a function holds what it should. -/
theorem Fiber.Orderly.held (horderly : fiber.Orderly) : fiber.held = fiber.due := by
  obtain ⟨activity, code, held⟩ := fiber
  cases code with
  | done outcome => exact horderly.holds
  | acquire r rest => exact horderly.settled.elim
  | release r rest => exact horderly.settled.elim
  | await op rest => exact horderly.holds.1

end VideoProcessing
