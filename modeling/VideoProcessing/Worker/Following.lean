import VideoProcessing.Worker.Host
import VideoProcessing.Worker.Stored
import VideoProcessing.Worker.Succeeding

/-!
# The phases follow the scripts

Whatever ends an await of an activity's script, the phases of `Worker/Activities` can stay, take one
step, or vanish, and they lock the same rows at every await. Each function of the source is followed
by its own lemma; `Script.wp` with `follows` puts them together.

The phases know nothing of the exits of the temporary directory and the S3 client. While the script
goes through these its phase stays at the last call of the work: once both have been left it takes
the step of that call, or fails, or vanishes. By then an object may have been stored that the phase
has yet to store, so beside the phase stand the keys that are known to be in S3.
-/

namespace VideoProcessing

open Python UnitOfWork Coroutine

/-- A phase, and keys that are known to be in S3. -/
abbrev Shadow : Type := Phase × List Str

/-- The phase goes along when an await ends: it stays, takes a step, or vanishes. What it stores may
be in S3 already. -/
inductive Advances (videoId : UUID) (act : Activity) (st : Store) (ph : Phase) (ev : Event)
    (st' : Store) : Phase → Prop
  | stay (hrows : st'.rows = st.rows) : Advances videoId act st ph ev st' ph
  | step (ans : Answer) {st₁ : Store} {ph' : Phase}
      (h : ph.step videoId act st ans = some (st₁, ph')) (hrows : st'.rows = st₁.rows)
      (hobjects : st₁.objects ⊆ st'.objects) (hwaits : ans ≠ .error → ev.waits = true) :
      Advances videoId act st ph ev st' ph'
  | vanish (hrows : st'.rows = st.rows) : Advances videoId act st ph ev st' .vanished

/-- The phase locks what the operation locks, and goes along with each of its ends. -/
def Accompanies (decimal : ℕ → Option ℕ) (videoId : UUID) (act : Activity) (op : Operation)
    (P : op.Reply → Shadow → Prop) (b : Shadow) : Prop :=
  b.1.wanted act.jobType = op.wanted ∧ b.1.held act.jobType = op.locks ∧
    ∀ st ev st' reply, b.2 ⊆ st.objects → op.respond decimal st ev = some (st', reply) →
      ∃ b' : Shadow, Advances videoId act st b.1 ev st' b'.1 ∧ b'.2 ⊆ st'.objects ∧ P reply b'

/-- The phase beside a script. -/
def follows (decimal : ℕ → Option ℕ) (videoId : UUID) (act : Activity) :
    Effects Operation.Reply Resource Shadow where
  await := Accompanies decimal videoId act
  acquire _ P := P
  release _ P := P
  await_mono := by
    rintro op P Q b hle ⟨hwanted, hlocks, hends⟩
    refine ⟨hwanted, hlocks, fun st ev st' reply hknown h => ?_⟩
    obtain ⟨b', hadvances, hknown', hP⟩ := hends st ev st' reply hknown h
    exact ⟨b', hadvances, hknown', hle reply b' hP⟩
  acquire_mono := fun hle h => hle _ h
  release_mono := fun hle h => hle _ h

/-- The frames agree but for the notes of what was uploaded and probed. -/
def Frame.Like (f g : Frame) : Prop :=
  ∃ uploads metadata, f = { g with uploads := uploads, metadata := metadata }

/-- The handler `except Exception` finds the phase at its commit. -/
structure Failing (x : Locals) (e : ActivityError) (ph : Phase) : Prop where
  phase : ∃ f : Frame, f.Like x.frame ∧ ph = .failJob f.failJob e
  flushed : x.frame.tx = .broken ∨ x.frame.flushed = .empty

/-- How a piece of the completion ends, or the work as a whole. -/
def Ends {α : Type} (R : α → Locals → Phase → Prop) :
    Except Interrupt α × Locals → Phase → Prop
  | (.ok a, x), ph => R a x ph
  | (.error (.error e), x), ph => Failing x e ph
  | (.error .cancelled, _), ph => ph = .vanished
  | (.error .closing, _), _ => False

variable {decimal : ℕ → Option ℕ} {videoId : UUID} {act : Activity} {α β : Type} {ph : Phase}
  {x : Locals} {f : Frame} {todo : List Io} {b : Shadow}

/-- The phase follows a piece of the code from `ph` on. -/
abbrev Follows (decimal : ℕ → Option ℕ) (videoId : UUID) (act : Activity) (work : Working α)
    (x : Locals) (ph : Phase) (R : α → Locals → Phase → Prop) : Prop :=
  ∀ known, Script.wp (follows decimal videoId act) (fun q b => Ends R q b.1) (work x) (ph, known)

/-- One piece after another. -/
theorem Follows.bind {work : Working α} {next : α → Working β} {R : α → Locals → Phase → Prop}
    {R' : β → Locals → Phase → Prop} (h : Follows decimal videoId act work x ph R)
    (hnext : ∀ a x' ph', R a x' ph' → Follows decimal videoId act (next a) x' ph' R') :
    Follows decimal videoId act (work >>= next) x ph R' := by
  refine fun known => Routine.wp_bind (Script.wp_mono (h known) fun q b hq => ?_)
  obtain ⟨result, x'⟩ := q
  obtain ⟨ph', known'⟩ := b
  cases result with
  | ok a => exact hnext a x' ph' hq known'
  | error interrupt =>
    cases interrupt with
    | error e => exact hq
    | cancelled => exact hq
    | closing => exact hq

/-- A weaker end does. -/
theorem Follows.mono {work : Working α} {R R' : α → Locals → Phase → Prop}
    (h : Follows decimal videoId act work x ph R) (hle : ∀ a x' ph', R a x' ph' → R' a x' ph') :
    Follows decimal videoId act work x ph R' := by
  refine fun known => Script.wp_mono (h known) fun q b hq => ?_
  obtain ⟨result, x'⟩ := q
  rcases result with (e | _ | _) | a
  · exact hq
  · exact hq
  · exact hq
  · exact hle a x' b.1 hq

/-- What comes after an assignment. -/
theorem Follows.assign_bind {g : Frame → Frame} {next : Unit → Working β}
    {R : β → Locals → Phase → Prop}
    (h : Follows decimal videoId act (next ()) { x with frame := g x.frame } ph R) :
    Follows decimal videoId act (Working.assign g >>= next) x ph R := h

/-- What comes after the local variables are read. -/
theorem Follows.get_bind {next : Locals → Working β} {R : β → Locals → Phase → Prop}
    (h : Follows decimal videoId act (next x) x ph R) :
    Follows decimal videoId act (get >>= next) x ph R := h

/-! ## The calls -/

/-- Nothing is flushed, and no transaction is open. -/
structure Frame.Fresh (f : Frame) : Prop where
  tx : f.tx = .idle
  flushed : f.flushed = .empty

/-- A frame is like itself. -/
theorem Frame.Like.refl (f : Frame) : f.Like f := ⟨f.uploads, f.metadata, rfl⟩

/-- The frames have the same transaction. -/
theorem Frame.Like.fresh {g : Frame} (h : f.Like g) (hf : f.Fresh) : g.Fresh := by
  obtain ⟨uploads, metadata, rfl⟩ := h
  exact ⟨hf.tx, hf.flushed⟩

/-- The handler after a statement that has failed its transaction. -/
theorem failing_broken (x : Locals) (e : ActivityError) :
    Failing { x with frame := { x.frame with tx := .broken } } e (handle x.frame .broken e) :=
  ⟨⟨_, .refl _, rfl⟩, .inl rfl⟩

/-- A failure outside of a transaction. -/
theorem failing_idle (hlike : f.Like x.frame) (hf : f.Fresh) (e : ActivityError) :
    Failing x e (handle f .idle e) := by
  refine ⟨⟨f, hlike, ?_⟩, .inr (hlike.fresh hf).flushed⟩
  rw [handle, ← hf.tx]
  rfl

/-- An await that returns. -/
theorem Advances.answered {st st' : Store} {ph' : Phase} {now : Time}
    (h : ph.step videoId act st (.ok now) = some (st', ph')) :
    Advances videoId act st ph (.ok now) st' ph' :=
  .step (.ok now) h rfl (List.Subset.refl _) fun _ => rfl

/-- An await that raises, for which the phase need not wait. -/
theorem Advances.failed {st st' : Store} {ph' : Phase} {ev : Event}
    (h : ph.step videoId act st .error = some (st', ph')) :
    Advances videoId act st ph ev st' ph' :=
  .step .error h rfl (List.Subset.refl _) fun hne => absurd rfl hne

/-- A cancelled call leaves everything as it is. -/
theorem respond_cancelled {c : Awaitable} {st st' : Store} {outcome : CallEnd c.Value}
    (h : c.respond st .cancelled = some (st', outcome)) : st' = st ∧ outcome = .cancelled := by
  cases c <;> cases h <;> exact ⟨rfl, rfl⟩

/-- Only a child process is gone before its cancellation. -/
theorem respond_cancelledLate (c : Awaitable) (st : Store) :
    c.respond st .cancelledLate = none := by
  cases c <;> rfl

/-- Only a child process exits. -/
theorem respond_exited (c : Awaitable) (st : Store) (returncode : ℤ) (stdout : Str) (now : Time) :
    c.respond st (.exited returncode stdout now) = none := by
  cases c <;> rfl

/-- No operation takes an object out of S3. -/
theorem respond_objects {op : Operation} {st st' : Store} {ev : Event} {reply : op.Reply}
    (h : op.respond decimal st ev = some (st', reply)) : st.objects ⊆ st'.objects := by
  have hsame (heq : st' = st) : st.objects ⊆ st'.objects := heq ▸ List.Subset.refl _
  -- every operation but an upload leaves the objects as they are
  cases op with
  | wait => cases h; exact hsame rfl
  | communicate command =>
    cases ev with
    | exited returncode stdout now =>
      -- the output is one the model reads
      obtain ⟨-, h⟩ := Option.ite_none_left_eq_some.mp h
      cases h
      exact hsame rfl
    | cancelled | cancelledLate => cases h; exact hsame rfl
    | ok | error | noConnection => cases h
  | call c =>
    cases c with
    | insertJob t =>
      cases ev with
      | ok now =>
        simp only [Operation.respond, Awaitable.respond] at h
        split at h <;> cases h <;> exact List.Subset.refl _
      | error | cancelled => cases h; exact hsame rfl
      | exited | noConnection | cancelledLate => cases h
    | commit t f =>
      cases ev with
      | ok now =>
        simp only [Operation.respond, Awaitable.respond] at h
        split at h
        · cases h; exact hsame rfl
        · obtain ⟨-, h⟩ := Option.ite_none_right_eq_some.mp h
          cases h
          exact List.Subset.refl _
      | error =>
        obtain ⟨-, h⟩ := Option.ite_none_left_eq_some.mp h
        cases h
        exact hsame rfl
      | cancelled => cases h; exact hsame rfl
      | exited | noConnection | cancelledLate => cases h
    | flush t f =>
      cases ev with
      | ok now =>
        obtain ⟨-, h⟩ := Option.ite_none_right_eq_some.mp h
        cases h
        exact hsame rfl
      | error | cancelled => cases h; exact hsame rfl
      | exited | noConnection | cancelledLate => cases h
    | selectAsset tx a =>
      cases ev with
      | noConnection =>
        obtain ⟨-, h⟩ := Option.ite_none_right_eq_some.mp h
        cases h
        exact hsame rfl
      | ok | error | cancelled => cases h; exact hsame rfl
      | exited | cancelledLate => cases h
    | upload a key =>
      cases ev with
      | ok now => cases h; exact List.subset_cons_self ..
      | error | cancelled => cases h; exact hsame rfl
      | exited | noConnection | cancelledLate => cases h
    | _ => cases ev <;> cases h <;> exact hsame rfl

/-- A call of the completion; its cancellation needs no case of its own. -/
theorem await_follows {c : Awaitable} {R : c.Value → Locals → Phase → Prop}
    (hwanted : ph.wanted act.jobType = (Operation.call c).wanted)
    (hlocks : ph.held act.jobType = (Operation.call c).locks)
    (hok : ∀ st now st' outcome, c.respond st (.ok now) = some (st', outcome) →
      ∃ ph', Advances videoId act st ph (.ok now) st' ph' ∧ Ends R (outcome.resume x) ph')
    (herror : ∀ st st' outcome, c.respond st .error = some (st', outcome) →
      ∃ ph', Advances videoId act st ph .error st' ph' ∧ Ends R (outcome.resume x) ph')
    (hnoConnection : ∀ st st' outcome, c.respond st .noConnection = some (st', outcome) →
      ∃ ph', Advances videoId act st ph .noConnection st' ph' ∧ Ends R (outcome.resume x) ph') :
    Follows decimal videoId act (Working.await c) x ph R := by
  refine fun known => ⟨hwanted, hlocks, fun st ev st' outcome hknown h => ?_⟩
  have hresponds : (Operation.call c).respond decimal st ev = some (st', outcome) := h
  have hknown' := List.Subset.trans hknown (respond_objects hresponds)
  suffices hend : ∃ ph', Advances videoId act st ph ev st' ph' ∧ Ends R (outcome.resume x) ph' by
    obtain ⟨ph', hadvances, hend⟩ := hend
    exact ⟨(ph', known), hadvances, hknown', hend⟩
  cases ev with
  | ok now => exact hok st now st' outcome h
  | error => exact herror st st' outcome h
  | noConnection => exact hnoConnection st st' outcome h
  | exited returncode stdout now => cases (respond_exited c st returncode stdout now).symm.trans h
  | cancelledLate => cases (respond_cancelledLate c st).symm.trans h
  | cancelled =>
    obtain ⟨rfl, rfl⟩ := respond_cancelled h
    exact ⟨_, .vanish rfl, rfl⟩

/-! ## The work -/

/-- The phase is at a call of the work, and no transaction is open. -/
def Underway (frame : Frame) (ph : Phase) : Prop :=
  ∃ f io todo, ph = .work f (io :: todo) ∧ f.Fresh ∧ f.Like frame

/-- How a piece of the work ends; until its blocks are left the phase stays at a call of it. -/
def WorkEnds {α : Type} (R : α → Locals → Shadow → Prop) :
    Except Interrupt α × Locals → Shadow → Prop
  | (.ok a, x), b => R a x b
  | (.error (.error e), x), b => e = .io ∧ Underway x.frame b.1
  | (.error .cancelled, x), b => Underway x.frame b.1
  | (.error .closing, _), _ => False

/-- The phase stays with a piece of the work from `b` on. -/
abbrev Works (decimal : ℕ → Option ℕ) (videoId : UUID) (act : Activity) (work : Working α)
    (x : Locals) (b : Shadow) (R : α → Locals → Shadow → Prop) : Prop :=
  Script.wp (follows decimal videoId act) (WorkEnds R) (work x) b

/-- One piece after another. -/
theorem Works.bind {work : Working α} {next : α → Working β} {R : α → Locals → Shadow → Prop}
    {R' : β → Locals → Shadow → Prop} (h : Works decimal videoId act work x b R)
    (hnext : ∀ a x' b', R a x' b' → Works decimal videoId act (next a) x' b' R') :
    Works decimal videoId act (work >>= next) x b R' := by
  refine Routine.wp_bind (Script.wp_mono h fun q b' hq => ?_)
  obtain ⟨result, x'⟩ := q
  rcases result with (e | _ | _) | a
  · exact hq
  · exact hq
  · exact hq
  · exact hnext a x' b' hq

/-- A weaker end does. -/
theorem Works.mono {work : Working α} {R R' : α → Locals → Shadow → Prop}
    (h : Works decimal videoId act work x b R) (hle : ∀ a x' b', R a x' b' → R' a x' b') :
    Works decimal videoId act work x b R' := by
  refine Script.wp_mono h fun q b' hq => ?_
  obtain ⟨result, x'⟩ := q
  rcases result with (e | _ | _) | a
  · exact hq
  · exact hq
  · exact hq
  · exact hle a x' b' hq

/-- What comes after the local variables are read. -/
theorem Works.get_bind {next : Locals → Working β} {R : β → Locals → Shadow → Prop}
    (h : Works decimal videoId act (next x) x b R) :
    Works decimal videoId act (get >>= next) x b R := h

/-- Where the phase is at a call of the work. -/
theorem Underway.of_eq {io : Io} (hb : b.1 = .work f (io :: todo)) (hf : f.Fresh)
    (hframe : x.frame = f) : Underway x.frame b.1 :=
  ⟨f, io, todo, hb, hf, hframe ▸ .refl _⟩

/-- A call of the work has no transaction. -/
theorem Underway.locks {frame : Frame} (h : Underway frame ph) (t : JobType) :
    ph.wanted t = [] ∧ ph.held t = [] := by
  obtain ⟨f, io, todo, rfl, -, -⟩ := h
  exact ⟨rfl, rfl⟩

/-- The calls of S3 and the start of a child, in which the database has no part. -/
def Awaitable.outside : Awaitable → Bool
  | .openClient | .closeClient | .download _ | .spawn _ | .upload .. => true
  | _ => false

/-- They lock no rows. -/
theorem outside_locks {c : Awaitable} (hc : c.outside = true) :
    (Operation.call c).wanted = [] ∧ (Operation.call c).locks = [] := by
  cases c with
  | openClient | closeClient | download | spawn | upload => exact ⟨rfl, rfl⟩
  | _ => cases hc

/-- They fail without leaving anything. -/
theorem respond_outside_error {c : Awaitable} {st st' : Store} {outcome : CallEnd c.Value}
    (hc : c.outside = true) (h : c.respond st .error = some (st', outcome)) :
    st' = st ∧ outcome = .raised .io false := by
  cases c with
  | openClient | closeClient | download | spawn | upload => cases h; exact ⟨rfl, rfl⟩
  | _ => cases hc

/-- They need no connection. -/
theorem respond_outside_noConnection {c : Awaitable} (hc : c.outside = true) (st : Store) :
    c.respond st .noConnection = none := by
  cases c with
  | openClient | closeClient | download | spawn | upload => rfl
  | _ => cases hc

/-- A call of the work; its failures and its cancellation leave the phase where it is. -/
theorem await_works {c : Awaitable} {R : c.Value → Locals → Shadow → Prop} (hc : c.outside = true)
    (hunderway : Underway x.frame b.1)
    (hok : ∀ st now st' outcome, b.2 ⊆ st.objects → c.respond st (.ok now) = some (st', outcome) →
      ∃ b' : Shadow, Advances videoId act st b.1 (.ok now) st' b'.1 ∧ b'.2 ⊆ st'.objects ∧
        WorkEnds R (outcome.resume x) b') :
    Works decimal videoId act (Working.await c) x b R := by
  obtain ⟨hwanted, hheld⟩ := hunderway.locks act.jobType
  obtain ⟨hnone, hnone'⟩ := outside_locks hc
  refine ⟨hwanted.trans hnone.symm, hheld.trans hnone'.symm,
    fun st ev st' outcome hknown h => ?_⟩
  cases ev with
  | ok now => exact hok st now st' outcome hknown h
  | error =>
    obtain ⟨rfl, rfl⟩ := respond_outside_error hc h
    exact ⟨b, .stay rfl, hknown, rfl, hunderway⟩
  | noConnection => cases (respond_outside_noConnection hc st).symm.trans h
  | exited returncode stdout now => cases (respond_exited c st returncode stdout now).symm.trans h
  | cancelledLate => cases (respond_cancelledLate c st).symm.trans h
  | cancelled =>
    obtain ⟨rfl, rfl⟩ := respond_cancelled h
    exact ⟨b, .stay rfl, hknown, hunderway⟩

/-- Entering the S3 client is a part of the first call. -/
theorem openClient_works (hunderway : Underway x.frame b.1) :
    Works decimal videoId act (Working.await .openClient) x b
      fun _ x' b' => x'.frame = x.frame ∧ b' = b := by
  refine await_works rfl hunderway fun st now st' outcome hknown h => ?_
  cases h
  exact ⟨b, .stay rfl, hknown, rfl, rfl⟩

/-- Starting a child is a part of its call. -/
theorem spawn_works {command : Subprocess} (hunderway : Underway x.frame b.1) :
    Works decimal videoId act (Working.await (.spawn command)) x b
      fun _ x' b' => x'.frame = x.frame ∧ b' = b := by
  refine await_works rfl hunderway fun st now st' outcome hknown h => ?_
  cases h
  exact ⟨b, .stay rfl, hknown, rfl, rfl⟩

/-- The phase is at the last call of the work, and that call is done. -/
def Due (videoId : UUID) (act : Activity) (frame : Frame) (b : Shadow) : Prop :=
  ∃ f io, b.1 = .work f [io] ∧ f.Fresh ∧ f.Like frame ∧ ∀ now, ∃ ans ph',
    complete videoId act frame now = some ph' ∧ ∀ st, b.2 ⊆ st.objects → ∃ st₁,
      Phase.step videoId act st (.work f [io]) ans = some (st₁, ph') ∧ st₁.rows = st.rows ∧
        st₁.objects ⊆ st.objects

/-- The phase is at the next call of the work, or the last one is done. -/
def Arrived (videoId : UUID) (act : Activity) (frame : Frame) (todo : List Io) (b : Shadow) :
    Prop :=
  todo = [] ∧ Due videoId act frame b ∨ todo ≠ [] ∧ b.1 = .work frame todo

/-- Until then it is at a call of the work. -/
theorem Due.underway {frame : Frame} (h : Due videoId act frame b) : Underway frame b.1 := by
  obtain ⟨f, io, hb, hf, hlike, -⟩ := h
  exact ⟨f, io, [], hb, hf, hlike⟩

/-- However the work has ended, the phase is at a call of it. -/
theorem WorkEnds.underway {Q : α → Frame → Prop} {result : Except Interrupt α}
    (h : WorkEnds (fun a x b => Q a x.frame ∧ Due videoId act x.frame b) (result, x) b) :
    Underway x.frame b.1 := by
  rcases result with (e | _ | _) | a
  · exact h.2
  · exact h
  · exact h.elim
  · exact h.2.underway

/-- A call that is done: the phase takes its step, unless it was the last one. -/
theorem arrived_of_call {io : Io} {frame' : Frame} {known : List Str} (ans : Time → Answer)
    (keys : List Str) (hf : f.Fresh) (hlike : f.Like frame')
    (hstep : ∀ st now, Phase.step videoId act st (.work f (io :: todo)) (ans now) =
      (working videoId act frame' now todo).map ({ st with objects := keys ++ st.objects }, ·))
    (hsome : ∀ now, ∃ ph, working videoId act frame' now todo = some ph)
    (hkeys : keys ⊆ known) {st : Store} (st' : Store) {ev : Event} (hwaits : ev.waits = true)
    (hrows : st'.rows = st.rows) (hobjects : keys ++ st.objects ⊆ st'.objects) :
    ∃ ph', Advances videoId act st (.work f (io :: todo)) ev st' ph' ∧
      Arrived videoId act frame' todo (ph', known) := by
  cases todo with
  | nil =>
    refine ⟨_, .stay hrows, .inl ⟨rfl, f, io, rfl, hf, hlike, fun now => ?_⟩⟩
    obtain ⟨ph', hph'⟩ := hsome now
    refine ⟨ans now, ph', hph', fun st hknown =>
      ⟨{ st with objects := keys ++ st.objects }, ?_, rfl, ?_⟩⟩
    · rw [hstep, hph', Option.map_some]
    · exact List.append_subset.mpr ⟨List.Subset.trans hkeys hknown, List.Subset.refl _⟩
  | cons io' todo =>
    refine ⟨.work frame' (io' :: todo), .step (ans 0) (hstep st 0) hrows hobjects fun _ => hwaits,
      .inr ⟨List.cons_ne_nil _ _, rfl⟩⟩

/-- The original is in the temporary directory. -/
theorem download_works {key : Str} (hf : f.Fresh) (hframe : x.frame = f)
    (hb : b.1 = .work f (.downloadOriginal key :: todo))
    (hsome : ∀ now, ∃ ph, working videoId act f now todo = some ph) :
    Works decimal videoId act (Working.await (.download key)) x b
      fun _ x' b' => x'.frame = f ∧ Arrived videoId act f todo b' := by
  obtain ⟨ph, known⟩ := b
  obtain rfl : ph = _ := hb
  have hstep (st : Store) (now : Time) :
      Phase.step videoId act st (.work f (.downloadOriginal key :: todo)) (.ok now) =
        (working videoId act f now todo).map ({ st with objects := [] ++ st.objects }, ·) := rfl
  refine await_works rfl (.of_eq rfl hf hframe)
    fun st now st' outcome hknown h => ?_
  cases h
  obtain ⟨ph', hadvances, harrived⟩ := arrived_of_call .ok [] hf (.refl f) hstep hsome
    (List.nil_subset known) st (rfl : (Event.ok now).waits = true) rfl (List.Subset.refl _)
  exact ⟨(ph', known), hadvances, hknown, hframe, harrived⟩

/-- The frame after an upload. -/
abbrev Frame.uploaded (f : Frame) (assetType : AssetType) (key : Str) : Frame :=
  { f with uploads := f.uploads ++ [(assetType, key)] }

/-- The object is in S3, and noted. -/
theorem uploadScript_works {assetType : AssetType} {key : Str} (hf : f.Fresh)
    (hframe : x.frame = f) (hb : b.1 = .work f (.uploadFile assetType key :: todo))
    (hsome : ∀ now, ∃ ph, working videoId act (f.uploaded assetType key) now todo = some ph) :
    Works decimal videoId act (uploadScript assetType key) x b
      fun _ x' b' => x'.frame = f.uploaded assetType key ∧
        Arrived videoId act (f.uploaded assetType key) todo b' := by
  obtain ⟨ph, known⟩ := b
  obtain rfl : ph = _ := hb
  have hstep (st : Store) (now : Time) :
      Phase.step videoId act st (.work f (.uploadFile assetType key :: todo)) (.ok now) =
        (working videoId act (f.uploaded assetType key) now todo).map
          ({ st with objects := [key] ++ st.objects }, ·) := rfl
  have hlike : f.Like (f.uploaded assetType key) := ⟨f.uploads, f.metadata, rfl⟩
  refine Works.bind (R := fun _ x' b' => x'.frame = f ∧
    Arrived videoId act (f.uploaded assetType key) todo b') ?_ ?_
  · refine await_works rfl (.of_eq rfl hf hframe)
      fun st now st' outcome hknown h => ?_
    cases h
    obtain ⟨ph', hadvances, harrived⟩ := arrived_of_call .ok [key] hf hlike hstep hsome
      (List.cons_subset_cons key (List.nil_subset known)) { st with objects := key :: st.objects }
      (rfl : (Event.ok now).waits = true) (rfl : _ = st.rows) (List.Subset.refl _)
    exact ⟨(ph', key :: known), hadvances, List.cons_subset_cons _ hknown, hframe, harrived⟩
  · rintro _ x' b' ⟨rfl, harrived⟩
    exact ⟨rfl, harrived⟩

/-- A child that is done is one step of the phase; one that was killed, or could not be any more,
leaves the phase where it is. -/
theorem communicate_works {command : Subprocess} {R : Str → Locals → Shadow → Prop}
    (hunderway : Underway x.frame b.1) (hok : ∀ st stdout now, b.2 ⊆ st.objects →
      ∃ b' : Shadow, Advances videoId act st b.1 (.exited 0 stdout now) st b'.1 ∧
        b'.2 ⊆ st.objects ∧ R stdout { x with now := now } b') :
    Works decimal videoId act (communicate command) x b
      fun (returncode, stdout) x' b' => if returncode = 0 then R stdout x' b'
        else x'.frame = x.frame ∧ b' = b := by
  obtain ⟨hwanted, hheld⟩ := hunderway.locks act.jobType
  refine ⟨hwanted, hheld, fun st ev st' reply hknown h => ?_⟩
  cases ev with
  | exited returncode stdout now =>
    obtain ⟨-, h⟩ := Option.ite_none_left_eq_some.mp h
    cases h
    by_cases hcode : returncode = 0
    · subst hcode
      obtain ⟨b', hadvances, hknown', hR⟩ := hok st stdout now hknown
      exact ⟨b', hadvances, hknown', hR⟩
    · refine ⟨b, .stay rfl, hknown, ?_⟩
      change if returncode = 0 then _ else _
      rw [if_neg hcode]
      exact ⟨rfl, rfl⟩
  | cancelled =>
    cases h
    -- the killed child is waited for
    refine ⟨b, .stay rfl, hknown, hwanted, hheld, fun st ev st' reply hknown h => ?_⟩
    cases h
    exact ⟨b, .stay rfl, hknown, hunderway⟩
  | cancelledLate =>
    cases h
    exact ⟨b, .stay rfl, hknown, rfl, hunderway⟩
  | ok now => cases h
  | error => cases h
  | noConnection => cases h

/-- A child from its start to its end. -/
theorem run_works {command : Subprocess} {R : Str → Locals → Shadow → Prop}
    (hunderway : Underway x.frame b.1)
    (hok : ∀ (st : Store) (x' : Locals) (stdout : Str) (now : Time),
      x'.frame = x.frame → b.2 ⊆ st.objects → ∃ b' : Shadow,
        Advances videoId act st b.1 (.exited 0 stdout now) st b'.1 ∧ b'.2 ⊆ st.objects ∧
          R stdout { x' with now := now } b') :
    Works decimal videoId act (run command) x b R := by
  refine Works.bind (spawn_works hunderway) ?_
  rintro _ x' b' ⟨hframe, rfl⟩
  refine Works.bind (communicate_works (hframe ▸ hunderway) fun st stdout now hknown =>
    hok st x' stdout now hframe hknown) fun exit x'' b'' hexit => ?_
  obtain ⟨returncode, stdout⟩ := exit
  by_cases hcode : returncode = 0
  · subst hcode
    exact hexit
  · change if returncode = 0 then R stdout x'' b'' else x''.frame = x'.frame ∧ b'' = b' at hexit
    rw [if_neg hcode] at hexit
    obtain ⟨hframe', rfl⟩ := hexit
    change Works decimal videoId act
      (if returncode ≠ 0 then throw (.error .io) else pure stdout) x'' _ R
    rw [if_pos hcode]
    exact ⟨rfl, hframe'.trans hframe ▸ hunderway⟩

/-- ffprobe is the last call of the metadata activity. -/
theorem extractMetadataScript_works (hf : f.Fresh) (hframe : x.frame = f)
    (hb : b.1 = .work f [.extractMetadata]) :
    Works decimal videoId .extractMetadata (extractMetadataScript decimal) x b fun m x' b' =>
      x'.frame = { f with metadata := some m } ∧ Due videoId .extractMetadata x'.frame b' := by
  have hunderway : Underway x.frame b.1 := .of_eq hb hf hframe
  refine Works.bind (R := fun _ x' b' => x'.frame = f ∧ b' = b) (run_works hunderway ?_) ?_
  · intro st x' stdout now hframe' hknown
    exact ⟨b, .stay rfl, hknown, hframe'.trans hframe, rfl⟩
  · rintro stdout x' b' ⟨rfl, rfl⟩
    cases hprobed : probed? decimal stdout with
    | some m =>
      exact ⟨rfl, x'.frame, .extractMetadata, hb, hf,
        ⟨x'.frame.uploads, x'.frame.metadata, rfl⟩,
        fun now => ⟨.probed m now, _, rfl, fun st _ => ⟨st, rfl, rfl, List.Subset.refl _⟩⟩⟩
    | none => exact ⟨rfl, hframe ▸ hunderway⟩

/-- A child whose output nobody reads is one step. -/
theorem run_plain_works {command : Subprocess} {io : Io} (hf : f.Fresh) (hframe : x.frame = f)
    (hb : b.1 = .work f (io :: todo))
    (hsome : ∀ now, ∃ ph, working videoId act f now todo = some ph)
    (hio : ∀ st now, Phase.step videoId act st (.work f (io :: todo)) (.ok now) =
      (working videoId act f now todo).map (st, ·)) :
    Works decimal videoId act (run command) x b
      fun _ x' b' => x'.frame = f ∧ Arrived videoId act f todo b' := by
  obtain ⟨ph, known⟩ := b
  obtain rfl : ph = _ := hb
  refine run_works (.of_eq rfl hf hframe) fun st x' stdout now hframe' hknown => ?_
  obtain ⟨ph', hadvances, harrived⟩ := arrived_of_call .ok [] hf (.refl f) hio hsome
    (List.nil_subset known) st (rfl : (Event.exited 0 stdout now).waits = true) rfl
    (List.Subset.refl _)
  exact ⟨(ph', known), hadvances, hknown, hframe'.trans hframe, harrived⟩

/-! ## The blocks around the work -/

/-- The exit of the S3 client, whichever way the work has ended. -/
theorem closeClient_works {work : Working α} {Q : α → Frame → Prop}
    (h : Works decimal videoId act work x b fun a x' b' =>
      Q a x'.frame ∧ Due videoId act x'.frame b') :
    Works decimal videoId act
      (Routine.closing .s3Client (Working.await .closeClient) work) x b fun a x' b' =>
        Q a x'.frame ∧ Due videoId act x'.frame b' := by
  refine Routine.wp_closing (Script.wp_mono h fun q b' hq => ?_)
  obtain ⟨result, x'⟩ := q
  have hunderway : Underway x'.frame b'.1 := hq.underway
  refine Script.wp_mono (await_works (R := fun _ x'' b'' => x''.frame = x'.frame ∧ b'' = b')
    rfl hunderway fun st now st' outcome hknown h => ?_) ?_
  · cases h
    exact ⟨b', .stay rfl, hknown, rfl, rfl⟩
  · rintro ⟨closed, x''⟩ b'' hclosed
    -- an exit that raises or is cancelled takes the place of the work's end
    rcases closed with (e | _ | _) | _
    · exact hclosed
    · exact hclosed
    · exact hclosed
    · obtain ⟨hframe, rfl⟩ := hclosed
      rcases result with (e | _ | _) | a
      · have hend : e = .io ∧ Underway x''.frame b''.1 := ⟨hq.1, hframe ▸ hq.2⟩
        exact hend
      · have hend : Underway x''.frame b''.1 := hframe ▸ hq
        exact hend
      · exact hq
      · have hend : Q a x''.frame ∧ Due videoId act x''.frame b'' := hframe ▸ hq
        exact hend

/-- The exit of the temporary directory: the phase takes the step of the last call, fails or
vanishes. -/
theorem removeDir_follows {work : Working α} {Q : α → Frame → Prop} {known : List Str}
    (h : Works decimal videoId act work x (ph, known) fun a x' b' =>
      Q a x'.frame ∧ Due videoId act x'.frame b') :
    Script.wp (follows decimal videoId act)
      (fun q b => Ends (fun a x' ph' => Q a x'.frame ∧
        complete videoId act x'.frame x'.now = some ph') q b.1)
      (Routine.closing .workDir (Working.await .removeDir) work x) (ph, known) := by
  refine Routine.wp_closing (Script.wp_mono h fun q b' hq => ?_)
  obtain ⟨result, x'⟩ := q
  have hunderway : Underway x'.frame b'.1 := hq.underway
  obtain ⟨hwanted, hheld⟩ := hunderway.locks act.jobType
  refine ⟨hwanted, hheld, fun st ev st' outcome hknown h => ?_⟩
  obtain ⟨f, io, todo, hb, hf, hlike⟩ := hunderway
  have hfailed (ev : Event) : Advances videoId act st b'.1 ev st (handle f .idle .io) :=
    .failed (hb ▸ rfl)
  cases ev with
  | ok now =>
    cases h
    rcases result with (e | _ | _) | a
    · obtain ⟨rfl, -⟩ := hq
      have hfailing : Failing { x' with now := now } .io (handle f .idle .io) :=
        failing_idle (x := { x' with now := now }) hlike hf .io
      exact ⟨(_, b'.2), hfailed _, hknown, hfailing⟩
    · exact ⟨(_, b'.2), .vanish rfl, hknown, rfl⟩
    · exact hq.elim
    · obtain ⟨hQ, g, io', hb', -, -, hstep⟩ := hq
      obtain ⟨ans, ph', hcomplete, hstep⟩ := hstep now
      obtain ⟨st₁, hstep, hrows, hobjects⟩ := hstep st hknown
      exact ⟨(ph', b'.2), .step ans (hb' ▸ hstep) hrows.symm hobjects fun _ => rfl, hknown, hQ,
        hcomplete⟩
  | error =>
    cases h
    -- an exception of the exit, in the place of what the work ended in
    have hfailing : Failing x' .io (handle f .idle .io) := failing_idle hlike hf .io
    exact ⟨(_, b'.2), hfailed _, hknown, hfailing⟩
  | cancelled => cases h
  | cancelledLate => cases h
  | exited returncode stdout now => cases h
  | noConnection => cases h

/-- The download, the directory and the client around the work. -/
theorem inWorkDir_follows {work : Working α} {Q : α → Frame → Prop} (hf : f.Fresh)
    (hframe : x.frame = f) (hsome : ∀ now, ∃ ph, working videoId act f now todo = some ph)
    (hwork : ∀ x' b', x'.frame = f → Arrived videoId act f todo b' →
      Works decimal videoId act work x' b' fun a x'' b'' =>
        Q a x''.frame ∧ Due videoId act x''.frame b'') :
    Follows decimal videoId act (inWorkDir work) x
      (.work f (.downloadOriginal f.video.current.originalObjectKey :: todo)) fun a x' ph' =>
        Q a x'.frame ∧ complete videoId act x'.frame x'.now = some ph' := by
  refine Follows.bind (R := fun _ x' ph' => x'.frame = f ∧
    ph' = .work f (.downloadOriginal f.video.current.originalObjectKey :: todo)) ?_ ?_
  · refine await_follows rfl rfl ?_ ?_ fun st st' outcome h => by cases h
    · intro st now st' outcome h
      cases h
      exact ⟨_, .stay rfl, hframe, rfl⟩
    · intro st st' outcome h
      cases h
      exact ⟨_, .failed rfl, failing_idle (hframe ▸ .refl _) hf .io⟩
  · rintro _ x' ph' ⟨rfl, rfl⟩ known
    refine removeDir_follows (Works.bind (openClient_works (.of_eq rfl hf rfl)) ?_)
    rintro _ x'' b'' ⟨hframe'', rfl⟩
    refine closeClient_works (Works.get_bind ?_)
    rw [hframe'']
    refine Works.bind (download_works hf hframe'' rfl hsome) ?_
    rintro _ y c ⟨hframe, harrived⟩
    exact hwork y c hframe harrived

/-- What the work leaves in the frame for the completion. -/
structure Frame.Worked (f : Frame) : Prop where
  fresh : f.Fresh
  metadata : f.metadata = none

/-- An upload leaves it so. -/
theorem Frame.Worked.uploaded (h : f.Worked) (assetType : AssetType) (key : Str) :
    (f.uploaded assetType key).Worked := ⟨⟨h.fresh.tx, h.fresh.flushed⟩, h.metadata⟩

/-- The thumbnail is made and uploaded. -/
theorem thumbnailWork_works (hf : f.Worked) (hframe : x.frame = f)
    (hb : Arrived videoId .generateThumbnail f
      [.generateThumbnail, .uploadFile .thumbnail (thumbnailKey videoId)] b) :
    Works decimal videoId .generateThumbnail (do
        generateThumbnailScript
        uploadScript .thumbnail (thumbnailKey videoId)) x b
      fun _ x' b' => x'.frame.Worked ∧ Due videoId .generateThumbnail x'.frame b' := by
  have hsome (f : Frame) (todo : List Io) (now : Time) :
      ∃ ph, working videoId .generateThumbnail f now todo = some ph :=
    working_isSome fun h => by cases h
  obtain ⟨hnil, -⟩ | ⟨-, hb⟩ := hb
  · cases hnil
  · refine Works.bind (R := fun _ x' b' => x'.frame = f ∧
      Arrived videoId .generateThumbnail f [.uploadFile .thumbnail (thumbnailKey videoId)] b') ?_ ?_
    · exact Works.bind (run_plain_works hf.fresh hframe hb (hsome f _) fun _ _ => rfl)
        fun _ _ _ h => h
    · rintro _ x' b' ⟨hframe', ⟨hnil, -⟩ | ⟨-, hb'⟩⟩
      · cases hnil
      · refine Works.mono (uploadScript_works hf.fresh hframe' hb' (hsome _ _)) ?_
        rintro _ x'' b'' ⟨hframe'', ⟨-, hdue⟩ | ⟨hne, -⟩⟩
        · exact ⟨hframe'' ▸ hf.uploaded _ _, hframe'' ▸ hdue⟩
        · exact absurd rfl hne

/-- The loop over the renditions; the phase has its calls in one list. -/
theorem transcodeWork_works {sourceHeight : ℤ} {rs : List Rendition} (hf : f.Worked)
    (hframe : x.frame = f)
    (hb : Arrived videoId (.transcode sourceHeight) f (rs.flatMap fun rendition =>
      [.transcode rendition, .uploadFile rendition.assetType (renditionKey videoId rendition)]) b) :
    Works decimal videoId (.transcode sourceHeight) (rs.forM fun rendition => do
        transcodeScript rendition
        uploadScript rendition.assetType (renditionKey videoId rendition)) x b
      fun _ x' b' => x'.frame.Worked ∧ Due videoId (.transcode sourceHeight) x'.frame b' := by
  have hsome (f : Frame) (todo : List Io) (now : Time) :
      ∃ ph, working videoId (.transcode sourceHeight) f now todo = some ph :=
    working_isSome fun h => by cases h
  -- each rendition is two calls of the list
  induction rs generalizing f x b with
  | nil =>
    obtain ⟨-, hdue⟩ | ⟨hne, -⟩ := hb
    · subst hframe
      exact ⟨hf, hdue⟩
    · exact absurd rfl hne
  | cons rendition rs ih =>
    obtain ⟨hnil, -⟩ | ⟨-, hb⟩ := hb
    · cases hnil
    refine Works.bind (R := fun _ x' b' => x'.frame.Worked ∧
      Arrived videoId (.transcode sourceHeight) x'.frame (rs.flatMap fun rendition =>
        [.transcode rendition, .uploadFile rendition.assetType
          (renditionKey videoId rendition)]) b') ?_ ?_
    · refine Works.bind (R := fun _ x' b' => x'.frame = f ∧
        Arrived videoId (.transcode sourceHeight) f
          (.uploadFile rendition.assetType (renditionKey videoId rendition) ::
            rs.flatMap fun rendition => [.transcode rendition,
              .uploadFile rendition.assetType (renditionKey videoId rendition)]) b') ?_ ?_
      · exact Works.bind (run_plain_works hf.fresh hframe hb (hsome f _) fun _ _ => rfl)
          fun _ _ _ h => h
      · rintro _ x' b' ⟨hframe', ⟨hnil, -⟩ | ⟨-, hb'⟩⟩
        · cases hnil
        · refine Works.mono (uploadScript_works hf.fresh hframe' hb' (hsome _ _)) ?_
          rintro _ x'' b'' ⟨hframe'', harrived⟩
          exact ⟨hframe'' ▸ hf.uploaded _ _, hframe'' ▸ harrived⟩
    · rintro _ x' b' ⟨hworked, harrived⟩
      exact ih hworked rfl harrived

/-! ## The completions -/

variable {t : JobType}

/-- One asset: its row is looked for, then added or changed in the frame. -/
theorem upsertAssetScript_follows {assetType : AssetType} {key : Str}
    (todo : List (AssetType × Str)) (hflushed : x.frame.flushed = .empty) :
    Follows decimal videoId act (upsertAssetScript assetType key) x
      (.selectAsset x.frame ((assetType, key) :: todo)) fun _ x' ph' =>
        ph' = completing x'.frame todo ∧ x'.frame.flushed = .empty ∧
          x'.frame.metadata = x.frame.metadata := by
  refine Follows.get_bind (Follows.bind (R := fun existing x' ph' => x'.frame = x.frame ∧
    ph' = completing (x.frame.upsertAsset existing assetType key) todo) ?_ ?_)
  · refine await_follows rfl rfl ?_ ?_ ?_
    · intro st now st' outcome h
      cases h
      exact ⟨_, .answered rfl, rfl, rfl⟩
    · intro st st' outcome h
      cases h
      exact ⟨_, .failed rfl, failing_broken x .database⟩
    · intro st st' outcome h
      obtain ⟨hidle, h⟩ := Option.ite_none_right_eq_some.mp h
      cases h
      refine ⟨handle x.frame .idle .database, .step .noConnection ?_ rfl (List.Subset.refl _)
        fun _ => rfl, ?_⟩
      · exact if_pos hidle
      · exact failing_idle (.refl _) ⟨hidle, hflushed⟩ .database
  · rintro existing x' ph' ⟨hframe, rfl⟩
    have hflushed' : x'.frame.flushed = .empty := (congrArg Frame.flushed hframe).trans hflushed
    have hmetadata : x'.frame.metadata = x.frame.metadata := congrArg Frame.metadata hframe
    exact fun _ => ⟨by rw [← hframe], hflushed', hmetadata⟩

/-- The loop over the assets, by induction on those still to do. -/
theorem upsertAssets_follows {todo : List (AssetType × Str)} (hflushed : x.frame.flushed = .empty) :
    Follows decimal videoId act (todo.forM fun (assetType, key) => upsertAssetScript assetType key)
      x (completing x.frame todo) fun _ x' ph' =>
        ph' = .flush x'.frame ∧ x'.frame.metadata = x.frame.metadata := by
  induction todo generalizing x with
  | nil => exact fun _ => ⟨rfl, rfl⟩
  | cons asset todo ih =>
    refine Follows.bind (upsertAssetScript_follows todo hflushed) ?_
    rintro _ x' ph' ⟨rfl, hflushed', hmetadata⟩
    refine Follows.mono (ih hflushed') ?_
    rintro _ x'' ph'' ⟨hph'', hmetadata'⟩
    exact ⟨hph'', hmetadata'.trans hmetadata⟩

/-- The rows a commit in an open or failed transaction locks. -/
theorem commit_locks {f : Frame} (t : JobType) (h : f.tx = .broken ∨ f.flushed = .empty) :
    (Operation.call (.commit t f)).locks = [] := by
  rw [Operation.locks]
  split
  · rfl
  · rename_i htx
    rw [h.resolve_left htx]
    rfl

/-- A commit whose transaction has not failed. -/
theorem respond_commit {f : Frame} (h : f.tx ≠ .broken) (t : JobType) (st : Store) (now : Time) :
    (Awaitable.commit t f).respond st (.ok now) =
      if f.accepted st.rows then some ({ st with rows := f.commit t st.rows }, .ok () now)
      else none :=
  if_neg h

/-- A commit that raises fails its transaction. -/
theorem respond_commit_error {f : Frame} (h : f.tx ≠ .broken) (t : JobType) (st : Store) :
    (Awaitable.commit t f).respond st .error = some (st, .raised .database true) :=
  if_neg h

/-- The flush of the writes so far. -/
theorem flush_follows : Follows decimal videoId act (Working.await (.flush act.jobType x.frame)) x
    (.flush x.frame) fun _ x' ph' => x'.frame = x.frame ∧ ph' = .countCompleted x.frame.flush := by
  refine await_follows rfl rfl ?_ ?_ ?_
  · intro st now st' outcome h
    obtain ⟨haccepted, h⟩ := Option.ite_none_right_eq_some.mp h
    cases h
    exact ⟨_, .answered (if_pos haccepted), rfl, rfl⟩
  · intro st st' outcome h
    cases h
    exact ⟨_, .failed rfl, failing_broken x .database⟩
  · intro st st' outcome h
    cases h

/-- The count, of which only whether all jobs are completed is kept. -/
theorem countCompleted_follows : Follows decimal videoId act
    (Working.await (.countCompleted act.jobType x.frame)) x (.countCompleted x.frame)
    fun allCompleted x' ph' => x'.frame = x.frame ∧
      ph' = .commitCompletion (x.frame.completeVideo allCompleted) := by
  refine await_follows rfl rfl ?_ ?_ ?_
  · intro st now st' outcome h
    cases h
    exact ⟨_, .answered rfl, rfl, rfl⟩
  · intro st st' outcome h
    cases h
    exact ⟨_, .failed rfl, failing_broken x .database⟩
  · intro st st' outcome h
    cases h

/-- The last commit, after which the phase has returned. -/
theorem commitCompletion_follows (htx : x.frame.tx = .active) : Follows decimal videoId act
    (Working.await (.commit act.jobType x.frame)) x (.commitCompletion x.frame)
    fun _ _ ph' => ph' = .returned x.frame.metadata := by
  have hbroken : x.frame.tx ≠ .broken := by
    rw [htx]
    exact nofun
  refine await_follows (if_neg hbroken).symm (if_neg hbroken).symm ?_ ?_ ?_
  · intro st now st' outcome h
    obtain ⟨haccepted, h⟩ := Option.ite_none_right_eq_some.mp
      ((respond_commit hbroken ..).symm.trans h)
    cases h
    exact ⟨_, .answered (if_pos haccepted), rfl⟩
  · intro st st' outcome h
    cases (respond_commit_error hbroken ..).symm.trans h
    exact ⟨_, .failed rfl, failing_broken x .database⟩
  · intro st st' outcome h
    cases h

/-- The transaction stays as it is. -/
theorem Frame.completeVideo_tx (f : Frame) (allCompleted : Bool) :
    (f.completeVideo allCompleted).tx = f.tx := by
  cases allCompleted <;> rfl

/-- From the flush of `count_completed_for_video` to the end of a `complete_*_job`. -/
theorem completeVideoScript_follows (ht : act.jobType = t) :
    Follows decimal videoId act (completeVideoScript t) x (.flush x.frame)
      fun _ _ ph' => ph' = .returned x.frame.metadata := by
  subst ht
  -- up to the count, on which the video's status depends
  have hcounted : Follows decimal videoId act (allJobsCompletedScript act.jobType) x
      (.flush x.frame) fun allCompleted x' ph' => x'.frame = x.frame.flush ∧
        ph' = .commitCompletion (x'.frame.completeVideo allCompleted) := by
    refine Follows.get_bind (Follows.bind flush_follows ?_)
    rintro _ x' ph' ⟨hframe, rfl⟩
    rw [← hframe]
    refine Follows.assign_bind (Follows.get_bind ?_)
    refine Follows.mono (countCompleted_follows (x := { x' with frame := x'.frame.flush })) ?_
    rintro allCompleted x'' ph'' ⟨hframe', rfl⟩
    exact ⟨hframe', by rw [hframe']⟩
  refine Follows.bind hcounted ?_
  rintro allCompleted x' ph' ⟨hframe, rfl⟩
  have htx : (x'.frame.completeVideo allCompleted).tx = .active := by
    rw [Frame.completeVideo_tx, hframe]
    rfl
  refine Follows.assign_bind (Follows.get_bind (Follows.bind (commitCompletion_follows
    (x := { x' with frame := x'.frame.completeVideo allCompleted }) htx) ?_))
  rintro _ x'' ph'' rfl
  refine fun _ => ?_
  change Phase.returned _ = _
  rw [Frame.completeVideo_metadata, hframe]
  rfl

/-! ## `complete_*_job` -/

/-- What comes after the assignments to the job. -/
theorem completeJobScript_bind {next : Unit → Working β} {R : β → Locals → Phase → Prop}
    (h : Follows decimal videoId act (next ()) ⟨x.frame.completeJob x.now, x.now⟩ ph R) :
    Follows decimal videoId act (completeJobScript >>= next) x ph R := h

/-- The metadata goes to the frame before the flush. -/
theorem completeMetadataJobScript_follows {m : VideoMetadata} :
    Follows decimal videoId .extractMetadata (completeMetadataJobScript m) x
      (completeMetadataJob x.frame m x.now) fun _ _ ph' => ph' = .returned x.frame.metadata :=
  completeVideoScript_follows (x := ⟨(x.frame.setMetadata m).completeJob x.now, x.now⟩) rfl

/-- One asset and the video. -/
theorem completeThumbnailJobScript_follows {key : Str} (hf : x.frame.Worked) :
    Follows decimal videoId .generateThumbnail (completeThumbnailJobScript key) x
      (completeThumbnailJob x.frame key x.now) fun _ _ ph' => ph' = .returned none := by
  refine completeJobScript_bind (Follows.bind (upsertAssetScript_follows []
    hf.fresh.flushed) ?_)
  rintro _ x' ph' ⟨rfl, -, hmetadata⟩
  have hnone : x'.frame.metadata = none := hmetadata.trans hf.metadata
  rw [← hnone]
  exact completeVideoScript_follows rfl

/-- As many assets as there are renditions, and the video. -/
theorem completeTranscodeJobScript_follows {sourceHeight : ℤ} {renditions : List (AssetType × Str)}
    (hf : x.frame.Worked) :
    Follows decimal videoId (.transcode sourceHeight) (completeTranscodeJobScript renditions) x
      (completeTranscodeJob x.frame renditions x.now) fun _ _ ph' => ph' = .returned none := by
  refine completeJobScript_bind (Follows.bind (upsertAssets_follows hf.fresh.flushed) ?_)
  rintro _ x' ph' ⟨rfl, hmetadata⟩
  have hnone : x'.frame.metadata = none := hmetadata.trans hf.metadata
  rw [← hnone]
  exact completeVideoScript_follows rfl

/-! ## The handler -/

/-- How an activity, or a part of one, ends for its caller. -/
def Concludes {ρ : Type} (R : α → ρ → Phase → Prop) : Except Interrupt α × ρ → Phase → Prop
  | (.ok a, x), ph => R a x ph
  | (.error (.error e), _), ph => ph = .raised e
  | (.error .cancelled, _), ph => ph = .vanished
  -- what it has committed stands
  | (.error .closing, _), ph => ph = .vanished

/-- The phase follows a routine that its caller sees end. -/
abbrev Runs {ρ : Type} (decimal : ℕ → Option ℕ) (videoId : UUID) (act : Activity)
    (routine : Routine Interrupt ρ Operation.Reply Resource α) (y : ρ) (ph : Phase)
    (R : α → ρ → Phase → Prop) : Prop :=
  ∀ known, Script.wp (follows decimal videoId act) (fun q b => Concludes R q b.1) (routine y)
    (ph, known)

/-- One routine after another. -/
theorem Runs.bind {ρ : Type} {routine : Routine Interrupt ρ Operation.Reply Resource α}
    {next : α → Routine Interrupt ρ Operation.Reply Resource β} {y : ρ}
    {R : α → ρ → Phase → Prop} {R' : β → ρ → Phase → Prop}
    (h : Runs decimal videoId act routine y ph R)
    (hnext : ∀ a y' ph', R a y' ph' → Runs decimal videoId act (next a) y' ph' R') :
    Runs decimal videoId act (routine >>= next) y ph R' := by
  refine fun known => Routine.wp_bind (Script.wp_mono (h known) fun q b hq => ?_)
  obtain ⟨result, y'⟩ := q
  obtain ⟨ph', known'⟩ := b
  rcases result with (e | _ | _) | a
  · exact hq
  · exact hq
  · exact hq
  · exact hnext a y' ph' hq known'

/-- `fail_job` and the `raise` after it. -/
theorem failJobScript_runs {e : ActivityError} {R : α → Locals → Phase → Prop}
    (ht : act.jobType = t) (h : Failing x e ph) :
    Runs decimal videoId act (do failJobScript t; throw (.error e) : Working α) x ph R := by
  -- the phase's frame may lack the last notes of the work, which nothing here reads
  obtain ⟨⟨f, ⟨uploads, metadata, rfl⟩, rfl⟩, hflushed⟩ := h
  subst ht
  refine fun known => ⟨rfl, (commit_locks act.jobType hflushed).symm,
    fun st ev st' outcome hknown h => ?_⟩
  cases ev with
  | ok now =>
    -- the commit of a failed transaction raises without asking the database
    by_cases hbroken : x.frame.failJob.tx = .broken
    · cases (if_pos hbroken).symm.trans h
      exact ⟨(_, known), .answered (if_pos hbroken), hknown, rfl⟩
    · obtain ⟨haccepted, h⟩ := Option.ite_none_right_eq_some.mp
        ((respond_commit hbroken ..).symm.trans h)
      cases h
      exact ⟨(_, known), .answered ((if_neg hbroken).trans (if_pos haccepted)), hknown, rfl⟩
  | error =>
    obtain ⟨hbroken, h⟩ := Option.ite_none_left_eq_some.mp h
    cases h
    exact ⟨(_, known), .failed (if_neg hbroken), hknown, rfl⟩
  | cancelled =>
    cases h
    exact ⟨(_, known), .vanish rfl, hknown, rfl⟩
  | exited returncode stdout now => cases h
  | cancelledLate => cases h
  | noConnection => cases h

/-- A body and its handler: a cancellation passes, an exception ends in `fail_job`. -/
theorem guarded_runs {body : Working α} {R : α → Locals → Phase → Prop} (ht : act.jobType = t)
    (h : Follows decimal videoId act body x ph R) :
    Runs decimal videoId act (guarded t body) x ph R := by
  refine fun known => Routine.wp_tryCatch (Script.wp_mono (h known) fun q b hq => ?_)
  obtain ⟨result, x'⟩ := q
  rcases result with (e | _ | _) | a
  · exact failJobScript_runs ht hq b.2
  · exact hq
  · exact hq.elim
  · exact hq

/-! ## The claim -/

variable {now : Time}

/-- A call before the claim, which has its connection. -/
theorem await_runs {c : Awaitable} {R : c.Value → Time → Phase → Prop}
    (hwanted : ph.wanted act.jobType = (Operation.call c).wanted)
    (hlocks : ph.held act.jobType = (Operation.call c).locks)
    (hok : ∀ st now' st' outcome, c.respond st (.ok now') = some (st', outcome) →
      ∃ ph', Advances videoId act st ph (.ok now') st' ph' ∧ Concludes R (outcome.open now) ph')
    (herror : ∀ st st' outcome, c.respond st .error = some (st', outcome) →
      ∃ ph', Advances videoId act st ph .error st' ph' ∧ Concludes R (outcome.open now) ph')
    (hnoConnection : ∀ st, c.respond st .noConnection = none) :
    Runs decimal videoId act (Opening.await c) now ph R := by
  refine fun known => ⟨hwanted, hlocks, fun st ev st' outcome hknown h => ?_⟩
  have hresponds : (Operation.call c).respond decimal st ev = some (st', outcome) := h
  have hknown' := List.Subset.trans hknown (respond_objects hresponds)
  suffices hend : ∃ ph', Advances videoId act st ph ev st' ph' ∧
      Concludes R (outcome.open now) ph' by
    obtain ⟨ph', hadvances, hend⟩ := hend
    exact ⟨(ph', known), hadvances, hknown', hend⟩
  cases ev with
  | ok now' => exact hok st now' st' outcome h
  | error => exact herror st st' outcome h
  | noConnection => cases (hnoConnection st).symm.trans h
  | exited returncode stdout now' => cases (respond_exited c st returncode stdout now').symm.trans h
  | cancelledLate => cases (respond_cancelledLate c st).symm.trans h
  | cancelled =>
    obtain ⟨rfl, rfl⟩ := respond_cancelled h
    exact ⟨_, .vanish rfl, rfl⟩

/-- The video exists, so the first await leads to the second. -/
theorem loadVideoScript_runs : Runs decimal videoId act (loadVideoScript videoId) now .loadVideo
    fun video _ ph' => ph' = .selectJob video := by
  refine Runs.bind (R := fun row _ ph' => ∃ video, row = some video ∧
    ph' = .selectJob (.fresh video)) ?_ ?_
  · refine await_runs rfl rfl ?_ ?_ fun st => rfl
    · intro st now' st' outcome h
      cases h
      exact ⟨_, .answered rfl, _, rfl, rfl⟩
    · intro st st' outcome h
      cases h
      exact ⟨_, .failed rfl, rfl⟩
  · rintro _ now' _ ⟨video, rfl, rfl⟩
    exact fun _ => rfl

/-- What `claim_job` returns. -/
def Claimed (videoId : UUID) (act : Activity) (video : Tracked Video) :
    Option Frame → Phase → Prop
  | none, ph => ph = alreadyCompleted videoId act video
  | some f, ph => f.Worked ∧ ph = claimed videoId act f

/-- The commit of the claim. -/
theorem commitClaim_runs {video : Tracked Video} {job : Tracked ProcessingJob} {claimTime : Time} :
    Runs decimal videoId act (commitClaim act.jobType (claimJob claimTime video job)) now
      (.commitClaim (claimJob claimTime video job))
      fun claim _ ph' => Claimed videoId act video claim ph' := by
  have hbroken : (claimJob claimTime video job).tx ≠ .broken := nofun
  refine Runs.bind (R := fun _ _ ph' =>
    ph' = claimed videoId act (claimJob claimTime video job).committed) ?_ ?_
  · refine await_runs rfl (commit_locks act.jobType (.inr rfl)).symm ?_ ?_ fun st => rfl
    · intro st now' st' outcome h
      obtain ⟨haccepted, h⟩ := Option.ite_none_right_eq_some.mp
        ((respond_commit hbroken ..).symm.trans h)
      cases h
      exact ⟨_, .answered (if_pos haccepted), rfl⟩
    · intro st st' outcome h
      cases (respond_commit_error hbroken ..).symm.trans h
      exact ⟨_, .failed rfl, rfl⟩
  · rintro _ now' _ rfl
    exact fun _ => ⟨⟨⟨rfl, rfl⟩, rfl⟩, rfl⟩

/-- The job's row decides on what comes next. -/
theorem selectJob_runs {video : Tracked Video} : Runs decimal videoId act
    (Opening.await (.selectJob act.jobType)) now (.selectJob video) fun row now' ph' =>
      match row with
      | none => ph' = .insertJob video
      | some job => ph' = if job.status = .completed then alreadyCompleted videoId act video
          else .commitClaim (claimJob now' video (.fresh job)) := by
  refine await_runs rfl rfl ?_ ?_ fun st => rfl
  · intro st now' st' outcome h
    cases h
    cases hjob : st.rows.jobs act.jobType with
    | none =>
      refine ⟨_, .answered ?_, rfl⟩
      simp only [Phase.step, hjob]
    | some job =>
      by_cases hcompleted : job.status = .completed
      · refine ⟨_, .answered ?_, (if_pos hcompleted).symm⟩
        simp only [Phase.step, hjob, if_pos hcompleted]
      · refine ⟨_, .answered ?_, (if_neg hcompleted).symm⟩
        simp only [Phase.step, hjob, if_neg hcompleted]
  · intro st st' outcome h
    cases h
    exact ⟨_, .failed rfl, rfl⟩

/-- A new row, unless another attempt has added one in between. -/
theorem insertJob_runs {video : Tracked Video} : Runs decimal videoId act
    (Opening.await (.insertJob act.jobType)) now (.insertJob video) fun inserted now' ph' =>
      ph' = match inserted with
        | true => .commitClaim (claimJob now' video (.fresh ProcessingJob.new))
        | false => .raised .missingGreenlet := by
  refine await_runs rfl rfl ?_ ?_ fun st => rfl
  · intro st now' st' outcome h
    cases hjob : st.rows.jobs act.jobType with
    | none =>
      simp only [Awaitable.respond, hjob] at h
      cases h
      refine ⟨_, .answered ?_, rfl⟩
      simp only [Phase.step, hjob]
    | some job =>
      simp only [Awaitable.respond, hjob] at h
      cases h
      refine ⟨_, .answered ?_, rfl⟩
      simp only [Phase.step, hjob]
  · intro st st' outcome h
    cases h
    exact ⟨_, .failed rfl, rfl⟩

/-- `claim_job` as a whole, over the three ways to its commit or around it. -/
theorem claimJobScript_runs {video : Tracked Video} : Runs decimal videoId act
    (claimJobScript act.jobType video) now (.selectJob video)
    fun claim _ ph' => Claimed videoId act video claim ph' := by
  refine Runs.bind selectJob_runs ?_
  rintro row now' ph' hrow
  cases row with
  | some job =>
    obtain rfl : ph' = _ := hrow
    change Runs decimal videoId act (if job.status = .completed then pure none
      else do commitClaim act.jobType (claimJob (← get) video (.fresh job))) now' _ _
    by_cases hcompleted : job.status = .completed
    · rw [if_pos hcompleted, if_pos hcompleted]
      exact fun _ => rfl
    · rw [if_neg hcompleted, if_neg hcompleted]
      exact commitClaim_runs
  | none =>
    obtain rfl : ph' = _ := hrow
    refine Runs.bind insertJob_runs ?_
    rintro inserted now'' _ rfl
    cases inserted with
    | true => exact commitClaim_runs
    | false => exact fun _ => rfl

/-! ## The activities -/

/-- A routine with local variables of its own. -/
theorem within_runs {ρ ρ' : Type} {routine : Routine Interrupt ρ Operation.Reply Resource α}
    {y : ρ} {y' : ρ'} {R : α → Phase → Prop}
    (h : Runs decimal videoId act routine y ph fun a _ ph' => R a ph') :
    Runs decimal videoId act (Routine.within y routine) y' ph fun a _ ph' => R a ph' := by
  refine fun known => Script.wp_bind (Script.wp_mono (h known) fun q b hq => ?_)
  obtain ⟨result, x'⟩ := q
  rcases result with (e | _ | _) | a
  · exact hq
  · exact hq
  · exact hq
  · exact hq

/-- The phase that an activity returning this value ends in. -/
abbrev Returning {ρ : Type} (result : Option VideoMetadata) (_ : ρ) (ph : Phase) : Prop :=
  ph = .returned result

/-- A phase that has ended locks nothing. -/
theorem concluded_locks {result : Except Interrupt (Option VideoMetadata)} (t : JobType)
    (h : Concludes Returning (result, now) ph) : ph.wanted t = [] ∧ ph.held t = [] := by
  rcases result with (e | _ | _) | a
  · obtain rfl : ph = .raised e := h
    exact ⟨rfl, rfl⟩
  · obtain rfl : ph = .vanished := h
    exact ⟨rfl, rfl⟩
  · obtain rfl : ph = .vanished := h
    exact ⟨rfl, rfl⟩
  · obtain rfl : ph = .returned a := h
    exact ⟨rfl, rfl⟩

/-- The exit of the session, when the phase has ended with the code: it is vanished when the exit
raises or is cancelled. -/
theorem close_runs {routine : Opening (Option VideoMetadata)}
    (h : Runs decimal videoId act routine now ph Returning) :
    Runs decimal videoId act (Routine.closing .session Opening.close routine) now ph Returning := by
  refine fun known => Routine.wp_closing (Script.wp_mono (h known) fun q b hq => ?_)
  obtain ⟨result, now'⟩ := q
  -- the code has committed or rolled back, so nothing is locked while the session closes
  obtain ⟨hwanted, hheld⟩ := concluded_locks act.jobType hq
  refine ⟨hwanted, hheld, fun st ev st' outcome hknown h => ?_⟩
  cases ev with
  | ok now'' =>
    cases h
    refine ⟨b, .stay rfl, hknown, ?_⟩
    rcases result with (e | _ | _) | a
    · exact hq
    · exact hq
    · exact hq
    · exact hq
  | error =>
    cases h
    exact ⟨(.vanished, b.2), .vanish rfl, hknown, rfl⟩
  | cancelled =>
    cases h
    exact ⟨(.vanished, b.2), .vanish rfl, hknown, rfl⟩
  | cancelledLate => cases h
  | exited returncode stdout now'' => cases h
  | noConnection => cases h

/-- What every activity does before its own work. -/
theorem claiming_runs (act : Activity)
    {next : Tracked Video → Option Frame → Opening (Option VideoMetadata)}
    (hcompleted : ∀ video now', Runs decimal videoId act (next video none) now'
      (alreadyCompleted videoId act video) Returning)
    (hclaimed : ∀ video f now', f.Worked → Runs decimal videoId act (next video (some f)) now'
      (claimed videoId act f) Returning) :
    Runs decimal videoId act (Routine.closing .session Opening.close do
      let video ← loadVideoScript videoId
      let claim ← claimJobScript act.jobType video
      next video claim) now .loadVideo Returning := by
  refine close_runs (Runs.bind loadVideoScript_runs ?_)
  rintro video now' _ rfl
  refine Runs.bind claimJobScript_runs ?_
  rintro claim now'' ph' hclaim
  cases claim with
  | none =>
    obtain rfl : ph' = _ := hclaim
    exact hcompleted video now''
  | some f =>
    obtain ⟨hworked, rfl⟩ := hclaim
    exact hclaimed video f now'' hworked

/-- The metadata activity. -/
theorem extractMetadataActivity_runs : Runs decimal videoId .extractMetadata
    (extractMetadataActivity decimal videoId) now .loadVideo Returning := by
  refine claiming_runs .extractMetadata ?_ ?_
  · intro video now'
    rw [alreadyCompleted]
    -- a completed job has its metadata in the row, or the activity raises
    cases storedMetadata videoId video.current with
    | ok metadata => exact fun _ => rfl
    | error e => exact fun _ => rfl
  · intro video f now' hf
    have hbody : Follows decimal videoId .extractMetadata (do
        let metadata ← inWorkDir (extractMetadataScript decimal)
        completeMetadataJobScript metadata
        return metadata) ⟨f, now'⟩ (claimed videoId .extractMetadata f)
        fun metadata _ ph' => ph' = .returned (some metadata) := by
      refine Follows.bind (inWorkDir_follows (Q := fun m g => g = { f with metadata := some m })
        hf.fresh rfl (fun _ => ⟨_, rfl⟩) ?_) ?_
      · rintro x' b hframe (⟨hnil, -⟩ | ⟨-, hb⟩)
        · cases hnil
        · exact extractMetadataScript_works hf.fresh hframe hb
      · rintro m x' ph' ⟨hframe, hcomplete⟩
        obtain rfl : ph' = completeMetadataJob x'.frame m x'.now := by
          rw [complete, hframe] at hcomplete
          rw [hframe]
          exact (Option.some.inj hcomplete).symm
        refine Follows.bind completeMetadataJobScript_follows ?_
        rintro _ x'' _ rfl known
        change Phase.returned x'.frame.metadata = _
        rw [hframe]
    refine within_runs (Runs.bind (guarded_runs rfl hbody) ?_)
    rintro metadata x' ph' rfl
    exact fun _ => rfl

/-- The thumbnail activity. -/
theorem generateThumbnailActivity_runs : Runs decimal videoId .generateThumbnail
    (generateThumbnailActivity videoId) now .loadVideo Returning := by
  refine claiming_runs .generateThumbnail (fun _ _ _ => rfl) ?_
  intro video f now' hf
  have hbody : Follows decimal videoId .generateThumbnail (do
      inWorkDir do
        generateThumbnailScript
        uploadScript .thumbnail (thumbnailKey videoId)
      completeThumbnailJobScript (thumbnailKey videoId)) ⟨f, now'⟩
      (claimed videoId .generateThumbnail f) fun _ _ ph' => ph' = .returned none := by
    refine Follows.bind (inWorkDir_follows (Q := fun _ g => g.Worked) hf.fresh rfl
      (fun _ => ⟨_, rfl⟩) fun x' b hframe harrived => thumbnailWork_works hf hframe harrived) ?_
    rintro _ x' ph' ⟨hworked, hcomplete⟩
    obtain rfl := Option.some.inj hcomplete
    exact completeThumbnailJobScript_follows hworked
  refine within_runs (Runs.bind (guarded_runs rfl hbody) ?_)
  rintro _ x' ph' rfl
  exact fun _ => rfl

/-- The transcode activity; a source without height fails before its work. -/
theorem transcodeActivity_runs {sourceHeight : ℤ} : Runs decimal videoId (.transcode sourceHeight)
    (transcodeActivity videoId sourceHeight) now .loadVideo Returning := by
  refine claiming_runs (.transcode sourceHeight) (fun _ _ _ => rfl) ?_
  intro video f now' hf
  have hbody : Follows decimal videoId (.transcode sourceHeight) (do
      inWorkDir do
        (renditionsForSourceHeight sourceHeight).forM fun rendition => do
          transcodeScript rendition
          uploadScript rendition.assetType (renditionKey videoId rendition)
      completeTranscodeJobScript (← get).frame.uploads) ⟨f, now'⟩
      (.work f ((Activity.transcode sourceHeight).io videoId f.video.current.originalObjectKey))
      fun _ _ ph' => ph' = .returned none := by
    refine Follows.bind (inWorkDir_follows (Q := fun _ g => g.Worked) hf.fresh rfl
      (fun _ => working_isSome fun h => by cases h)
      fun x' b hframe harrived => transcodeWork_works hf hframe harrived) ?_
    rintro _ x' ph' ⟨hworked, hcomplete⟩
    obtain rfl := Option.some.inj hcomplete
    exact Follows.get_bind (completeTranscodeJobScript_follows hworked)
  refine within_runs ?_
  -- without a height the activity fails its job by itself, outside of the handler
  by_cases hheight : sourceHeight ≤ 0
  · have hfailing : Failing ⟨f, now'⟩ (noSourceHeight videoId sourceHeight)
        (claimed videoId (.transcode sourceHeight) f) :=
      ⟨⟨f, .refl f, if_pos hheight⟩, .inr hf.fresh.flushed⟩
    rw [if_pos hheight]
    exact failJobScript_runs rfl hfailing
  · rw [if_neg hheight, show claimed videoId (.transcode sourceHeight) f = .work f
      ((Activity.transcode sourceHeight).io videoId f.video.current.originalObjectKey) from
        if_neg hheight]
    refine Runs.bind (guarded_runs rfl hbody) ?_
    rintro _ x' ph' rfl
    exact fun _ => rfl

/-- The phases follow every activity function from its start on. -/
theorem script_runs (act : Activity) : Runs decimal videoId act (act.script decimal videoId) now
    .loadVideo Returning := by
  cases act with
  | extractMetadata => exact extractMetadataActivity_runs
  | generateThumbnail => exact generateThumbnailActivity_runs
  | transcode sourceHeight => exact transcodeActivity_runs

end VideoProcessing
