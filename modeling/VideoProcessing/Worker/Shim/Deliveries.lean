import Mathlib.Data.List.Basic
import VideoProcessing.Library.Transitions
import VideoProcessing.Platform
import VideoProcessing.Worker.Shim.Handling

/-!
# Deliveries of many messages

The queue, the `videos` table and the Temporal server under any number of concurrent deliveries: the
queue may deliver a message again while it is handled and after it was deleted, a reply of the
server or of the queue may be lost, a handling may be cut off anywhere, and rows may be added and
executions closed at any moment.

The server's part is its workflow ID policy. A message is deleted only when every event in it names
no video or has been answered for by the server, and what the server has accepted stays accepted,
whatever happens to deliveries and replies.
-/

namespace VideoProcessing.Shim

open Python Transitions

/-! ## The system -/

/-- How the call of `delete_message` ends. -/
inductive DeleteReply where
  | received
  /-- the queue has deleted the message, but the call raises -/
  | lost
  | failed
deriving DecidableEq, Repr

/-- A delivery of a message, and how far its handling is. -/
structure Delivery where
  message : ℕ
  handling : Handling

structure World where
  videos : UUID → Option Video
  /-- the body of every message that was ever sent -/
  sent : ℕ → Option Str
  deleted : ℕ → Bool
  deliveries : ℕ → Option Delivery
  /-- newest first -/
  executions : List Execution

/-- The world before the first message, over any table. -/
def World.initial (videos : UUID → Option Video) : World where
  videos := videos
  sent := fun _ => none
  deleted := fun _ => false
  deliveries := fun _ => none
  executions := []

inductive Label where
  /-- `create_video` commits a row -/
  | create (videoId : UUID) (video : Video)
  /-- S3 or `retry_video` puts a message on the queue -/
  | send (m : ℕ) (body : Str)
  /-- the shim receives a message -/
  | receive (d m : ℕ)
  /-- `db.get` of a delivery returns, or raises -/
  | read (d : ℕ) (ok : Bool)
  | start (d : ℕ) (reply : StartReply)
  | delete (d : ℕ) (reply : DeleteReply)
  /-- a delivery is cut off -/
  | vanish (d : ℕ)
  /-- the open execution of a workflow ID closes -/
  | close (workflowId : Str) (ok : Bool)

/-- Delivery `d` of message `m` has got to a point. -/
def World.put (w : World) (d m : ℕ) (handling : Handling) : World :=
  { w with deliveries := Function.update w.deliveries d (some ⟨m, handling⟩) }

/-- The handling of a delivery goes on with a reply. -/
def World.resume (w : World) (d : ℕ) (delivery : Delivery) (reply : Reply) : Option World :=
  (delivery.handling.resume reply).map (w.put d delivery.message)

def World.read (w : World) (d : ℕ) (ok : Bool) : Option World :=
  (w.deliveries d).bind fun delivery =>
    match delivery.handling with
    | .reading _ _ videoId _ =>
      w.resume d delivery (.read (if ok then some (w.videos videoId) else none))
    | _ => none

/-- The server gets the request of `_start_processing`: what it has then, and what it answers. -/
def World.serve (w : World) (videoId : UUID) : World × StartOutcome :=
  match startWorkflow w.executions videoId.str videoId with
  | some executions => ({ w with executions := executions }, .started)
  | none => (w, .alreadyStarted)

def World.start (w : World) (d : ℕ) (reply : StartReply) : Option World :=
  (w.deliveries d).bind fun delivery =>
    match delivery.handling with
    | .starting _ videoId _ =>
      match reply with
      | .received => (w.serve videoId).1.resume d delivery (.start (w.serve videoId).2)
      | .lost => (w.serve videoId).1.resume d delivery (.start .error)
      | .failed => w.resume d delivery (.start .error)
    | _ => none

/-- The queue deletes a message. -/
def World.remove (w : World) (m : ℕ) : World :=
  { w with deleted := Function.update w.deleted m true }

def World.delete (w : World) (d : ℕ) (reply : DeleteReply) : Option World :=
  (w.deliveries d).bind fun delivery =>
    match delivery.handling with
    | .deleting =>
      match reply with
      | .received => (w.remove delivery.message).resume d delivery (.delete true)
      | .lost => (w.remove delivery.message).resume d delivery (.delete false)
      | .failed => w.resume d delivery (.delete false)
    | _ => none

def World.step (w : World) : Label → Option World
  | .create videoId video =>
    if w.videos videoId = none then
      some { w with videos := Function.update w.videos videoId (some video) }
    else none
  | .send m body =>
    if w.sent m = none then some { w with sent := Function.update w.sent m (some body) } else none
  | .receive d m => (w.sent m).bind fun body =>
    if (w.deliveries d).isNone then some (w.put d m (.begin body)) else none
  | .read d ok => w.read d ok
  | .start d reply => w.start d reply
  | .delete d reply => w.delete d reply
  | .vanish d => some { w with deliveries := Function.update w.deliveries d none }
  | .close workflowId ok => some { w with
      executions := closeWorkflow w.executions workflowId (if ok then .completed else .failed) }

/-! ## The steps of a delivery -/

@[simp] theorem World.put_deliveries_self (w : World) (d m : ℕ) (handling : Handling) :
    (w.put d m handling).deliveries d = some ⟨m, handling⟩ := Function.update_self ..

/-- The other deliveries stay where they are. -/
theorem World.put_deliveries_of_ne (w : World) {d d' : ℕ} (hd : d' ≠ d) (m : ℕ)
    (handling : Handling) : (w.put d m handling).deliveries d' = w.deliveries d' :=
  Function.update_of_ne hd ..

/-- A read lets the start follow or the loop go on. -/
theorem World.read_eq_some {w w' : World} {d : ℕ} {ok : Bool} (h : w.read d ok = some w') :
    ∃ m place objectKey videoId rest,
      w.deliveries d = some ⟨m, .reading place objectKey videoId rest⟩ ∧
      (w' = w.put d m .logged ∨
        w' = w.put d m (if keyMatches objectKey (w.videos videoId) then .starting place videoId rest
          else .next (place + 1) rest)) := by
  obtain ⟨⟨m, handling⟩, hd, h⟩ := Option.bind_eq_some_iff.mp h
  dsimp only at h
  split at h
  · rename_i place objectKey videoId rest
    refine ⟨m, place, objectKey, videoId, rest, hd, ?_⟩
    cases ok with
    | false => exact .inl (Option.some.inj h).symm
    | true => exact .inr (Option.some.inj h).symm
  · exact nomatch h

/-- A start lets the loop go on or ends the handling. -/
theorem World.start_eq_some {w w' : World} {d : ℕ} {reply : StartReply}
    (h : w.start d reply = some w') : ∃ m place videoId rest,
      w.deliveries d = some ⟨m, .starting place videoId rest⟩ ∧
      (w' = w.put d m .logged ∨ w' = (w.serve videoId).1.put d m .logged ∨
        w' = (w.serve videoId).1.put d m (.next (place + 1) rest)) := by
  obtain ⟨⟨m, handling⟩, hd, h⟩ := Option.bind_eq_some_iff.mp h
  dsimp only at h
  split at h
  · rename_i place videoId rest
    refine ⟨m, place, videoId, rest, hd, ?_⟩
    cases reply with
    | received =>
      refine .inr (.inr ?_)
      have houtcome : startProcessing (w.serve videoId).2 = some () := by
        unfold serve
        split <;> rfl
      have h := (Option.some.inj h).symm
      rwa [houtcome] at h
    | lost => exact .inr (.inl (Option.some.inj h).symm)
    | failed => exact .inl (Option.some.inj h).symm
  · exact nomatch h

/-- A delete ends the handling. -/
theorem World.delete_eq_some {w w' : World} {d : ℕ} {reply : DeleteReply}
    (h : w.delete d reply = some w') : ∃ m handling,
      w.deliveries d = some ⟨m, .deleting⟩ ∧ (handling = .deleted ∨ handling = .raised) ∧
      (w' = w.put d m handling ∨ w' = (w.remove m).put d m handling) := by
  obtain ⟨⟨m, handling⟩, hd, h⟩ := Option.bind_eq_some_iff.mp h
  dsimp only at h
  split at h
  · cases reply with
    | received => exact ⟨m, .deleted, hd, .inl rfl, .inr (Option.some.inj h).symm⟩
    | lost => exact ⟨m, .raised, hd, .inr rfl, .inr (Option.some.inj h).symm⟩
    | failed => exact ⟨m, .raised, hd, .inr rfl, .inl (Option.some.inj h).symm⟩
  · exact nomatch h

/-! ## What a step leaves -/

/-- An execution of the video has been started. -/
def World.Started (w : World) (videoId : UUID) : Prop := ∃ e ∈ w.executions, e.videoId = videoId

/-- Closing an execution undoes no start. -/
theorem started_closeWorkflow {executions : List Execution} {workflowId : Str}
    {status : ExecutionStatus} {videoId : UUID} (h : ∃ e ∈ executions, e.videoId = videoId) :
    ∃ e ∈ closeWorkflow executions workflowId status, e.videoId = videoId := by
  obtain ⟨e, he, rfl⟩ := h
  exact ⟨_, List.mem_map_of_mem he, rfl⟩

/-- After the server got the request the video has an execution, whatever it answered. -/
theorem World.started_serve {w : World} (hids : Identified w.executions) (videoId : UUID) :
    (w.serve videoId).1.Started videoId := by
  unfold serve startWorkflow
  cases haccepted : startAccepted (statuses w.executions videoId.str) with
  | true => exact ⟨_, List.mem_cons_self, rfl⟩
  | false =>
    -- a refused start has an execution to refer to
    cases hall : statuses w.executions videoId.str with
    | nil =>
      rw [hall] at haccepted
      exact nomatch haccepted
    | cons latest older =>
      obtain ⟨e, he, hid, -⟩ := mem_statuses.mp (hall ▸ List.mem_cons_self)
      rw [hids e he] at hid
      exact ⟨e, he, UUID.str_injective hid⟩

/-! ## The server and the queue in every state -/

/-- What holds of every state. -/
structure World.Sound (w : World) : Prop where
  identified : Identified w.executions
  exclusive : Exclusive w.executions
  deliveries_sent : ∀ d delivery, w.deliveries d = some delivery → (w.sent delivery.message).isSome
  deleted_sent : ∀ m, w.deleted m = true → (w.sent m).isSome

/-- Before anything happens. -/
theorem World.sound_initial (videos : UUID → Option Video) : (initial videos).Sound where
  identified _ he := nomatch he
  exclusive := .nil
  deliveries_sent _ _ h := nomatch h
  deleted_sent _ h := nomatch h

/-- A start. -/
theorem World.Sound.serve {w : World} (h : w.Sound) (videoId : UUID) :
    (w.serve videoId).1.Sound := by
  unfold World.serve
  cases hstart : startWorkflow w.executions videoId.str videoId with
  | none => exact h
  | some executions =>
    refine ⟨?_, h.exclusive.start hstart, h.deliveries_sent, h.deleted_sent⟩
    unfold startWorkflow at hstart
    split at hstart
    · obtain rfl := Option.some.inj hstart
      exact List.forall_mem_cons.mpr ⟨rfl, h.identified⟩
    · exact nomatch hstart

/-- A handling goes on. -/
theorem World.Sound.put {w : World} (h : w.Sound) {d m : ℕ} (hm : (w.sent m).isSome)
    (handling : Handling) : (w.put d m handling).Sound := by
  refine ⟨h.identified, h.exclusive, fun d' delivery hd' => ?_, h.deleted_sent⟩
  by_cases hd : d' = d
  · subst hd
    rw [World.put_deliveries_self] at hd'
    obtain rfl := Option.some.inj hd'
    exact hm
  · rw [World.put_deliveries_of_ne _ hd] at hd'
    exact h.deliveries_sent d' delivery hd'

/-- A delete. -/
theorem World.Sound.remove {w : World} (h : w.Sound) {m : ℕ} (hm : (w.sent m).isSome) :
    (w.remove m).Sound := by
  refine ⟨h.identified, h.exclusive, h.deliveries_sent, fun m' hm' => ?_⟩
  by_cases heq : m' = m
  · subst heq
    exact hm
  · exact h.deleted_sent m' ((Function.update_of_ne heq ..).symm.trans hm')

/-- A start sends no message. -/
theorem World.serve_sent (w : World) (videoId : UUID) : (w.serve videoId).1.sent = w.sent := by
  unfold serve
  split <;> rfl

/-- Every step. -/
theorem World.Sound.step {w w' : World} {l : Label} (h : w.Sound) (hstep : w.step l = some w') :
    w'.Sound := by
  cases l with
  | create videoId video =>
    simp only [World.step] at hstep
    split at hstep
    · obtain rfl := Option.some.inj hstep
      exact ⟨h.identified, h.exclusive, h.deliveries_sent, h.deleted_sent⟩
    · exact nomatch hstep
  | send m body =>
    simp only [World.step] at hstep
    split at hstep
    · obtain rfl := Option.some.inj hstep
      -- messages are only added
      have hsent {m' : ℕ} (hm' : (w.sent m').isSome) :
          (Function.update w.sent m (some body) m').isSome := by
        by_cases hm : m' = m
        · subst hm
          rw [Function.update_self]
          rfl
        · rwa [Function.update_of_ne hm]
      exact ⟨h.identified, h.exclusive,
        fun d delivery hd => hsent (h.deliveries_sent d delivery hd),
        fun m' hm' => hsent (h.deleted_sent m' hm')⟩
    · exact nomatch hstep
  | receive d m =>
    obtain ⟨body, hbody, hstep⟩ := Option.bind_eq_some_iff.mp hstep
    split at hstep
    · obtain rfl := Option.some.inj hstep
      exact h.put (Option.isSome_iff_exists.mpr ⟨body, hbody⟩) _
    · exact nomatch hstep
  | read d ok =>
    obtain ⟨m, _, _, _, _, hd, rfl | rfl⟩ := World.read_eq_some hstep <;>
      exact h.put (h.deliveries_sent d _ hd) _
  | start d reply =>
    obtain ⟨m, _, videoId, _, hd, rfl | rfl | rfl⟩ := World.start_eq_some hstep
    · exact h.put (h.deliveries_sent d _ hd) _
    · exact (h.serve videoId).put (by rw [World.serve_sent]; exact h.deliveries_sent d _ hd) _
    · exact (h.serve videoId).put (by rw [World.serve_sent]; exact h.deliveries_sent d _ hd) _
  | delete d reply =>
    obtain ⟨m, handling, hd, -, rfl | rfl⟩ := World.delete_eq_some hstep
    · exact h.put (h.deliveries_sent d _ hd) _
    · exact (h.remove (h.deliveries_sent d _ hd)).put (h.deliveries_sent d _ hd) _
  | vanish d =>
    obtain rfl := Option.some.inj hstep
    -- a delivery that ends leaves its message where it is
    refine ⟨h.identified, h.exclusive, fun d' delivery hd' => ?_, h.deleted_sent⟩
    by_cases hd : d' = d
    · subst hd
      exact nomatch (Function.update_self ..).symm.trans hd'
    · exact h.deliveries_sent d' delivery ((Function.update_of_ne hd ..).symm.trans hd')
  | close workflowId ok =>
    obtain rfl := Option.some.inj hstep
    refine ⟨fun e he => ?_, h.exclusive.close _ _, h.deliveries_sent, h.deleted_sent⟩
    obtain ⟨e', he', rfl⟩ := List.mem_map.mp he
    exact h.identified e' he'

/-! ## The videos a message names -/

/-- The event resolves to the video, over a table that answers. -/
def EventNames (videos : UUID → Option Video) (videoId : UUID) (event : ObjectCreatedEvent) :
    Prop :=
  resolveVideoId (fun id => some (videos id)) event.key = some (some videoId)

/-- The message has an event of the video. -/
def Names (videos : UUID → Option Video) (messageBody : Str) (videoId : UUID) : Prop :=
  ∃ events, parseObjectCreatedEvents messageBody = some events ∧
    ∃ event ∈ events, EventNames videos videoId event

/-- Unless an exception stops it, the handling still asks for an execution of the video. -/
def Handling.Owes (videos : UUID → Option Video) (videoId : UUID) : Handling → Prop
  | .created message => Names videos message.body videoId
  | .reading _ objectKey id rest =>
    (id = videoId ∧ keyMatches objectKey (videos videoId) = true) ∨
      ∃ event ∈ rest, EventNames videos videoId event
  | .starting _ id rest => id = videoId ∨ ∃ event ∈ rest, EventNames videos videoId event
  | .logged => True
  | .deleting | .deleted | .raised => False

/-- An event names a video by its key. -/
theorem eventNames_iff {videos : UUID → Option Video} {videoId : UUID}
    {event : ObjectCreatedEvent} :
    EventNames videos videoId event ↔ parseVideoIdFromKey event.key = some videoId ∧
      keyMatches event.key (videos videoId) = true := by
  unfold EventNames resolveVideoId
  split
  · rename_i hparse
    simp [hparse]
  · rename_i id hparse
    simp only [hparse, Option.map_some, Option.some.injEq, Option.ite_none_right_eq_some]
    constructor
    · rintro ⟨hmatch, rfl⟩
      exact ⟨rfl, hmatch⟩
    · rintro ⟨rfl, hmatch⟩
      exact ⟨hmatch, rfl⟩

/-- The loop does not go past an event of the video. -/
theorem Handling.owes_next {videos : UUID → Option Video} {videoId : UUID} (place : ℕ)
    {events : List ObjectCreatedEvent} (h : ∃ event ∈ events, EventNames videos videoId event) :
    (next place events).Owes videos videoId := by
  induction events generalizing place with
  | nil =>
    obtain ⟨_, hmem, -⟩ := h
    cases hmem
  | cons event rest ih =>
    obtain ⟨event', hmem, hnames⟩ := h
    rw [next]
    split
    · rename_i hparse
      rcases List.mem_cons.mp hmem with rfl | hmem
      · cases hparse.symm.trans (eventNames_iff.mp hnames).1
      · exact ih (place + 1) ⟨event', hmem, hnames⟩
    · rename_i id hparse
      rcases List.mem_cons.mp hmem with rfl | hmem
      · obtain ⟨hparse', hmatch⟩ := eventNames_iff.mp hnames
        exact .inl ⟨Option.some.inj (hparse.symm.trans hparse'), hmatch⟩
      · exact .inr ⟨event', hmem, hnames⟩

/-- A handling begins with what its message names. -/
theorem Handling.owes_begin {videos : UUID → Option Video} {videoId : UUID} {messageBody : Str}
    (h : Names videos messageBody videoId) : (begin messageBody).Owes videos videoId := by
  obtain ⟨events, hparse, hevent⟩ := h
  rw [begin, hparse]
  exact owes_next 0 hevent

/-! ## Added rows change no name -/

section Rows

variable {videos videos' : UUID → Option Video} {videoId : UUID}

/-- Rows that are added take no name away. -/
theorem EventNames.mono (hrows : ∀ id video, videos id = some video → videos' id = some video)
    {event : ObjectCreatedEvent} (h : EventNames videos videoId event) :
    EventNames videos' videoId event := by
  obtain ⟨hparse, hmatch⟩ := eventNames_iff.mp h
  obtain ⟨video, hvideo, -⟩ := (Option.any_eq_true _ _).mp hmatch
  refine eventNames_iff.mpr ⟨hparse, ?_⟩
  rwa [hrows videoId video hvideo, ← hvideo]

/-- Nor from a message. -/
theorem Names.mono (hrows : ∀ id video, videos id = some video → videos' id = some video)
    {messageBody : Str} (h : Names videos messageBody videoId) :
    Names videos' messageBody videoId := by
  obtain ⟨events, hparse, event, hmem, hevent⟩ := h
  exact ⟨events, hparse, event, hmem, hevent.mono hrows⟩

/-- Nor from a handling. -/
theorem Handling.Owes.mono (hrows : ∀ id video, videos id = some video → videos' id = some video)
    {handling : Handling} (h : handling.Owes videos videoId) : handling.Owes videos' videoId := by
  have hrest {rest : List ObjectCreatedEvent}
      (h : ∃ event ∈ rest, EventNames videos videoId event) :
      ∃ event ∈ rest, EventNames videos' videoId event := by
    obtain ⟨event, hmem, hevent⟩ := h
    exact ⟨event, hmem, hevent.mono hrows⟩
  cases handling with
  | created message => exact Names.mono hrows h
  | reading place objectKey id rest =>
    refine Or.imp ?_ hrest h
    rintro ⟨rfl, hmatch⟩
    obtain ⟨video, hvideo, -⟩ := (Option.any_eq_true _ _).mp hmatch
    exact ⟨rfl, by rwa [hrows id video hvideo, ← hvideo]⟩
  | starting place id rest => exact Or.imp_right hrest h
  | logged => trivial
  | _ => exact nomatch h

end Rows

/-! ## One message and one video it names -/

/-- As long as the video has no execution, the message is on the queue and every handling of it
still asks for one. -/
structure World.Tracks (w : World) (m : ℕ) (videoId : UUID) : Prop where
  names : ∃ body, w.sent m = some body ∧ Names w.videos body videoId
  owes : ∀ d delivery, w.deliveries d = some delivery → delivery.message = m →
    delivery.handling.Owes w.videos videoId ∨ w.Started videoId
  deleted : w.deleted m = true → w.Started videoId

section Tracks

variable {w w' : World} {m : ℕ} {videoId : UUID}

/-- A message just sent, which nobody has seen. -/
theorem World.Sound.tracks {body : Str} (h : w.Sound) (hstep : w.step (.send m body) = some w')
    (hnames : Names w.videos body videoId) : w'.Tracks m videoId := by
  simp only [World.step] at hstep
  split at hstep
  · rename_i hfresh
    obtain rfl := Option.some.inj hstep
    refine ⟨⟨body, Function.update_self .., hnames⟩, ?_, fun hdeleted => ?_⟩
    · rintro d delivery hd rfl
      have hsent := h.deliveries_sent d delivery hd
      rw [hfresh] at hsent
      exact nomatch hsent
    · have hsent := h.deleted_sent m hdeleted
      rw [hfresh] at hsent
      exact nomatch hsent
  · exact nomatch hstep

/-- A handling that goes on still owes the start, or it was made. -/
theorem World.Tracks.put (h : w.Tracks m videoId) {d m' : ℕ} {handling : Handling}
    (hnew : m' = m → handling.Owes w.videos videoId ∨ w.Started videoId) :
    (w.put d m' handling).Tracks m videoId := by
  refine ⟨h.names, fun d' delivery hd' hm => ?_, h.deleted⟩
  by_cases hd : d' = d
  · subst hd
    rw [World.put_deliveries_self] at hd'
    obtain rfl := Option.some.inj hd'
    exact hnew hm
  · rw [World.put_deliveries_of_ne _ hd] at hd'
    exact h.owes d' delivery hd' hm

/-- A message is deleted after the start. -/
theorem World.Tracks.remove (h : w.Tracks m videoId) {m' : ℕ}
    (hstarted : m' = m → w.Started videoId) : (w.remove m').Tracks m videoId := by
  refine ⟨h.names, h.owes, fun hdeleted => ?_⟩
  by_cases hm : m = m'
  · exact hstarted hm.symm
  · exact h.deleted ((Function.update_of_ne hm ..).symm.trans hdeleted)

/-- What the server does keeps the executions that were started. -/
theorem World.Tracks.withExecutions (h : w.Tracks m videoId) {executions : List Execution}
    (hstarted : w.Started videoId → ∃ e ∈ executions, e.videoId = videoId) :
    ({ w with executions := executions } : World).Tracks m videoId :=
  ⟨h.names, fun d delivery hd hm => (h.owes d delivery hd hm).imp_right hstarted,
    fun hdeleted => hstarted (h.deleted hdeleted)⟩

/-- A start undoes none. -/
theorem World.Tracks.serve (h : w.Tracks m videoId) (id : UUID) :
    (w.serve id).1.Tracks m videoId := by
  unfold World.serve startWorkflow
  split
  · rename_i hstart
    refine h.withExecutions ?_
    rintro ⟨e, he, hid⟩
    split at hstart
    · obtain rfl := Option.some.inj hstart
      exact ⟨e, List.mem_cons_of_mem _ he, hid⟩
    · exact nomatch hstart
  · exact h

/-- A start moves no delivery by itself. -/
theorem World.serve_deliveries (w : World) (id : UUID) :
    (w.serve id).1.deliveries = w.deliveries := by
  unfold serve
  split <;> rfl

/-- Every step keeps track of the message. -/
theorem World.Tracks.step {l : Label} (hsound : w.Sound) (h : w.Tracks m videoId)
    (hstep : w.step l = some w') : w'.Tracks m videoId := by
  cases l with
  | create id video =>
    simp only [World.step] at hstep
    split at hstep
    · rename_i hfresh
      obtain rfl := Option.some.inj hstep
      have hrows : ∀ id' video', w.videos id' = some video' →
          Function.update w.videos id (some video) id' = some video' := by
        intro id' video' hrow
        have hne : id' ≠ id := by
          rintro rfl
          cases hfresh.symm.trans hrow
        rwa [Function.update_of_ne hne]
      obtain ⟨body, hsent, hnames⟩ := h.names
      exact ⟨⟨body, hsent, hnames.mono hrows⟩,
        fun d delivery hd hm => (h.owes d delivery hd hm).imp_left (·.mono hrows), h.deleted⟩
    · cases hstep
  | send m' body =>
    simp only [World.step] at hstep
    split at hstep
    · rename_i hfresh
      obtain rfl := Option.some.inj hstep
      obtain ⟨body', hsent, hnames⟩ := h.names
      have hne : m ≠ m' := by
        rintro rfl
        cases hfresh.symm.trans hsent
      exact ⟨⟨body', (Function.update_of_ne hne ..).trans hsent, hnames⟩, h.owes, h.deleted⟩
    · cases hstep
  | receive d m' =>
    obtain ⟨body, hbody, hstep⟩ := Option.bind_eq_some_iff.mp hstep
    split at hstep
    · obtain rfl := Option.some.inj hstep
      refine h.put ?_
      rintro rfl
      obtain ⟨body', hsent, hnames⟩ := h.names
      obtain rfl := Option.some.inj (hbody.symm.trans hsent)
      exact .inl (Handling.owes_begin hnames)
    · cases hstep
  | read d ok =>
    obtain ⟨m', place, objectKey, id, rest, hd, rfl | rfl⟩ := World.read_eq_some hstep
    · exact h.put fun _ => .inl trivial
    · refine h.put fun hm => (h.owes d _ hd hm).imp_left fun howes => ?_
      split
      · exact howes.imp_left And.left
      · rename_i hmatch
        -- the place read is the one that names the video, or a later one does
        rcases howes with ⟨rfl, hmatch'⟩ | hrest
        · exact absurd hmatch' hmatch
        · exact Handling.owes_next _ hrest
  | start d reply =>
    obtain ⟨m', place, id, rest, hd, rfl | rfl | rfl⟩ := World.start_eq_some hstep
    · exact h.put fun _ => .inl trivial
    · exact (h.serve id).put fun _ => .inl trivial
    · refine (h.serve id).put fun hm => ?_
      have hd' : (w.serve id).1.deliveries d = some ⟨m', .starting place id rest⟩ := by
        rwa [World.serve_deliveries]
      -- this request may be the one the message owes
      rcases (h.serve id).owes d _ hd' hm with (rfl | hrest) | hstarted
      · exact .inr (World.started_serve hsound.identified id)
      · exact .inl (Handling.owes_next _ hrest)
      · exact .inr hstarted
  | delete d reply =>
    obtain ⟨m', handling, hd, -, rfl | rfl⟩ := World.delete_eq_some hstep
    · -- a message is deleted once every request it owes is made
      exact h.put fun hm => .inr ((h.owes d _ hd hm).resolve_left id)
    · have hstarted (hm : m' = m) : w.Started videoId := (h.owes d _ hd hm).resolve_left id
      exact (h.remove hstarted).put fun hm => .inr (hstarted hm)
  | vanish d =>
    obtain rfl := Option.some.inj hstep
    refine ⟨h.names, fun d' delivery hd' hm => ?_, h.deleted⟩
    by_cases hd : d' = d
    · subst hd
      cases (Function.update_self ..).symm.trans hd'
    · exact h.owes d' delivery ((Function.update_of_ne hd ..).symm.trans hd') hm
  | close workflowId ok =>
    obtain rfl := Option.some.inj hstep
    exact h.withExecutions started_closeWorkflow

end Tracks

/-! ## Every run -/

/-- Whatever happens after a message is sent: once it is deleted, the videos it names have had an
execution. -/
theorem started_of_deleted {videos : UUID → Option Video} {before after : List Label} {m : ℕ}
    {body : Str} {w w' : World} (hbefore : exec World.step (.initial videos) before = some w)
    (hafter : exec World.step w (.send m body :: after) = some w') (hdeleted : w'.deleted m = true)
    {videoId : UUID} (hnames : Names w.videos body videoId) : w'.Started videoId := by
  have hsound : w.Sound :=
    exec_invariant (fun _ _ _ h => h.step) (World.sound_initial videos) hbefore
  obtain ⟨w₁, hsend, hafter⟩ := Option.bind_eq_some_iff.mp hafter
  have htracks : w'.Sound ∧ w'.Tracks m videoId :=
    exec_invariant (I := fun w => w.Sound ∧ w.Tracks m videoId)
      (fun _ _ _ h hstep => ⟨h.1.step hstep, h.2.step h.1 hstep⟩)
      ⟨hsound.step hsend, hsound.tracks hsend hnames⟩ hafter
  exact htracks.2.deleted hdeleted

/-- A message is deleted exactly when all of it is done with, and in every run deleted messages have
started what they name, without a second open execution or one after a Completed one. -/
theorem acknowledged_when_safe :
    (∀ outcomes message,
      handleMessage outcomes message = some message.receiptHandle ↔ Settles outcomes message) ∧
    ∀ (videos : UUID → Option Video) (before after : List Label) (w w' : World),
      exec World.step (.initial videos) before = some w → exec World.step w after = some w' →
        (∀ m body rest, after = .send m body :: rest → w'.deleted m = true →
          ∀ videoId, Names w.videos body videoId → w'.Started videoId) ∧
        OpenOnce w'.executions ∧ CompletedLast w'.executions := by
  refine ⟨fun _ _ => handleMessage_eq_some, fun videos before after w w' hbefore hafter => ?_⟩
  have hsound : w'.Sound := by
    refine exec_invariant (I := World.Sound) (fun _ _ _ h => h.step) ?_ hafter
    exact exec_invariant (fun _ _ _ h => h.step) (World.sound_initial videos) hbefore
  refine ⟨?_, hsound.exclusive.openOnce hsound.identified,
    hsound.exclusive.completedLast hsound.identified⟩
  rintro m body rest rfl hdeleted videoId hnames
  exact started_of_deleted hbefore hafter hdeleted hnames

def oneKey : Str := str "uploads/" ++ UUID.str ⟨0⟩ ++ str "/original.mp4"

/-- A table with one video. -/
def oneVideo (videoId : UUID) : Option Video :=
  if videoId = ⟨0⟩ then some (.new (str "clip.mp4") oneKey) else none

/-- The server's answer to the first delivery is lost, and the second one finds the execution. -/
def redelivered (body : Str) : List Label :=
  [.send 0 body, .receive 0 0, .read 0 true, .start 0 .lost, .receive 1 0, .read 1 true,
    .start 1 .received, .delete 1 .received]

/-- A message that is handled twice, with one start. -/
theorem redelivered_started : ∃ body w,
    exec World.step (.initial oneVideo) (redelivered body) = some w ∧
    w.deleted 0 = true ∧ w.Started ⟨0⟩ ∧ OpenOnce w.executions := by
  have hbuilt : (buildObjectCreatedMessage (str "videos") oneKey).any fun body =>
      (exec World.step (.initial oneVideo) (redelivered body)).any fun w => w.deleted 0 := by
    decide +kernel
  have hkey : parseVideoIdFromKey oneKey = some ⟨0⟩ ∧
      keyMatches oneKey (oneVideo ⟨0⟩) = true := by decide +kernel
  obtain ⟨body, hbody, hany⟩ := (Option.any_eq_true _ _).mp hbuilt
  obtain ⟨w, hrun, hdeleted⟩ := (Option.any_eq_true _ _).mp hany
  obtain ⟨name, hparse⟩ := (notifies_build (by decide) hbody).parse
  have hnames : Names oneVideo body ⟨0⟩ :=
    ⟨_, hparse, _, List.mem_singleton_self _, eventNames_iff.mpr hkey⟩
  obtain ⟨hstarted, hopen, -⟩ := acknowledged_when_safe.2 oneVideo [] _ _ w rfl hrun
  exact ⟨body, w, hrun, hdeleted, hstarted 0 body _ rfl hdeleted ⟨0⟩ hnames, hopen⟩

end VideoProcessing.Shim
