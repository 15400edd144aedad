import VideoProcessing.Common.Models
import VideoProcessing.Common.S3Events

/-!
# The shim

`_resolve_video_id`, `_start_processing`, `process_message` and `_handle_message` of
`worker/sqs_shim.py`, over what their database reads and `start_workflow` calls return. `none`
stands for an exception.
-/

namespace VideoProcessing.Shim

open Python

/-- The row is that of the key, which the emulator may have ended with a backslash. -/
def keyMatches (objectKey : Str) (video : Option Video) : Bool :=
  video.any fun video => removesuffix objectKey (str "\\") = video.originalObjectKey

/-- `_resolve_video_id`, given what `db.get` returns for an identifier. -/
def resolveVideoId (read : UUID → Option (Option Video)) (objectKey : Str) : Option (Option UUID) :=
  match parseVideoIdFromKey objectKey with
  | none => some none
  | some videoId => (read videoId).map fun video =>
    if keyMatches objectKey video then some videoId else none

/-- How `client.start_workflow` ends. -/
inductive StartOutcome where
  | started
  /-- `WorkflowAlreadyStartedError` -/
  | alreadyStarted
  | error
deriving DecidableEq, Repr

/-- `_start_processing`. -/
def startProcessing : StartOutcome → Option Unit
  | .started => some ()
  | .alreadyStarted => some ()
  | .error => none

/-- What the calls made for each event of a message return, by its place in the message. -/
structure Outcomes where
  read : ℕ → UUID → Option (Option Video)
  start : ℕ → StartOutcome

/-- The body of the loop of `process_message`. -/
def processEvent (outcomes : Outcomes) (i : ℕ) (event : ObjectCreatedEvent) : Option Unit :=
  (resolveVideoId (outcomes.read i) event.key).bind fun
    | none => some ()
    | some _ => startProcessing (outcomes.start i)

/-- The loop of `process_message` from the event at place `i` on. -/
def processEvents (outcomes : Outcomes) : ℕ → List ObjectCreatedEvent → Option Unit
  | _, [] => some ()
  | i, event :: events => (processEvent outcomes i event).bind fun () =>
    processEvents outcomes (i + 1) events

/-- What the shim reads of an SQS message. -/
structure Message where
  body : Str
  receiptHandle : Str

/-- `process_message`. -/
def processMessage (outcomes : Outcomes) (message : Message) : Option Unit :=
  (parseObjectCreatedEvents message.body).bind (processEvents outcomes 0)

/-- The receipt handle for which `_handle_message` calls `delete_message`, if it gets there. -/
def handleMessage (outcomes : Outcomes) (message : Message) : Option Str :=
  (processMessage outcomes message).map fun () => message.receiptHandle

/-! ## Keys that resolve -/

/-- A key resolves only to a video whose row has it, or has it without the backslash. -/
theorem eq_of_resolveVideoId {read : UUID → Option (Option Video)} {objectKey : Str}
    {videoId : UUID} (h : resolveVideoId read objectKey = some (some videoId)) :
    parseVideoIdFromKey objectKey = some videoId ∧ ∃ video, read videoId = some (some video) ∧
      (objectKey = video.originalObjectKey ∨
        objectKey = video.originalObjectKey ++ str "\\") := by
  unfold resolveVideoId at h
  split at h
  · exact nomatch h
  · rename_i id hparse
    obtain ⟨video, hread, hvideo⟩ := Option.map_eq_some_iff.mp h
    split at hvideo
    · rename_i hmatch
      obtain rfl := Option.some.inj hvideo
      obtain ⟨video, rfl, hkey⟩ := (Option.any_eq_true _ _).mp hmatch
      exact ⟨hparse, video, hread, eq_of_removesuffix (of_decide_eq_true hkey)⟩
    · exact nomatch hvideo

/-- An event is resolved if the row has its key. -/
theorem resolveVideoId_eq_some {read : UUID → Option (Option Video)} {objectKey : Str}
    {videoId : UUID} {video : Video} (hparse : parseVideoIdFromKey objectKey = some videoId)
    (hread : read videoId = some (some video))
    (hkey : removesuffix objectKey (str "\\") = video.originalObjectKey) :
    resolveVideoId read objectKey = some (some videoId) := by
  simp [resolveVideoId, hparse, hread, keyMatches, hkey]

/-! ## Messages that are deleted -/

/-- The event is done with: it resolves to no video, or its start was accepted or is a duplicate. -/
def EventSettled (outcomes : Outcomes) (i : ℕ) (event : ObjectCreatedEvent) : Prop :=
  resolveVideoId (outcomes.read i) event.key = some none ∨
    ∃ videoId, resolveVideoId (outcomes.read i) event.key = some (some videoId) ∧
      (outcomes.start i = .started ∨ outcomes.start i = .alreadyStarted)

/-- Reading the message and handling each of its events gives no exception. -/
def Settles (outcomes : Outcomes) (message : Message) : Prop :=
  ∃ events, parseObjectCreatedEvents message.body = some events ∧
    ∀ i (h : i < events.length), EventSettled outcomes i events[i]

/-- A start is settled by an acceptance or a duplicate. -/
theorem startProcessing_eq_some {outcome : StartOutcome} :
    startProcessing outcome = some () ↔ outcome = .started ∨ outcome = .alreadyStarted := by
  cases outcome <;> simp [startProcessing]

/-- An event is settled if it names no video or its start is. -/
theorem processEvent_eq_some {outcomes : Outcomes} {i : ℕ} {event : ObjectCreatedEvent} :
    processEvent outcomes i event = some () ↔ EventSettled outcomes i event := by
  unfold processEvent EventSettled
  rcases resolveVideoId (outcomes.read i) event.key with _ | _ | videoId
  · simp
  · simp
  · simp [startProcessing_eq_some]

/-- The loop ends when every event from this place on is done with. -/
theorem processEvents_eq_some {outcomes : Outcomes} {place : ℕ} {events : List ObjectCreatedEvent} :
    processEvents outcomes place events = some () ↔
      ∀ i (h : i < events.length), EventSettled outcomes (place + i) events[i] := by
  induction events generalizing place with
  | nil => simp [processEvents]
  | cons event events ih =>
    rw [processEvents, Option.bind_eq_some_iff]
    constructor
    · rintro ⟨_, hevent, hevents⟩ i hi
      cases i with
      | zero => exact processEvent_eq_some.mp hevent
      | succ i =>
        have hsettled := ih.mp hevents i (Nat.lt_of_succ_lt_succ hi)
        rwa [Nat.add_right_comm] at hsettled
    · intro h
      refine ⟨(), processEvent_eq_some.mpr (h 0 (Nat.succ_pos _)), ih.mpr fun i hi => ?_⟩
      rw [Nat.add_right_comm]
      exact h (i + 1) (Nat.succ_lt_succ hi)

/-- A message is settled if its body is read and all its events are. -/
theorem processMessage_eq_some {outcomes : Outcomes} {message : Message} :
    processMessage outcomes message = some () ↔ Settles outcomes message := by
  simp only [processMessage, Settles, Option.bind_eq_some_iff, processEvents_eq_some, Nat.zero_add]

/-- A message is deleted exactly when all of it is done with. -/
theorem handleMessage_eq_some {outcomes : Outcomes} {message : Message} :
    handleMessage outcomes message = some message.receiptHandle ↔ Settles outcomes message := by
  rw [← processMessage_eq_some, handleMessage, Option.map_eq_some_iff]
  exact ⟨fun ⟨_, h, _⟩ => h, fun h => ⟨(), h, rfl⟩⟩

end VideoProcessing.Shim
