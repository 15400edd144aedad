import VideoProcessing.Worker.Shim

/-!
# One message between its awaits

A call of `_handle_message` as the point it has got to, so that calls for several messages can be
interleaved. `Handling.outcome` is what is left of the call, in the terms of `handleMessage`; every
step the call takes keeps it.
-/

namespace VideoProcessing.Shim

open Python

/-- Where a call of `_handle_message` stands. -/
inductive Handling where
  /-- its task has not run yet -/
  | created (message : Message)
  /-- at `db.get`, for the event at a place of the message and the events after it -/
  | reading (place : ℕ) (objectKey : Str) (videoId : UUID) (rest : List ObjectCreatedEvent)
  /-- at `start_workflow` -/
  | starting (place : ℕ) (videoId : UUID) (rest : List ObjectCreatedEvent)
  /-- at `delete_message` -/
  | deleting
  /-- it returned, after the message was deleted -/
  | deleted
  /-- it returned, after an exception was logged -/
  | logged
  /-- the exception of `delete_message` left it -/
  | raised

/-- What an awaited call comes back with. -/
inductive Reply where
  /-- a task runs for the first time -/
  | scheduled
  /-- of `db.get`; `none` where it raises -/
  | read (video : Option (Option Video))
  | start (outcome : StartOutcome)
  | delete (ok : Bool)

/-- The loop of `process_message` up to its next await. -/
def Handling.next (place : ℕ) : List ObjectCreatedEvent → Handling
  | [] => .deleting
  | event :: rest =>
    match parseVideoIdFromKey event.key with
    | none => next (place + 1) rest
    | some videoId => .reading place event.key videoId rest

/-- A call up to its first await. -/
def Handling.begin (messageBody : Str) : Handling :=
  match parseObjectCreatedEvents messageBody with
  | none => .logged
  | some events => next 0 events

/-- A call from an await to the next one. -/
def Handling.resume : Handling → Reply → Option Handling
  | .created message, .scheduled => some (begin message.body)
  | .reading .., .read none => some .logged
  | .reading place objectKey videoId rest, .read (some video) =>
    some (if keyMatches objectKey video then .starting place videoId rest
      else next (place + 1) rest)
  | .starting place _ rest, .start outcome =>
    some (match startProcessing outcome with
      | none => .logged
      | some () => next (place + 1) rest)
  | .deleting, .delete ok => some (if ok then .deleted else .raised)
  | _, _ => none

/-- The call has returned or raised. -/
def Handling.over : Handling → Bool
  | .deleted | .logged | .raised => true
  | _ => false

/-! ## One call with its outcomes -/

/-- A message, and what its call will meet: what the reads and starts return, and whether the delete
succeeds. -/
structure Plan where
  message : Message
  outcomes : Outcomes
  deleteOk : Bool

/-- What comes back from the call a handling is at. -/
def Plan.reply (plan : Plan) : Handling → Reply
  | .reading place _ videoId _ => .read (plan.outcomes.read place videoId)
  | .starting place _ _ => .start (plan.outcomes.start place)
  | .deleting => .delete plan.deleteOk
  | _ => .scheduled

/-- A call takes its next step. -/
def Plan.advance (plan : Plan) (handling : Handling) : Option Handling :=
  handling.resume (plan.reply handling)

/-- The end of a call, from what `process_message` does. -/
def Plan.finish (plan : Plan) : Option Unit → Handling
  | none => .logged
  | some () => if plan.deleteOk then .deleted else .raised

/-- The end of a call that has got this far. -/
def Plan.outcome (plan : Plan) : Handling → Handling
  | .created message => plan.finish (processMessage plan.outcomes message)
  | .reading place objectKey videoId rest =>
    plan.finish ((plan.outcomes.read place videoId).bind fun video =>
      (if keyMatches objectKey video then startProcessing (plan.outcomes.start place)
        else some ()).bind fun () => processEvents plan.outcomes (place + 1) rest)
  | .starting place _ rest =>
    plan.finish ((startProcessing (plan.outcomes.start place)).bind fun () =>
      processEvents plan.outcomes (place + 1) rest)
  | .deleting => plan.finish (some ())
  | handling => handling

/-- Going on with the loop is processing the events that are left. -/
theorem Plan.outcome_next (plan : Plan) (place : ℕ) (events : List ObjectCreatedEvent) :
    plan.outcome (.next place events) = plan.finish (processEvents plan.outcomes place events) := by
  induction events generalizing place with
  | nil => rfl
  | cons event rest ih =>
    rw [Handling.next, processEvents, processEvent, resolveVideoId]
    cases parseVideoIdFromKey event.key with
    | none => exact ih (place + 1)
    | some videoId =>
      simp only [outcome]
      congr 1
      cases plan.outcomes.read place videoId with
      | none => rfl
      | some video => cases hmatch : keyMatches event.key video <;> simp [hmatch]

/-- A call ends as its message is processed. -/
theorem Plan.outcome_begin (plan : Plan) (message : Message) :
    plan.outcome (.begin message.body) = plan.finish (processMessage plan.outcomes message) := by
  rw [Handling.begin, processMessage]
  cases parseObjectCreatedEvents message.body with
  | none => rfl
  | some events => exact plan.outcome_next 0 events

/-- A step of the call does not change how it will end. -/
theorem Plan.outcome_advance {plan : Plan} {h h' : Handling} (hstep : plan.advance h = some h') :
    plan.outcome h' = plan.outcome h := by
  cases h with
  | created message =>
    obtain rfl := Option.some.inj hstep
    exact plan.outcome_begin message
  | reading place objectKey videoId rest =>
    simp only [advance, reply] at hstep
    -- the row read at this place is the one the outcome was computed from
    cases hread : plan.outcomes.read place videoId with
    | none =>
      rw [hread] at hstep
      obtain rfl := Option.some.inj hstep
      simp only [outcome, hread]
      rfl
    | some video =>
      rw [hread] at hstep
      obtain rfl := Option.some.inj hstep
      cases hmatch : keyMatches objectKey video with
      | true => simp only [outcome, hread, hmatch, if_true, Option.bind_some]
      | false =>
        rw [if_neg Bool.false_ne_true, outcome_next]
        simp only [outcome, hread, hmatch, Option.bind_some]
        rfl
  | starting place videoId rest =>
    obtain rfl := Option.some.inj hstep
    simp only [outcome]
    cases startProcessing (plan.outcomes.start place) with
    | none => rfl
    | some => exact plan.outcome_next _ _
  | deleting =>
    obtain rfl := Option.some.inj hstep
    cases hok : plan.deleteOk <;> simp [outcome, finish, hok]
  | _ => exact nomatch hstep

/-! ## Every call ends -/

/-- A bound on the steps a call can still take. -/
def Handling.fuel : Handling → ℕ
  | .created message => 2 * ((parseObjectCreatedEvents message.body).getD []).length + 2
  | .reading _ _ _ rest => 2 * rest.length + 3
  | .starting _ _ rest => 2 * rest.length + 2
  | .deleting => 1
  | .deleted | .logged | .raised => 0

/-- Two awaits for an event, and the delete. -/
theorem Handling.fuel_next (place : ℕ) (events : List ObjectCreatedEvent) :
    (next place events).fuel ≤ 2 * events.length + 1 := by
  induction events generalizing place with
  | nil => exact Nat.le_refl _
  | cons event rest ih =>
    have hrest := ih (place + 1)
    rw [next, List.length_cons]
    split
    · omega
    · simp only [fuel]
      omega

/-- The first await costs one. -/
theorem Handling.fuel_begin (message : Message) :
    (begin message.body).fuel < (created message).fuel := by
  rw [begin, fuel]
  cases parseObjectCreatedEvents message.body with
  | none => exact Nat.succ_pos _
  | some events => exact Nat.lt_succ_of_le (fuel_next 0 events)

/-- A step lowers the bound. -/
theorem Handling.fuel_resume {h h' : Handling} {reply : Reply} (hstep : h.resume reply = some h') :
    h'.fuel < h.fuel := by
  unfold resume at hstep
  split at hstep
  · rename_i message
    obtain rfl := Option.some.inj hstep
    exact fuel_begin message
  · obtain rfl := Option.some.inj hstep
    exact Nat.succ_pos _
  · rename_i place objectKey videoId rest video
    obtain rfl := Option.some.inj hstep
    have hnext := fuel_next (place + 1) rest
    -- a key that matches goes on to a start, another to the next record
    have hstarting : (starting place videoId rest).fuel = 2 * rest.length + 2 := rfl
    rw [show (reading place objectKey videoId rest).fuel = 2 * rest.length + 3 from rfl]
    split <;> omega
  · rename_i place videoId rest outcome
    obtain rfl := Option.some.inj hstep
    have hnext := fuel_next (place + 1) rest
    rw [show (starting place videoId rest).fuel = 2 * rest.length + 2 from rfl]
    split
    · exact Nat.succ_pos _
    · omega
  · rename_i ok
    obtain rfl := Option.some.inj hstep
    cases ok <;> exact Nat.one_pos
  · exact nomatch hstep

/-- A call that is over has got to its end. -/
theorem Plan.outcome_of_over {plan : Plan} {h : Handling} (hover : h.over = true) :
    plan.outcome h = h := by
  cases h <;> first | rfl | exact nomatch hover

/-- A call that is not over can go on. -/
theorem Plan.isSome_advance {plan : Plan} {h : Handling} (hover : h.over = false) :
    (plan.advance h).isSome := by
  cases h with
  | reading place objectKey videoId rest =>
    simp only [advance, reply]
    cases plan.outcomes.read place videoId <;> rfl
  | _ => first | rfl | exact nomatch hover

end VideoProcessing.Shim
