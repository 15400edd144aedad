import VideoProcessing.Library.Selection
import VideoProcessing.Platform.Deployment
import VideoProcessing.Worker.Assets
import VideoProcessing.Worker.Shim.Recognition

/-!
# One video of the whole platform

Every run of the whole platform is, for each video, a run of the platform around that video alone:
its rows, attempts, executions and requests are the same, the messages are those that name it, and a
delivery stands before, at or behind the start its message asks for. That is under the three
conditions on the whole platform's steps: bodies name no video twice, new identifiers are ones no
message names, and what the queue has deleted is not delivered again.

The simulation keeps, beside the state around the video, the places on the queue and among the
deliveries that concern it. Steps of other videos change neither, and a step of the queue or the
shim is one step around the video or none.
-/

namespace VideoProcessing

open Python UnitOfWork Transitions Selection

variable {id : UUID} {key : Str}

/-! ## The messages of one video -/

/-- The event resolves to the video with this ID and this key. -/
def ObjectCreatedEvent.isOf (id : UUID) (key : Str) (event : ObjectCreatedEvent) : Bool :=
  parseVideoIdFromKey event.key = some id && removesuffix event.key (str "\\") = key

/-- The message asks for an execution of the video. -/
def asksFor (id : UUID) (key messageBody : Str) : Bool :=
  (messageEvents messageBody).any (·.isOf id key)

/-- The handling has yet to ask for an execution of the video. -/
def Shim.Handling.asksFor (id : UUID) (key : Str) : Shim.Handling → Bool
  | .reading _ objectKey videoId rest =>
    (videoId = id && removesuffix objectKey (str "\\") = key) || rest.any (·.isOf id key)
  | .starting _ videoId rest => videoId = id || rest.any (·.isOf id key)
  | _ => false

/-- The loop asks for what its events ask for. -/
theorem Shim.Handling.asksFor_next (place : ℕ) (events : List ObjectCreatedEvent) :
    (Shim.Handling.next place events).asksFor id key = events.any (·.isOf id key) := by
  induction events generalizing place with
  | nil => rfl
  | cons event rest ih =>
    rw [Shim.Handling.next, List.any_cons, ObjectCreatedEvent.isOf]
    cases parseVideoIdFromKey event.key with
    | none => exact ih (place + 1)
    | some videoId => simp only [Shim.Handling.asksFor, Option.some.injEq]

/-- The loop ends at the delete. -/
theorem Shim.Handling.over_next (place : ℕ) (events : List ObjectCreatedEvent) :
    (Shim.Handling.next place events).over = false := by
  induction events generalizing place with
  | nil => rfl
  | cons event rest ih =>
    rw [Shim.Handling.next]
    split
    · exact ih (place + 1)
    · rfl

/-- A handling asks for what its message asks for. -/
theorem Shim.Handling.asksFor_begin (messageBody : Str) :
    (Shim.Handling.begin messageBody).asksFor id key =
      VideoProcessing.asksFor id key messageBody := by
  rw [Shim.Handling.begin, VideoProcessing.asksFor, messageEvents]
  cases parseObjectCreatedEvents messageBody with
  | none => rfl
  | some events => exact Shim.Handling.asksFor_next 0 events

/-- An event that is dealt with is the only one of its video. -/
theorem any_isOf_eq_false {events : List ObjectCreatedEvent} (h : id ∉ videoIds events) :
    events.any (·.isOf id key) = false := by
  refine List.any_eq_false.mpr fun event hevent hof => h ?_
  rw [ObjectCreatedEvent.isOf, Bool.and_eq_true] at hof
  exact List.mem_filterMap.mpr ⟨event, hevent, of_decide_eq_true hof.1⟩

/-- The key of the video resolves to it. -/
def Resolves (id : UUID) (key : Str) : Prop :=
  parseVideoIdFromKey key = some id ∧ removesuffix key (str "\\") = key

/-- A video that any event resolves to has a key that does. -/
theorem ObjectCreatedEvent.isOf_resolves {request : CreateVideoRequest}
    {event : ObjectCreatedEvent}
    (h : event.isOf id (buildUploadObjectKey id request.filename) = true) :
    Resolves id (buildUploadObjectKey id request.filename) := by
  rw [ObjectCreatedEvent.isOf, Bool.and_eq_true] at h
  obtain ⟨hparse, hkey⟩ := h
  have hparse := of_decide_eq_true hparse
  have hkey := of_decide_eq_true hkey
  rcases eq_of_removesuffix hkey with heq | heq
  · rw [heq] at hparse hkey
    exact ⟨hparse, hkey⟩
  · rw [heq, buildUploadObjectKey, List.append_assoc] at hparse
    have hplain := plainExtension_of_tail request.suffix_ne_nil
      (parseVideoIdFromKey_upload.mp hparse)
    exact ⟨parseVideoIdFromKey_upload.mpr hplain.tail.1, hplain.removesuffix id⟩

/-- The message of a retry asks for its video. -/
theorem Resolves.asksFor_retryMessage (h : Resolves id key) {settings : Settings} {video : Video}
    {body : Str} (hkey : video.originalObjectKey = key)
    (hbody : retryMessage settings video = some body) : asksFor id key body = true := by
  obtain ⟨name, hevents⟩ := retryMessage_events hbody
  rw [asksFor, hevents, List.any_cons, ObjectCreatedEvent.isOf, hkey, h.1, h.2]
  simp

/-- A handling of a message that names the video, as a delivery of the platform around it. -/
def Shows (id : UUID) (key : Str) : Option Shim.Handling → DeliveryPhase → Prop
  | none, phase => phase = .over
  | some handling, phase =>
    if handling.over then phase = .over
    else if handling.asksFor id key then phase = .starting
    else ∃ outcome, phase = .deleting outcome

/-- Before the start of the video. -/
theorem shows_of_asksFor {handling : Shim.Handling} {phase : DeliveryPhase}
    (hover : handling.over = false) (hasks : handling.asksFor id key = true) :
    Shows id key (some handling) phase ↔ phase = .starting := by
  rw [Shows, if_neg (by rw [hover]; exact Bool.false_ne_true), if_pos hasks]

/-- Behind it. -/
theorem shows_of_not_asksFor {handling : Shim.Handling} {phase : DeliveryPhase}
    (hover : handling.over = false) (hasks : handling.asksFor id key = false) :
    Shows id key (some handling) phase ↔ ∃ outcome, phase = .deleting outcome := by
  rw [Shows, if_neg (by rw [hover]; exact Bool.false_ne_true),
    if_neg (by rw [hasks]; exact Bool.false_ne_true)]

/-! ## The steps on the video -/

variable {s s' : State} {l : Label}

/-- The state without its queue and the shim. -/
def State.alone (s : State) : State := { s with messages := [], deliveries := [] }

/-- A step on the video is the same beside any messages and deliveries. -/
theorem State.step_onSite (hl : l.onSite = true) :
    s.step l = (s.alone.step l).map fun s' =>
      { s' with messages := s.messages ++ s'.messages, deliveries := s.deliveries } := by
  -- a label of the site reads nothing of the queue, so the two sides unfold alike
  cases l with
  | resume | vanish | decide =>
    simp only [State.step, State.alone, Option.map_map, Function.comp_def, List.append_nil]
  | dispatch t =>
    simp only [State.step, State.dispatch, State.alone]
    cases s.temporal.task? t with
    | none => rfl
    | some x =>
      obtain ⟨tasks, task⟩ := x
      rw [Option.bind_some, Option.bind_some]
      cases task.state <;> simp
  | report t =>
    simp only [State.step, State.report, State.alone]
    cases s.temporal.task? t with
    | none => rfl
    | some x =>
      obtain ⟨tasks, task⟩ := x
      rw [Option.bind_some, Option.bind_some]
      cases task.state with
      | running failures i =>
        dsimp only
        split <;> simp
      | waiting | succeeded | failed => rfl
  | timeOut t =>
    simp only [State.step, State.timeOut, State.alone]
    cases s.temporal.task? t with
    | none => rfl
    | some x =>
      obtain ⟨tasks, task⟩ := x
      rw [Option.bind_some, Option.bind_some]
      cases task.state <;> simp
  | retryBegin => simp [State.step, State.alone, State.retryBegin]
  | retryStep r ok =>
    simp only [State.step, State.retryStep, State.alone]
    cases s.requests[r]? with
    | none => rfl
    | some phase =>
      cases ok with
      | false => cases phase <;> simp
      | true =>
        cases phase with
        | read => by_cases hstatus : s.rows.video.status = .failed <;> simp [hstatus, State.rows]
        | commit video =>
          by_cases hblocked : s.pool.blocked s.pool.attempts.length [.video] = true <;>
            simp [hblocked, State.withVideo]
        | send | returned | notFailed | raised => simp
  | notify | receive | start | delete | retryVideo => cases hl

/-- What a step on the video puts on the queue. -/
theorem State.step_publishes (h : s.alone.step l = some s') (hl : l.onSite = true) :
    (s.alone.publishes l = none ∧ s'.messages = []) ∨
      ∃ r video, s.requests[r]? = some (.send video) ∧ s.alone.publishes l = some video.current ∧
        s'.messages = [⟨.retry r, none⟩] := by
  cases State.step_moves h with
  | @retrySend r video hr =>
    refine .inr ⟨r, video, hr, ?_, rfl⟩
    rw [State.publishes, hr]
  | retryRead hr | retryRefused hr | retryCommit hr =>
    refine .inl ⟨?_, rfl⟩
    rw [State.publishes, hr]
  | notify | receive | start | refuse | delete | deleteFails | retryVideo | retryVideoRefused =>
    cases hl
  | _ => exact .inl ⟨rfl, rfl⟩

/-- Nothing has happened on the video that a start would have to come before. -/
structure State.Inert (s : State) : Prop where
  temporal : s.temporal = ⟨[], none⟩
  attempts : s.pool.attempts = []
  status : s.status ≠ .failed
  requests : ∀ (r : ℕ) phase, s.requests[r]? = some phase →
    (∀ video, phase ≠ .send video) ∧ ∀ video, phase ≠ .commit video

/-- The row keeps its key, and so do the copies of it that requests hold; where the key does not
resolve nothing has happened. -/
structure State.Rooted (id : UUID) (key : Str) (s : State) : Prop where
  originalObjectKey : s.rows.video.originalObjectKey = key
  sends : ∀ (r : ℕ) video, s.requests[r]? = some (.send video) →
    video.current.originalObjectKey = key
  ready : Resolves id key ∨ s.Inert

/-- A video is created under its key. -/
theorem State.rooted_created (id : UUID) (filename key : Str) :
    (State.created id filename key).Rooted id key where
  originalObjectKey := rfl
  sends := fun r video hr => by simp [State.created] at hr
  ready := .inr ⟨rfl, rfl, fun heq => (by cases heq),
    fun r phase hr => (by simp [State.created] at hr)⟩

/-- A step on the video leaves a video alone that nothing has happened on. -/
theorem State.Inert.step (h : s.Inert) (hl : l.onSite = true) (hstep : s.step l = some s') :
    s'.Inert := by
  have hset {r : ℕ} {phase : RetryPhase} (hsend : ∀ video, phase ≠ .send video)
      (hcommit : ∀ video, phase ≠ .commit video) (r' : ℕ) (phase' : RetryPhase)
      (hr' : (s.requests.set r phase)[r']? = some phase') :
      (∀ video, phase' ≠ .send video) ∧ ∀ video, phase' ≠ .commit video := by
    rcases getElem?_set_cases hr' with ⟨-, rfl⟩ | ⟨-, hr'⟩
    · exact ⟨hsend, hcommit⟩
    · exact h.requests r' phase' hr'
  have hclosed {tasks : Tasks} (hcurrent : s.temporal.current = some tasks) : False := by
    rw [h.temporal] at hcurrent
    cases hcurrent
  -- no execution and no attempt: what can move are messages and requests
  cases State.step_moves hstep with
  | resume hpool =>
    obtain ⟨a, _, _, ha, -⟩ := Pool.resume_eq_some hpool
    rw [h.attempts] at ha
    cases ha
  | vanish hpool =>
    obtain ⟨a, ha, -⟩ := Pool.vanish_eq_some hpool
    rw [h.attempts] at ha
    cases ha
  | dispatch hcurrent | reportReturned hcurrent | reportRaised hcurrent | timeOut hcurrent =>
    exact (hclosed hcurrent).elim
  | decide hdecides =>
    cases hdecides with
    | schedule hcurrent | complete hcurrent | fail hcurrent => exact (hclosed hcurrent).elim
  | retryBegin =>
    refine ⟨h.temporal, h.attempts, h.status, fun r phase hr => ?_⟩
    rcases getElem?_append_cases hr with ⟨-, rfl⟩ | hr
    · exact ⟨fun video heq => (by cases heq), fun video heq => (by cases heq)⟩
    · exact h.requests r phase hr
  | retryRead hr hstatus => exact absurd hstatus h.status
  | retryRefused hr hstatus | retryRaises =>
    refine ⟨h.temporal, h.attempts, h.status, hset ?_ ?_⟩
    · exact fun video heq => by cases heq
    · exact fun video heq => by cases heq
  | retrySend hr => exact absurd rfl ((h.requests _ _ hr).1 _)
  | retryCommit hr => exact absurd rfl ((h.requests _ _ hr).2 _)
  | notify | receive | start | refuse | delete | deleteFails | retryVideo | retryVideoRefused =>
    cases hl

/-- A step of its own leaves it there. -/
theorem State.Rooted.step (h : s.Rooted id key) (hl : l.onSite = true)
    (hstep : s.step l = some s') : s'.Rooted id key := by
  have hready : Resolves id key ∨ s'.Inert := h.ready.imp_right fun hinert => hinert.step hl hstep
  -- a retry's message carries the key of the row it has read
  have hset {r : ℕ} {phase : RetryPhase}
      (hphase : ∀ video, phase = .send video → video.current.originalObjectKey = key) (r' : ℕ)
      (video : Tracked Video) (hr' : (s.requests.set r phase)[r']? = some (.send video)) :
      video.current.originalObjectKey = key := by
    rcases getElem?_set_cases hr' with ⟨-, heq⟩ | ⟨-, hr'⟩
    · exact hphase video heq.symm
    · exact h.sends r' video hr'
  cases State.step_moves hstep with
  | resume hpool =>
    obtain ⟨a, st, ph, ha, hres, rfl⟩ := Pool.resume_eq_some hpool
    exact ⟨hres.originalObjectKey.trans h.originalObjectKey, h.sends, hready⟩
  | vanish hpool =>
    obtain ⟨a, ha, rfl⟩ := Pool.vanish_eq_some hpool
    exact ⟨h.originalObjectKey, h.sends, hready⟩
  | dispatch | reportReturned | reportRaised | timeOut | decide =>
    exact ⟨h.originalObjectKey, h.sends, hready⟩
  | retryBegin =>
    refine ⟨h.originalObjectKey, fun r video hr => ?_, hready⟩
    rcases getElem?_append_cases hr with ⟨-, heq⟩ | hr
    · cases heq
    · exact h.sends r video hr
  | retryRead =>
    refine ⟨h.originalObjectKey, hset fun video heq => ?_, hready⟩
    obtain rfl := RetryPhase.send.inj heq
    exact h.originalObjectKey
  | retryRefused | retrySend | retryRaises | retryCommit =>
    exact ⟨h.originalObjectKey, hset fun video heq => (by cases heq), hready⟩
  | notify | receive | start | refuse | delete | deleteFails | retryVideo | retryVideoRefused =>
    cases hl

/-- So does what happens on the queue. -/
theorem State.Rooted.withQueue (h : s.Rooted id key) (messages : List Message)
    (deliveries : List Delivery) :
    ({ s with messages := messages, deliveries := deliveries } : State).Rooted id key :=
  ⟨h.originalObjectKey, h.sends, h.ready.imp_right fun hinert =>
    ⟨hinert.temporal, hinert.attempts, hinert.status, hinert.requests⟩⟩

/-! ## The projection -/

/-- The platform around the video beside the whole platform: `ms` are the messages that ask for the
video, and `ds` the deliveries of these. -/
structure Deployment.Views (id : UUID) (key : Str) (dep : Deployment) (s : State)
    (ms ds : List ℕ) : Prop where
  site : dep.sites id = some ⟨s.pool, s.requests⟩
  executions : dep.executions id = s.temporal
  messages : Picks (fun posted => asksFor id key posted.body = true)
    (fun posted message => message.deleted.isSome = posted.deleted) dep.queue s.messages ms
  deliveries : Picks (fun receipt => receipt.message ∈ ms)
    (fun receipt delivery => ms[delivery.message]? = some receipt.message ∧
      Shows id key receipt.handling delivery.phase) dep.deliveries s.deliveries ds

structure Deployment.Simulates (id : UUID) (key : Str) (dep : Deployment) (s : State)
    (ms ds : List ℕ) : Prop extends dep.Views id key s ms ds where
  rooted : s.Rooted id key
  asks : ∀ receipt ∈ dep.deliveries, ∀ handling, receipt.handling = some handling →
    handling.asksFor id key = true → receipt.message ∈ ms

variable {dep dep' : Deployment} {ms ds : List ℕ} {settings : Settings}

/-- A message that does not ask for the video. -/
theorem Deployment.Simulates.post_skip (h : dep.Simulates id key s ms ds) {body : Str}
    (hbody : asksFor id key body = false) : (dep.post body).Simulates id key s ms ds where
  site := h.site
  executions := h.executions
  messages := h.messages.skip (by rw [hbody]; exact Bool.false_ne_true)
  deliveries := h.deliveries
  rooted := h.rooted
  asks := h.asks

/-- The messages so far are those of the deliveries. -/
theorem Deployment.Sound.message_lt (h : dep.Sound) {receipt : Receipt}
    (hreceipt : receipt ∈ dep.deliveries) : receipt.message < dep.queue.length := by
  obtain ⟨⟨body, hbody, -⟩, -⟩ := h.receipts receipt hreceipt
  have hlt := (List.getElem?_eq_some_iff.mp hbody).1
  rwa [Deployment.bodies, List.length_map] at hlt

/-- A message that asks for the video. -/
theorem Deployment.Simulates.post (h : dep.Simulates id key s ms ds) (hsound : dep.Sound)
    {body : Str} (hbody : asksFor id key body = true) {message : Message}
    (hmessage : message.deleted = none) :
    (dep.post body).Simulates id key { s with messages := s.messages ++ [message] }
      (ms ++ [dep.queue.length]) ds where
  site := h.site
  executions := h.executions
  messages := h.messages.concat hbody (by rw [hmessage]; rfl)
  deliveries := by
    refine h.deliveries.congr (fun d receipt hd => ?_) fun d receipt delivery hd _ hview => ?_
    · have hlt := hsound.message_lt (List.mem_of_getElem? hd)
      rw [List.mem_append, List.mem_singleton, or_iff_left (Nat.ne_of_lt hlt)]
    · refine ⟨?_, hview.2⟩
      rw [List.getElem?_append_left (List.getElem?_eq_some_iff.mp hview.1).1]
      exact hview.1
  rooted := h.rooted.withQueue _ _
  asks := fun receipt hreceipt handling heq hasks =>
    List.mem_append_left _ (h.asks receipt hreceipt handling heq hasks)

section Put

variable {d j : ℕ} {receipt : Receipt} {delivery : Delivery} {phase : DeliveryPhase}
  {handling : Option Shim.Handling} {old new : Shim.Handling}

/-- A delivery of a message that does not ask for the video. -/
theorem Deployment.Simulates.put_skip (h : dep.Simulates id key s ms ds)
    (hd : dep.deliveries[d]? = some receipt) (hskip : receipt.message ∉ ms)
    (hasks : ∀ new, handling = some new → new.asksFor id key = false) :
    (dep.put d receipt.message handling).Simulates id key s ms ds where
  site := h.site
  executions := h.executions
  messages := h.messages
  deliveries := h.deliveries.set_skip hd hskip hskip
  rooted := h.rooted
  asks := fun receipt' hreceipt' handling' heq htrue => by
    rcases List.mem_or_eq_of_mem_set hreceipt' with hreceipt' | rfl
    · exact h.asks receipt' hreceipt' handling' heq htrue
    · cases (hasks handling' heq).symm.trans htrue

/-- A delivery of a message that does. -/
theorem Deployment.Simulates.put (h : dep.Simulates id key s ms ds)
    (hd : dep.deliveries[d]? = some receipt) (hj : ds[j]? = some d)
    (hdelivery : s.deliveries[j]? = some delivery) (hshows : Shows id key handling phase) :
    (dep.put d receipt.message handling).Simulates id key
      { s with deliveries := s.deliveries.set j ⟨delivery.message, phase⟩ } ms ds where
  site := h.site
  executions := h.executions
  messages := h.messages
  deliveries := by
    have hmem : receipt.message ∈ ms := by
      obtain ⟨receipt', hd', hmem⟩ := h.deliveries.exists_entry hj
      obtain rfl := Option.some.inj (hd.symm.trans hd')
      exact hmem
    exact h.deliveries.set hj hmem ⟨(h.deliveries.view j d _ _ hj hd hdelivery).1, hshows⟩
  rooted := h.rooted.withQueue _ _
  asks := fun receipt' hreceipt' handling' heq htrue => by
    rcases List.mem_or_eq_of_mem_set hreceipt' with hreceipt' | rfl
    · exact h.asks receipt' hreceipt' handling' heq htrue
    · obtain ⟨receipt', hd', hmem⟩ := h.deliveries.exists_entry hj
      obtain rfl := Option.some.inj (hd.symm.trans hd')
      exact hmem

/-- A handling that goes on without dealing with the video. -/
theorem Deployment.Simulates.stay (h : dep.Simulates id key s ms ds)
    (hd : dep.deliveries[d]? = some receipt) (hold : receipt.handling = some old)
    (hover : old.over = false) (hover' : new.over = false)
    (hasks : new.asksFor id key = old.asksFor id key) :
    (dep.put d receipt.message (some new)).Simulates id key s ms ds := by
  by_cases hmem : receipt.message ∈ ms
  · obtain ⟨j, delivery, hj, hdelivery, -, hshows⟩ := h.deliveries.exists_view hd hmem
    have hshows' : Shows id key (some new) delivery.phase := by
      rw [hold] at hshows
      simp only [Shows, hover, hover', hasks] at hshows ⊢
      exact hshows
    have hput := h.put hd hj hdelivery hshows'
    obtain ⟨hlt, hget⟩ := List.getElem?_eq_some_iff.mp hdelivery
    have hset : s.deliveries.set j ⟨delivery.message, delivery.phase⟩ = s.deliveries := by
      rw [← hget, List.set_getElem_self]
    rwa [hset] at hput
  · refine h.put_skip hd hmem fun new' hnew' => ?_
    obtain rfl := Option.some.inj hnew'
    rw [hasks]
    exact Bool.eq_false_iff.mpr fun htrue =>
      hmem (h.asks _ (List.mem_of_getElem? hd) old hold htrue)

/-- Wherever a delivery stands, it can fail. -/
theorem State.reaches_over (hdelivery : s.deliveries[j]? = some delivery) :
    Reaches State.step s { s with deliveries := s.deliveries.set j ⟨delivery.message, .over⟩ } := by
  obtain ⟨m, phase⟩ := delivery
  rcases phase with _ | outcome | _
  · refine .step (l := .start j .failed) ?_
    simp only [State.step, State.start, hdelivery, Option.bind_some]
    rfl
  · refine .step (l := .delete j false) ?_
    simp only [State.step, State.delete, hdelivery, Option.bind_some]
    rfl
  · obtain ⟨hlt, hget⟩ := List.getElem?_eq_some_iff.mp hdelivery
    have hset : s.deliveries.set j ⟨m, .over⟩ = s.deliveries := by
      rw [← hget, List.set_getElem_self]
    rw [hset]
    exact .refl _ _

/-- A handling that is over or cut off. -/
theorem Deployment.Simulates.stop (h : dep.Simulates id key s ms ds)
    (hd : dep.deliveries[d]? = some receipt)
    (hover : ∀ new, handling = some new → new.over = true) : ∃ s', Reaches State.step s s' ∧
      (dep.put d receipt.message handling).Simulates id key s' ms ds := by
  by_cases hmem : receipt.message ∈ ms
  · obtain ⟨j, delivery, hj, hdelivery, -, -⟩ := h.deliveries.exists_view hd hmem
    have hshows : Shows id key handling .over := by
      cases handling with
      | none => rfl
      | some new => simp only [Shows, hover new rfl, if_true]
    exact ⟨_, State.reaches_over hdelivery, h.put hd hj hdelivery hshows⟩
  · refine ⟨s, .refl _ _, h.put_skip hd hmem fun new hnew => ?_⟩
    have hover := hover new hnew
    cases new <;> first | rfl | cases hover

end Put

/-! ## The server and the queue -/

/-- A place that is there is replaced. -/
theorem modify_eq_set_of {α : Type*} {xs : List α} {i : ℕ} {x : α} (h : xs[i]? = some x)
    (f : α → α) : xs.modify i f = xs.set i (f x) := by
  obtain ⟨hlt, hget⟩ := List.getElem?_eq_some_iff.mp h
  refine List.ext_getElem? fun j => ?_
  by_cases hij : i = j
  · subst hij
    rw [List.getElem?_modify_eq, List.getElem?_set_self hlt, h]
    rfl
  · rw [List.getElem?_modify_ne _ _ hij, List.getElem?_set_ne hij]

/-- A message of another video is deleted. -/
theorem Deployment.Simulates.remove_skip (h : dep.Simulates id key s ms ds) {m : ℕ}
    {posted : Posted} (hposted : dep.queue[m]? = some posted) (hm : m ∉ ms) :
    (dep.remove m).Simulates id key s ms ds where
  site := h.site
  executions := h.executions
  messages := by
    have hbody : ¬ asksFor id key posted.body = true := fun hbody =>
      hm ((h.messages.mem m).mpr ⟨posted, hposted, hbody⟩)
    rw [Deployment.remove, modify_eq_set_of hposted]
    exact h.messages.set_skip hposted hbody hbody
  deliveries := h.deliveries
  rooted := h.rooted
  asks := h.asks

/-- A message of this one is. -/
theorem Deployment.Simulates.remove (h : dep.Simulates id key s ms ds) {i m : ℕ}
    (hi : ms[i]? = some m) (outcome : StartOutcome) : (dep.remove m).Simulates id key
      { s with messages := s.messages.modify i fun message =>
          { message with deleted := message.deleted.or (some outcome) } } ms ds where
  site := h.site
  executions := h.executions
  messages := by
    obtain ⟨posted, hposted, hbody⟩ := h.messages.exists_entry hi
    have hlt : i < s.messages.length :=
      h.messages.length ▸ (List.getElem?_eq_some_iff.mp hi).1
    rw [Deployment.remove, modify_eq_set_of hposted,
      modify_eq_set_of (List.getElem?_eq_getElem hlt)]
    refine h.messages.set hi hbody ?_
    cases s.messages[i].deleted <;> rfl
  deliveries := h.deliveries
  rooted := h.rooted.withQueue _ _
  asks := h.asks

@[simp] theorem Deployment.queue_serve (dep : Deployment) (videoId : UUID) :
    (dep.serve videoId).1.queue = dep.queue := by
  rw [Deployment.serve]
  split <;> rfl

/-- The server starts the execution or refuses. -/
theorem Deployment.executions_serve_self (dep : Deployment) (videoId : UUID) :
    (dep.serve videoId).1.executions videoId =
      (dep.executions videoId).startWorkflow.getD (dep.executions videoId) := by
  rw [Deployment.serve]
  cases (dep.executions videoId).startWorkflow with
  | none => rfl
  | some temporal => exact Function.update_self ..

/-- A start of another video. -/
theorem Deployment.Simulates.serve_of_ne (h : dep.Simulates id key s ms ds) {videoId : UUID}
    (hid : id ≠ videoId) : (dep.serve videoId).1.Simulates id key s ms ds where
  site := by rw [Deployment.sites_serve]; exact h.site
  executions := by rw [dep.executions_serve_of_ne hid]; exact h.executions
  messages := by rw [Deployment.queue_serve]; exact h.messages
  deliveries := by rw [Deployment.deliveries_serve]; exact h.deliveries
  rooted := h.rooted
  asks := by rw [Deployment.deliveries_serve]; exact h.asks

/-- A start of the video. -/
theorem Deployment.Simulates.serve (h : dep.Simulates id key s ms ds) (hkey : Resolves id key) :
    (dep.serve id).1.Simulates id key
      { s with temporal := s.temporal.startWorkflow.getD s.temporal } ms ds where
  site := by rw [Deployment.sites_serve]; exact h.site
  executions := by rw [Deployment.executions_serve_self, h.executions]
  messages := by rw [Deployment.queue_serve]; exact h.messages
  deliveries := by rw [Deployment.deliveries_serve]; exact h.deliveries
  rooted := ⟨h.rooted.originalObjectKey, h.rooted.sends, .inl hkey⟩
  asks := by rw [Deployment.deliveries_serve]; exact h.asks

/-- The server gets the request of a delivery, whose answer arrives or is lost. -/
theorem State.step_start {j m : ℕ} (hdelivery : s.deliveries[j]? = some ⟨m, .starting⟩) :
    (s.step (.start j .lost) = some { s with
      temporal := s.temporal.startWorkflow.getD s.temporal
      deliveries := s.deliveries.set j ⟨m, .over⟩ }) ∧
    ∃ outcome, s.step (.start j .received) = some { s with
      temporal := s.temporal.startWorkflow.getD s.temporal
      deliveries := s.deliveries.set j ⟨m, .deleting outcome⟩ } := by
  simp only [State.step, State.start, hdelivery, Option.bind_some]
  cases hstart : s.temporal.startWorkflow with
  | none => exact ⟨rfl, .alreadyStarted, rfl⟩
  | some temporal => exact ⟨rfl, .started, rfl⟩

/-! ## One step -/

variable {d m : ℕ}

/-- A delivery of a message that asks for the video. -/
theorem Deployment.Simulates.deliver (h : dep.Simulates id key s ms ds) {i : ℕ} {posted : Posted}
    (hi : ms[i]? = some m) (hposted : dep.queue[m]? = some posted) :
    (dep.deliver m posted.body).Simulates id key
      { s with deliveries := s.deliveries ++ [⟨i, .starting⟩] } ms
      (ds ++ [dep.deliveries.length]) := by
  have hm : m ∈ ms := List.mem_of_getElem? hi
  obtain ⟨posted', hposted', hbody⟩ := (h.messages.mem m).mp hm
  obtain rfl := Option.some.inj (hposted.symm.trans hposted')
  have hover : (Shim.Handling.begin posted.body).over = false := by
    rw [Shim.Handling.begin]
    cases hparse : parseObjectCreatedEvents posted.body with
    | none =>
      rw [asksFor, messageEvents, hparse] at hbody
      cases hbody
    | some events => exact Shim.Handling.over_next 0 events
  have hshows : Shows id key (some (.begin posted.body)) .starting :=
    (shows_of_asksFor hover ((Shim.Handling.asksFor_begin _).trans hbody)).mpr rfl
  refine ⟨⟨h.site, h.executions, h.messages, h.deliveries.concat hm ⟨hi, hshows⟩⟩,
    h.rooted.withQueue _ _, fun receipt hreceipt handling heq hasks => ?_⟩
  rcases List.mem_append.mp hreceipt with hreceipt | hreceipt
  · exact h.asks receipt hreceipt handling heq hasks
  · obtain rfl := List.mem_singleton.mp hreceipt
    exact hm

/-- A delivery of another message, or of one of this video. -/
theorem Deployment.Simulates.receive (h : dep.Simulates id key s ms ds)
    (hstep : dep.receive m = some dep') :
    ∃ s' ds', Reaches State.step s s' ∧ dep'.Simulates id key s' ms ds' := by
  obtain ⟨posted, hposted, hdeleted, rfl⟩ := Deployment.receive_eq_some hstep
  cases hbody : asksFor id key posted.body with
  | false =>
    -- a message for other videos only is not on this video's queue
    have hm : m ∉ ms := by
      intro hm
      obtain ⟨posted', hposted', hbody'⟩ := (h.messages.mem m).mp hm
      obtain rfl := Option.some.inj (hposted.symm.trans hposted')
      cases hbody.symm.trans hbody'
    refine ⟨s, ds, .refl _ _,
      ⟨⟨h.site, h.executions, h.messages, h.deliveries.skip hm⟩, h.rooted, ?_⟩⟩
    intro receipt hreceipt handling heq hasks
    rcases List.mem_append.mp hreceipt with hreceipt | hreceipt
    · exact h.asks receipt hreceipt handling heq hasks
    · obtain rfl := List.mem_singleton.mp hreceipt
      obtain rfl := Option.some.inj heq
      cases ((Shim.Handling.asksFor_begin _).trans hbody).symm.trans hasks
  | true =>
    -- its copy on this video's queue is received too
    obtain ⟨i, message, hi, hmessage, hseen⟩ := h.messages.exists_view hposted hbody
    rw [hdeleted, Option.isSome_eq_false_iff, Option.isNone_iff_eq_none] at hseen
    have hreceive : s.step (.receive i) =
        some { s with deliveries := s.deliveries ++ [⟨i, .starting⟩] } := by
      simp only [State.step, State.receive, hmessage, Option.bind_some, hseen, if_true]
    exact ⟨_, _, .step hreceive, h.deliver hi hposted⟩

/-- The read of a row. -/
theorem Deployment.Simulates.read (h : dep.Simulates id key s ms ds) {ok : Bool}
    (hstep : dep.read d ok = some dep') :
    ∃ s', Reaches State.step s s' ∧ dep'.Simulates id key s' ms ds := by
  obtain ⟨m, place, objectKey, videoId, rest, hd, rfl | rfl⟩ := Deployment.read_eq_some hstep
  · exact h.stop hd fun new hnew => by
      obtain rfl := Option.some.inj hnew
      rfl
  · -- whether the row of the video matches its own key is known beforehand
    have hrow (hid : videoId = id) : Shim.keyMatches objectKey (dep.row videoId) =
        decide (removesuffix objectKey (str "\\") = key) := by
      rw [hid, Deployment.row, h.site, Option.map_some, Shim.keyMatches, Option.any_some,
        h.rooted.originalObjectKey]
    refine ⟨s, .refl _ _, ?_⟩
    cases hmatch : Shim.keyMatches objectKey (dep.row videoId) with
    | true =>
      rw [if_pos rfl]
      refine h.stay hd rfl rfl rfl ?_
      by_cases hid : videoId = id
      · have hkey := of_decide_eq_true ((hrow hid).symm.trans hmatch)
        simp [Shim.Handling.asksFor, hid, hkey]
      · simp [Shim.Handling.asksFor, hid]
    | false =>
      rw [if_neg Bool.false_ne_true]
      refine h.stay hd rfl rfl (Shim.Handling.over_next _ _) ?_
      rw [Shim.Handling.asksFor_next]
      by_cases hid : videoId = id
      · have hkey := of_decide_eq_false ((hrow hid).symm.trans hmatch)
        simp [Shim.Handling.asksFor, hkey]
      · simp [Shim.Handling.asksFor, hid]

/-- A delete, carried out or not. -/
theorem Deployment.Simulates.delete (h : dep.Simulates id key s ms ds) (hsound : dep.Sound)
    {reply : Shim.DeleteReply} (hstep : dep.delete d reply = some dep') :
    ∃ s', Reaches State.step s s' ∧ dep'.Simulates id key s' ms ds := by
  obtain ⟨m, handling, hd, hover, rfl | rfl⟩ := Deployment.delete_eq_some hstep
  · exact h.stop hd fun new hnew => Option.some.inj hnew ▸ hover
  · by_cases hmem : m ∈ ms
    · obtain ⟨j, ⟨i, phase⟩, hj, hdelivery, hi, hshows⟩ := h.deliveries.exists_view hd hmem
      obtain ⟨outcome, rfl⟩ : ∃ outcome, phase = .deleting outcome := hshows
      have hdelete : s.step (.delete j true) = some { s with
          deliveries := s.deliveries.set j ⟨i, .over⟩
          messages := s.messages.modify i fun message =>
            { message with deleted := message.deleted.or (some outcome) } } := by
        simp only [State.step, State.delete, hdelivery, Option.bind_some]
        rfl
      have hshows' : Shows id key (some handling) .over := by simp only [Shows, hover, if_true]
      exact ⟨_, .step hdelete, (h.remove hi outcome).put hd hj hdelivery hshows'⟩
    · have hlt := hsound.message_lt (List.mem_of_getElem? hd)
      exact (h.remove_skip (List.getElem?_eq_getElem hlt) hmem).stop hd
        fun new hnew => Option.some.inj hnew ▸ hover

/-- A start for this video or another one. -/
theorem Deployment.Simulates.start (h : dep.Simulates id key s ms ds) (hsound : dep.Sound)
    (hresolves : ∀ event : ObjectCreatedEvent, event.isOf id key = true → Resolves id key)
    {reply : StartReply} (hstep : dep.start d reply = some dep') :
    ∃ s', Reaches State.step s s' ∧ dep'.Simulates id key s' ms ds := by
  obtain ⟨m, place, videoId, rest, hd, hcases⟩ := Deployment.start_eq_some hstep
  have hd' : (dep.serve videoId).1.deliveries[d]? =
      some ⟨m, some (.starting place videoId rest)⟩ := by
    rwa [Deployment.deliveries_serve]
  have hlogged (new : Shim.Handling) (hnew : some Shim.Handling.logged = some new) :
      new.over = true := by
    obtain rfl := Option.some.inj hnew
    rfl
  by_cases hid : videoId = id
  · subst hid
    -- the start the message asks for
    have hasks : (Shim.Handling.starting place videoId rest).asksFor videoId key = true := by
      simp [Shim.Handling.asksFor]
    have hmem := h.asks _ (List.mem_of_getElem? hd) _ rfl hasks
    obtain ⟨posted, -, hbody⟩ := (h.messages.mem m).mp hmem
    obtain ⟨event, -, hevent⟩ := List.any_eq_true.mp hbody
    obtain ⟨j, ⟨i, phase⟩, hj, hdelivery, -, hshows⟩ := h.deliveries.exists_view hd hmem
    obtain rfl : phase = .starting := (shows_of_asksFor rfl hasks).mp hshows
    obtain ⟨hlost, outcome, hreceived⟩ := State.step_start hdelivery
    have hserved := h.serve (hresolves event hevent)
    rcases hcases with ⟨-, rfl⟩ | ⟨-, rfl⟩ | ⟨-, rfl⟩
    · exact h.stop hd hlogged
    · exact ⟨_, .step hlost, hserved.put hd' hj hdelivery rfl⟩
    · have hnotin : videoId ∉ videoIds rest := by
        obtain ⟨⟨body, hbody, hids⟩, -⟩ := hsound.receipts _ (List.mem_of_getElem? hd)
        exact (List.nodup_cons.mp
          ((hsound.distinct body (List.mem_of_getElem? hbody)).sublist (hids _ rfl))).1
      have hshows' : Shows videoId key (some (.next (place + 1) rest)) (.deleting outcome) :=
        (shows_of_not_asksFor (Shim.Handling.over_next _ _)
          ((Shim.Handling.asksFor_next _ _).trans (any_isOf_eq_false hnotin))).mpr ⟨outcome, rfl⟩
      exact ⟨_, .step hreceived, hserved.put hd' hj hdelivery hshows'⟩
  · have hserved := h.serve_of_ne (Ne.symm hid)
    rcases hcases with ⟨-, rfl⟩ | ⟨-, rfl⟩ | ⟨-, rfl⟩
    · exact h.stop hd hlogged
    · exact hserved.stop hd' hlogged
    · refine ⟨s, .refl _ _, hserved.stay hd' rfl rfl (Shim.Handling.over_next _ _) ?_⟩
      rw [Shim.Handling.asksFor_next, Shim.Handling.asksFor, decide_eq_false hid, Bool.false_or]

/-- A message of any content. -/
theorem Deployment.Simulates.posted (h : dep.Simulates id key s ms ds) (hsound : dep.Sound)
    (body : Str) :
    ∃ s' ms', Reaches State.step s s' ∧ (dep.post body).Simulates id key s' ms' ds := by
  cases hbody : asksFor id key body with
  | false => exact ⟨s, ms, .refl _ _, h.post_skip hbody⟩
  | true =>
    have hnotify : s.step .notify = some { s with messages := s.messages ++ [⟨.upload, none⟩] } :=
      rfl
    exact ⟨_, _, .step hnotify, h.post hsound hbody rfl⟩

/-- A step of another video. -/
theorem Deployment.Simulates.withSite_of_ne (h : dep.Simulates id key s ms ds) {videoId : UUID}
    (hid : id ≠ videoId) (t : State) : (dep.withSite videoId t).Simulates id key s ms ds where
  site := (dep.withSite_sites_of_ne t hid).trans h.site
  executions := (dep.withSite_executions_of_ne t hid).trans h.executions
  messages := h.messages
  deliveries := h.deliveries
  rooted := h.rooted
  asks := h.asks

/-- A step of the video itself, but for what it publishes. -/
theorem Deployment.Simulates.withSite (h : dep.Simulates id key s ms ds) {l : Label}
    (hl : l.onSite = true) {t : State} (halone : s.alone.step l = some t) :
    (dep.withSite id t).Simulates id key
      { t with messages := s.messages, deliveries := s.deliveries } ms ds := by
  have hstate := State.step_onSite (s := s) hl
  rw [halone, Option.map_some] at hstate
  exact ⟨⟨dep.withSite_sites_self id t, Function.update_self .., h.messages, h.deliveries⟩,
    (h.rooted.step hl hstate).withQueue _ _, h.asks⟩

/-- The video by itself, in both. -/
theorem Deployment.Simulates.site_alone (h : dep.Simulates id key s ms ds) :
    Site.alone ⟨s.pool, s.requests⟩ (dep.executions id) = s.alone := by
  rw [h.executions]
  rfl

/-- A request that publishes is one of a video whose key resolves. -/
theorem State.Rooted.resolves (h : s.Rooted id key) {r : ℕ} {video : Tracked Video}
    (hr : s.requests[r]? = some (.send video)) : Resolves id key :=
  h.ready.resolve_right fun hinert => (hinert.requests r _ hr).1 video rfl

/-- A step of a video. -/
theorem Deployment.Simulates.onSite (h : dep.Simulates id key s ms ds) (hsound : dep.Sound)
    {videoId : UUID} {l : Label} (hstep : dep.onSite settings videoId l = some dep') :
    ∃ s' ms', Reaches State.step s s' ∧ dep'.Simulates id key s' ms' ds := by
  obtain ⟨site, t, hsite, hl, halone, hpost⟩ := Deployment.onSite_eq_some hstep
  by_cases hid : id = videoId
  · subst hid
    obtain rfl := Option.some.inj (hsite.symm.trans h.site)
    rw [h.site_alone] at halone hpost
    have hstate := State.step_onSite (s := s) hl
    rw [halone, Option.map_some] at hstate
    have hsimulates := h.withSite hl halone
    -- a step of the site sends the retry's message or none
    rcases State.step_publishes halone hl with ⟨hnone, hmessages⟩ | ⟨r, video, hr, hsome, hmessages⟩
    · rw [hmessages, List.append_nil] at hstate
      rcases hpost with ⟨-, rfl⟩ | ⟨video, _, hsome, -⟩
      · exact ⟨_, ms, .step hstate, hsimulates⟩
      · cases hnone.symm.trans hsome
    · rw [hmessages] at hstate
      rcases hpost with ⟨hnone, -⟩ | ⟨row, body, hrow, hbody, rfl⟩
      · cases hnone.symm.trans hsome
      · obtain rfl := Option.some.inj (hsome.symm.trans hrow)
        have hasks := (h.rooted.resolves hr).asksFor_retryMessage (h.rooted.sends r video hr) hbody
        exact ⟨_, _, .step hstate, hsimulates.post (hsound.withSite id t) hasks rfl⟩
  · have hother := h.withSite_of_ne hid t
    rcases hpost with ⟨-, rfl⟩ | ⟨video, body, -, -, rfl⟩
    · exact ⟨s, ms, .refl _ _, hother⟩
    · exact hother.posted (hsound.withSite videoId t) body

/-- Each step of the whole platform is some steps, or none, of the platform around the video. -/
theorem Deployment.Simulates.step {l : DeploymentLabel} (h : dep.Simulates id key s ms ds)
    (hsound : dep.Sound)
    (hresolves : ∀ event : ObjectCreatedEvent, event.isOf id key = true → Resolves id key)
    (hstep : dep.step settings l = some dep') :
    ∃ s' ms' ds', Reaches State.step s s' ∧ dep'.Simulates id key s' ms' ds' := by
  cases l with
  | create videoId request =>
    obtain ⟨hnone, -, rfl⟩ := Deployment.create_eq_some hstep
    -- another video
    have hid : id ≠ videoId := by
      rintro rfl
      cases hnone.symm.trans h.site
    exact ⟨s, ms, ds, .refl _ _, ⟨(Function.update_of_ne hid ..).trans h.site, h.executions,
      h.messages, h.deliveries⟩, h.rooted, h.asks⟩
  | onSite videoId l =>
    obtain ⟨s', ms', hreaches, hsim⟩ := h.onSite hsound hstep
    exact ⟨s', ms', ds, hreaches, hsim⟩
  | post body =>
    rw [Deployment.step, Option.ite_none_right_eq_some] at hstep
    obtain rfl := Option.some.inj hstep.2
    -- a message for this video, or one this video does not see
    obtain ⟨s', ms', hreaches, hsim⟩ := h.posted hsound body
    exact ⟨s', ms', ds, hreaches, hsim⟩
  | receive m =>
    obtain ⟨s', ds', hreaches, hsim⟩ := h.receive hstep
    exact ⟨s', ms, ds', hreaches, hsim⟩
  | read d ok =>
    obtain ⟨s', hreaches, hsim⟩ := h.read hstep
    exact ⟨s', ms, ds, hreaches, hsim⟩
  | start d reply =>
    obtain ⟨s', hreaches, hsim⟩ := h.start hsound hresolves hstep
    exact ⟨s', ms, ds, hreaches, hsim⟩
  | delete d reply =>
    obtain ⟨s', hreaches, hsim⟩ := h.delete hsound hstep
    exact ⟨s', ms, ds, hreaches, hsim⟩
  | cutOff d =>
    -- a delivery that is cut off is over for this video too
    obtain ⟨receipt, hd, rfl⟩ := Option.map_eq_some_iff.mp hstep
    obtain ⟨s', hreaches, hsim⟩ : ∃ s', Reaches State.step s s' ∧
        (dep.put d receipt.message none).Simulates id key s' ms ds :=
      h.stop hd fun new hnew => by cases hnew
    exact ⟨s', ms, ds, hreaches, hsim⟩

/-! ## Every run -/

/-- What asks for a video names it. -/
theorem Shim.Handling.mem_ids_of_asksFor {handling : Shim.Handling}
    (h : handling.asksFor id key = true) : id ∈ handling.ids := by
  have hrest {rest : List ObjectCreatedEvent} (h : rest.any (·.isOf id key) = true) :
      id ∈ videoIds rest := by
    by_contra hnotin
    cases (any_isOf_eq_false hnotin).symm.trans h
  cases handling with
  | reading place objectKey videoId rest =>
    rcases Bool.or_eq_true_iff.mp h with h | h
    · exact of_decide_eq_true (Bool.and_eq_true_iff.mp h).1 ▸ List.mem_cons_self
    · exact List.mem_cons_of_mem _ (hrest h)
  | starting place videoId rest =>
    rcases Bool.or_eq_true_iff.mp h with h | h
    · exact of_decide_eq_true h ▸ List.mem_cons_self
    · exact List.mem_cons_of_mem _ (hrest h)
  | _ => cases h

/-- A video just created, which no message names. -/
theorem Deployment.Sound.simulates_created (h : dep.Sound) {request : CreateVideoRequest}
    (hstep : dep.create id request = some dep') : dep'.Simulates id
      (buildUploadObjectKey id request.filename)
      (.created id request.filename (buildUploadObjectKey id request.filename)) [] [] := by
  obtain ⟨hnone, hfresh, rfl⟩ := Deployment.create_eq_some hstep
  refine ⟨⟨Function.update_self .., h.unstarted id hnone, .nothing fun m posted hposted hasks => ?_,
    .nothing fun d receipt _ hmem => by cases hmem⟩, State.rooted_created _ _ _, ?_⟩
  · have hnotin := hfresh posted (List.mem_of_getElem? hposted)
    exact absurd hasks (by rw [asksFor, any_isOf_eq_false hnotin]; exact Bool.false_ne_true)
  · intro receipt hreceipt handling heq hasks
    obtain ⟨⟨body, hbody, hids⟩, -⟩ := h.receipts receipt hreceipt
    obtain ⟨posted, hposted, rfl⟩ := List.mem_map.mp (List.mem_of_getElem? hbody)
    exact absurd ((hids handling heq).subset (Shim.Handling.mem_ids_of_asksFor hasks))
      (hfresh posted hposted)

/-- Only its creation adds a video. -/
theorem Deployment.sites_step {l : DeploymentLabel} (hstep : dep.step settings l = some dep')
    (hnone : dep.sites id = none) (hsome : dep'.sites id ≠ none) :
    ∃ request, l = .create id request := by
  cases l with
  | create videoId request =>
    obtain ⟨-, -, rfl⟩ := Deployment.create_eq_some hstep
    -- the only label that adds a site
    by_cases hid : id = videoId
    · exact ⟨request, by rw [hid]⟩
    · exact absurd ((Function.update_of_ne hid ..).trans hnone) hsome
  | onSite videoId l =>
    obtain ⟨site, t, hsite, -, -, hpost⟩ := Deployment.onSite_eq_some hstep
    have hid : id ≠ videoId := by
      rintro rfl
      cases hnone.symm.trans hsite
    have hsame := (dep.withSite_sites_of_ne t hid).trans hnone
    rcases hpost with ⟨-, rfl⟩ | ⟨video, body, -, -, rfl⟩
    · exact absurd hsame hsome
    · exact absurd hsame hsome
  | post body =>
    rw [Deployment.step, Option.ite_none_right_eq_some] at hstep
    obtain rfl := Option.some.inj hstep.2
    exact absurd hnone hsome
  | receive m =>
    obtain ⟨posted, -, -, rfl⟩ := Deployment.receive_eq_some hstep
    exact absurd hnone hsome
  | read d ok =>
    obtain ⟨_, _, _, _, _, -, rfl | rfl⟩ := Deployment.read_eq_some hstep
    · exact absurd hnone hsome
    · exact absurd hnone hsome
  | start d reply =>
    obtain ⟨_, _, videoId, _, -, hcases⟩ := Deployment.start_eq_some hstep
    have hsame : (dep.serve videoId).1.sites id = none := by rwa [Deployment.sites_serve]
    rcases hcases with ⟨-, rfl⟩ | ⟨-, rfl⟩ | ⟨-, rfl⟩
    · exact absurd hnone hsome
    · exact absurd hsame hsome
    · exact absurd hsame hsome
  | delete d reply =>
    obtain ⟨_, _, -, -, rfl | rfl⟩ := Deployment.delete_eq_some hstep
    · exact absurd hnone hsome
    · exact absurd hnone hsome
  | cutOff d =>
    obtain ⟨receipt, -, rfl⟩ := Option.map_eq_some_iff.mp hstep
    exact absurd hnone hsome

/-- Every run, seen from a video that was created in it. -/
theorem Deployment.exec_simulates {ls : List DeploymentLabel}
    (hrun : exec (Deployment.step settings) .empty ls = some dep) (hsite : dep.sites id ≠ none) :
    ∃ request, .create id request ∈ ls ∧ ∃ s ms ds,
      Reaches State.step (.created id request.filename (buildUploadObjectKey id request.filename))
        s ∧ dep.Simulates id (buildUploadObjectKey id request.filename) s ms ds := by
  induction ls using List.reverseRecOn generalizing dep with
  | nil =>
    obtain rfl := Option.some.inj hrun
    exact absurd rfl hsite
  | append_singleton ls l ih =>
    rw [exec_append] at hrun
    obtain ⟨before, hbefore, hlast⟩ := Option.bind_eq_some_iff.mp hrun
    have hstep : before.step settings l = some dep := by
      rw [exec_cons] at hlast
      obtain ⟨_, hstep, hnil⟩ := Option.bind_eq_some_iff.mp hlast
      obtain rfl := Option.some.inj hnil
      exact hstep
    have hsound := Deployment.exec_sound hbefore
    -- the video is created by this step, or the run so far is simulated
    by_cases hnone : before.sites id = none
    · obtain ⟨request, rfl⟩ := Deployment.sites_step hstep hnone hsite
      exact ⟨request, List.mem_append_right _ (List.mem_singleton_self _), _, _, _, .refl _ _,
        hsound.simulates_created hstep⟩
    · obtain ⟨request, hmem, s, ms, ds, hreaches, hsim⟩ := ih hbefore hnone
      obtain ⟨s', ms', ds', hreaches', hsim'⟩ :=
        hsim.step hsound (fun event => ObjectCreatedEvent.isOf_resolves) hstep
      exact ⟨request, List.mem_append_left _ hmem, s', ms', ds', hreaches.trans hreaches', hsim'⟩

/-- **The whole platform is, for each video, the platform around it.** After any run with any number
of videos, messages of any content but those that name a video twice or one yet to be created, and
deliveries of what the queue has not deleted, cut off anywhere, a run of the platform around the
video leads to the same rows, attempts, executions and requests; its messages are those that ask for
the video, deleted or not, and its deliveries those of these messages, each before its start, behind
it or over. -/
theorem deployment_projects {ls : List DeploymentLabel}
    (hrun : exec (Deployment.step settings) .empty ls = some dep) (hsite : dep.sites id ≠ none) :
    ∃ request ls' s ms ds, .create id request ∈ ls ∧
      exec State.step (.created id request.filename (buildUploadObjectKey id request.filename))
        ls' = some s ∧
      dep.Views id (buildUploadObjectKey id request.filename) s ms ds := by
  obtain ⟨request, hmem, s, ms, ds, ⟨ls', hls'⟩, hsim⟩ := Deployment.exec_simulates hrun hsite
  exact ⟨request, ls', s, ms, ds, hmem, hls', hsim.toViews⟩

/-- An upload `clip.webm`. -/
def clipRequest : CreateVideoRequest where
  filename := str "clip.webm"
  contentType := str "video/webm"
  filename_ok := rfl
  contentType_ok := rfl

def videosBucket : Settings := ⟨str "videos", by decide⟩

/-- The notification of an upload of `clip.webm`. -/
def clipNotification (id : UUID) : Str :=
  (buildObjectCreatedMessage (str "videos") (buildUploadObjectKey id clipRequest.filename)).getD []

/-- Two videos: the message of the second one is handled first, that of the first one is cut off at
its start and delivered again. -/
def Deployment.twoVideos : List DeploymentLabel :=
  [.create ⟨7⟩ clipRequest, .create ⟨8⟩ clipRequest, .post (clipNotification ⟨7⟩),
    .post (clipNotification ⟨8⟩), .receive 0, .receive 1, .read 1 true, .read 0 true, .cutOff 0,
    .start 1 .received, .onSite ⟨8⟩ (.dispatch .metadata), .receive 0, .read 2 true,
    .start 2 .received, .delete 1 .received, .delete 2 .received,
    .onSite ⟨7⟩ (.dispatch .thumbnail)]

/-- Seen from the video whose message is delivered twice. -/
theorem deployment_projects_clip : ∃ dep,
    exec (Deployment.step videosBucket) .empty Deployment.twoVideos = some dep ∧
    dep.sites ⟨7⟩ ≠ none ∧
    ∃ request ls' s ms ds, .create ⟨7⟩ request ∈ Deployment.twoVideos ∧
      exec State.step (.created ⟨7⟩ request.filename (buildUploadObjectKey ⟨7⟩ request.filename))
        ls' = some s ∧
      dep.Views ⟨7⟩ (buildUploadObjectKey ⟨7⟩ request.filename) s ms ds := by
  have hruns : (exec (Deployment.step videosBucket) .empty Deployment.twoVideos).any fun dep =>
      (dep.sites ⟨7⟩).isSome := by decide +kernel
  obtain ⟨dep, hrun, hsome⟩ := (Option.any_eq_true _ _).mp hruns
  have hsite : dep.sites ⟨7⟩ ≠ none := Option.isSome_iff_ne_none.mp hsome
  exact ⟨dep, hrun, hsite, deployment_projects hrun hsite⟩

end VideoProcessing
