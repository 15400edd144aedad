import VideoProcessing.Api.Uploads
import VideoProcessing.Platform.Moves
import VideoProcessing.Worker.Fleet
import VideoProcessing.Worker.Shim.Deliveries

/-!
# The whole platform

All videos at once, with one queue, one Temporal server and the shim as it is: message bodies that
name any number of videos or none, parsed, resolved against the rows event by event, and deleted at
the end. The steps on one video are those of `State.step`.

Three things the code would handle are not among the steps. A body that names one video twice is not
put on the queue, so that a delivery asks for a video at most once, as in the platform of one video.
An identifier that a body on the queue already names is not drawn for a new video: it is random, and
S3 and the API name only objects and rows there are. And a message whose delete the queue has
carried out is not delivered again, as it may be by a queue that is not first in, first out.
-/

namespace VideoProcessing

open Python UnitOfWork Transitions

/-! ## The state -/

/-- A video in the database and in the API. -/
structure Site where
  pool : Pool
  requests : List RetryPhase

/-- A message that was put on the queue. -/
structure Posted where
  body : Str
  deleted : Bool

/-- A delivery of a message to the shim. -/
structure Receipt where
  message : ℕ
  /-- where its `_handle_message` stands; `none` once that was cut off -/
  handling : Option Shim.Handling

structure Deployment where
  /-- the primary keys of `videos` -/
  created : List UUID
  sites : UUID → Option Site
  /-- the executions of each workflow ID -/
  executions : UUID → Temporal
  queue : List Posted
  deliveries : List Receipt

def Deployment.empty : Deployment where
  created := []
  sites := fun _ => none
  executions := fun _ => ⟨[], none⟩
  queue := []
  deliveries := []

/-- The row of a video. -/
def Deployment.row (dep : Deployment) (videoId : UUID) : Option Video :=
  (dep.sites videoId).map fun site => site.pool.rows.video

/-! ## The steps on one video -/

/-- A step of the video's own activities, executions and requests. -/
def Label.onSite : Label → Bool
  | .resume _ _ | .vanish _ | .dispatch _ | .report _ | .timeOut _ | .decide | .retryBegin
  | .retryStep _ _ => true
  | _ => false

/-- A video with its executions, where no message names it. -/
def Site.alone (site : Site) (temporal : Temporal) : State where
  pool := site.pool
  temporal := temporal
  messages := []
  deliveries := []
  requests := site.requests

/-- The row whose upload event the step publishes. -/
def State.publishes (s : State) : Label → Option Video
  | .retryStep r true =>
    match s.requests[r]? with
    | some (.send video) => some video.current
    | _ => none
  | _ => none

/-- The step violates `UNIQUE(object_key)` with an asset of another video. -/
def Deployment.collides (dep : Deployment) (videoId : UUID) (p : Pool) : Label → Bool
  | .resume i ans => (p.flushes (.resume i ans)).any fun asset =>
      (dep.created.filter (· ≠ videoId)).any fun other => (dep.sites other).any fun site =>
        AssetType.members.any fun a => site.pool.rows.assets a = some asset.2
  | _ => false

def Deployment.post (dep : Deployment) (body : Str) : Deployment :=
  { dep with queue := dep.queue ++ [⟨body, false⟩] }

/-- The video after a step of its own. -/
def Deployment.withSite (dep : Deployment) (videoId : UUID) (s : State) : Deployment :=
  { dep with
    sites := Function.update dep.sites videoId (some ⟨s.pool, s.requests⟩)
    executions := Function.update dep.executions videoId s.temporal }

/-- A step of one video. What `retry_video` publishes goes on the queue. -/
def Deployment.onSite (settings : Settings) (dep : Deployment) (videoId : UUID) (l : Label) :
    Option Deployment :=
  (dep.sites videoId).bind fun site =>
    if l.onSite = false ∨ dep.collides videoId site.pool l = true then none
    else
      let alone := site.alone (dep.executions videoId)
      (alone.step l).bind fun s =>
        match alone.publishes l with
        | none => some (dep.withSite videoId s)
        | some video => (retryMessage settings video).map (dep.withSite videoId s).post

/-! ## The queue and the shim -/

/-- The events of a body; none if it cannot be read. -/
def messageEvents (messageBody : Str) : List ObjectCreatedEvent :=
  (parseObjectCreatedEvents messageBody).getD []

/-- The identifiers in the keys of events. -/
def videoIds (events : List ObjectCreatedEvent) : List UUID :=
  events.filterMap fun event => parseVideoIdFromKey event.key

/-- `create_video` with an identifier that no video has and no message names yet. -/
def Deployment.create (dep : Deployment) (videoId : UUID) (request : CreateVideoRequest) :
    Option Deployment :=
  if (dep.sites videoId).isSome ∨
      dep.queue.any fun posted => (videoIds (messageEvents posted.body)).contains videoId then none
  else
    let key := buildUploadObjectKey videoId request.filename
    some { dep with
      created := dep.created ++ [videoId]
      sites := Function.update dep.sites videoId
        (some ⟨.created videoId request.filename key, []⟩) }

/-- The handling of message `m` begins. -/
def Deployment.deliver (dep : Deployment) (m : ℕ) (body : Str) : Deployment :=
  { dep with deliveries := dep.deliveries ++ [⟨m, some (.begin body)⟩] }

/-- A message is delivered, also once more, until the queue has deleted it. -/
def Deployment.receive (dep : Deployment) (m : ℕ) : Option Deployment :=
  dep.queue[m]?.bind fun posted =>
    if posted.deleted then none else some (dep.deliver m posted.body)

/-- Delivery `d` of message `m` has got to a point. -/
def Deployment.put (dep : Deployment) (d m : ℕ) (handling : Option Shim.Handling) : Deployment :=
  { dep with deliveries := dep.deliveries.set d ⟨m, handling⟩ }

/-- The handling of a delivery goes on with a reply. -/
def Deployment.resume (dep : Deployment) (d m : ℕ) (handling : Shim.Handling) (reply : Shim.Reply) :
    Option Deployment :=
  (handling.resume reply).map fun handling' => dep.put d m (some handling')

/-- `db.get` returns or raises. -/
def Deployment.read (dep : Deployment) (d : ℕ) (ok : Bool) : Option Deployment :=
  dep.deliveries[d]?.bind fun receipt =>
    match receipt.handling with
    | some (.reading place objectKey videoId rest) =>
      dep.resume d receipt.message (.reading place objectKey videoId rest)
        (.read (if ok then some (dep.row videoId) else none))
    | _ => none

/-- The server gets the request of `_start_processing`. -/
def Deployment.serve (dep : Deployment) (videoId : UUID) : Deployment × Shim.StartOutcome :=
  match (dep.executions videoId).startWorkflow with
  | some temporal =>
    ({ dep with executions := Function.update dep.executions videoId temporal }, .started)
  | none => (dep, .alreadyStarted)

def Deployment.start (dep : Deployment) (d : ℕ) (reply : StartReply) : Option Deployment :=
  dep.deliveries[d]?.bind fun receipt =>
    match receipt.handling with
    | some (.starting place videoId rest) =>
      let served := dep.serve videoId
      match reply with
      | .received =>
        served.1.resume d receipt.message (.starting place videoId rest) (.start served.2)
      | .lost => served.1.resume d receipt.message (.starting place videoId rest) (.start .error)
      | .failed => dep.resume d receipt.message (.starting place videoId rest) (.start .error)
    | _ => none

/-- The queue deletes a message. -/
def Deployment.remove (dep : Deployment) (m : ℕ) : Deployment :=
  { dep with queue := dep.queue.modify m fun posted => { posted with deleted := true } }

def Deployment.delete (dep : Deployment) (d : ℕ) (reply : Shim.DeleteReply) : Option Deployment :=
  dep.deliveries[d]?.bind fun receipt =>
    match receipt.handling with
    | some .deleting =>
      match reply with
      | .received => (dep.remove receipt.message).resume d receipt.message .deleting (.delete true)
      | .lost => (dep.remove receipt.message).resume d receipt.message .deleting (.delete false)
      | .failed => dep.resume d receipt.message .deleting (.delete false)
    | _ => none

/-! ## All steps -/

inductive DeploymentLabel where
  | create (videoId : UUID) (request : CreateVideoRequest)
  | onSite (videoId : UUID) (l : Label)
  /-- S3 or anyone else puts a message on the queue, of any content that does not name one video
  twice -/
  | post (body : Str)
  /-- the shim receives a message that the queue has not deleted -/
  | receive (m : ℕ)
  | read (d : ℕ) (ok : Bool)
  | start (d : ℕ) (reply : StartReply)
  | delete (d : ℕ) (reply : Shim.DeleteReply)
  /-- the handling of a delivery is cut off -/
  | cutOff (d : ℕ)

def Deployment.step (settings : Settings) (dep : Deployment) :
    DeploymentLabel → Option Deployment
  | .create videoId request => dep.create videoId request
  | .onSite videoId l => dep.onSite settings videoId l
  | .post body =>
    if (videoIds (messageEvents body)).Nodup then some (dep.post body) else none
  | .receive m => dep.receive m
  | .read d ok => dep.read d ok
  | .start d reply => dep.start d reply
  | .delete d reply => dep.delete d reply
  | .cutOff d => dep.deliveries[d]?.map fun receipt => dep.put d receipt.message none

/-! ## What the steps come to -/

variable {settings : Settings} {dep dep' : Deployment} {videoId : UUID} {d m : ℕ}

/-- A step of one video, with what it publishes. -/
theorem Deployment.onSite_eq_some {l : Label} (h : dep.onSite settings videoId l = some dep') :
    ∃ site s, dep.sites videoId = some site ∧ l.onSite = true ∧
      (site.alone (dep.executions videoId)).step l = some s ∧
      (((site.alone (dep.executions videoId)).publishes l = none ∧
          dep' = dep.withSite videoId s) ∨
        ∃ video body, (site.alone (dep.executions videoId)).publishes l = some video ∧
          retryMessage settings video = some body ∧ dep' = (dep.withSite videoId s).post body) := by
  obtain ⟨site, hsite, h⟩ := Option.bind_eq_some_iff.mp h
  rw [Option.ite_none_left_eq_some] at h
  obtain ⟨hfree, h⟩ := h
  obtain ⟨s, hstep, h⟩ := Option.bind_eq_some_iff.mp h
  refine ⟨site, s, hsite, ?_, hstep, ?_⟩
  · exact Bool.eq_true_of_not_eq_false fun heq => hfree (.inl heq)
  · split at h
    · rename_i hnone
      exact .inl ⟨hnone, (Option.some.inj h).symm⟩
    · rename_i video hvideo
      obtain ⟨body, hbody, rfl⟩ := Option.map_eq_some_iff.mp h
      exact .inr ⟨video, body, hvideo, hbody, rfl⟩

/-- The row that `create_video` adds. -/
theorem Deployment.create_eq_some {request : CreateVideoRequest}
    (h : dep.create videoId request = some dep') : dep.sites videoId = none ∧
      (∀ posted ∈ dep.queue, videoId ∉ videoIds (messageEvents posted.body)) ∧
      dep' = { dep with
        created := dep.created ++ [videoId]
        sites := Function.update dep.sites videoId (some ⟨.created videoId request.filename
          (buildUploadObjectKey videoId request.filename), []⟩) } := by
  rw [Deployment.create, Option.ite_none_left_eq_some] at h
  obtain ⟨hfree, h⟩ := h
  obtain ⟨hsite, hqueue⟩ := not_or.mp hfree
  refine ⟨Option.not_isSome_iff_eq_none.mp hsite, fun posted hposted hmem => hqueue ?_,
    (Option.some.inj h).symm⟩
  exact List.any_eq_true.mpr ⟨posted, hposted, List.contains_iff_mem.mpr hmem⟩

/-- The rows are those `create_video` leaves in the table, and it returns the one it added. -/
theorem Deployment.row_create {request : CreateVideoRequest} {table table' : VideoTable}
    {presign : Str → Str → Option (Str × Time)} {dto : CreatedUploadDto}
    (hrows : ∀ id, table.row id = dep.row id) (h : dep.create videoId request = some dep')
    (hcreated : createVideo presign videoId request table = some (table', dto)) :
    (∀ id, table'.row id = dep'.row id) ∧ dep'.row videoId = some dto.video := by
  obtain ⟨-, -, rfl⟩ := Deployment.create_eq_some h
  obtain ⟨_, -, hcreated⟩ := Option.bind_eq_some_iff.mp hcreated
  obtain ⟨-, hcreated⟩ := Option.ite_none_left_eq_some.mp hcreated
  obtain ⟨rfl, rfl⟩ := Prod.mk.inj (Option.some.inj hcreated)
  refine ⟨fun id => ?_, ?_⟩
  · by_cases hid : id = videoId
    · subst hid
      simp only [VideoTable.insert, Deployment.row, Function.update_self, Option.map_some]
      rfl
    · simp only [VideoTable.insert, Deployment.row, Function.update_of_ne hid]
      exact hrows id
  · simp only [Deployment.row, Function.update_self, Option.map_some]
    rfl

/-- A delivery begins with the body of its message. -/
theorem Deployment.receive_eq_some (h : dep.receive m = some dep') :
    ∃ posted, dep.queue[m]? = some posted ∧ posted.deleted = false ∧
      dep' = dep.deliver m posted.body := by
  obtain ⟨posted, hposted, h⟩ := Option.bind_eq_some_iff.mp h
  rw [Option.ite_none_left_eq_some] at h
  exact ⟨posted, hposted, Bool.eq_false_iff.mpr h.1, (Option.some.inj h.2).symm⟩

/-- After a read the event's execution is started, or the loop goes on. -/
theorem Deployment.read_eq_some {ok : Bool} (h : dep.read d ok = some dep') :
    ∃ m place objectKey videoId rest,
      dep.deliveries[d]? = some ⟨m, some (.reading place objectKey videoId rest)⟩ ∧
      (dep' = dep.put d m (some .logged) ∨
        dep' = dep.put d m (some (if Shim.keyMatches objectKey (dep.row videoId) then
          .starting place videoId rest else .next (place + 1) rest))) := by
  obtain ⟨⟨m, handling⟩, hd, h⟩ := Option.bind_eq_some_iff.mp h
  dsimp only at h
  split at h
  · rename_i place objectKey videoId rest
    refine ⟨m, place, objectKey, videoId, rest, hd, ?_⟩
    cases ok with
    | false => exact .inl (Option.some.inj h).symm
    | true => exact .inr (Option.some.inj h).symm
  · cases h

/-- A start that is answered lets the loop go on, any other one ends the handling. -/
theorem Deployment.start_eq_some {reply : StartReply} (h : dep.start d reply = some dep') :
    ∃ m place videoId rest, dep.deliveries[d]? = some ⟨m, some (.starting place videoId rest)⟩ ∧
      ((reply = .failed ∧ dep' = dep.put d m (some .logged)) ∨
        (reply = .lost ∧ dep' = (dep.serve videoId).1.put d m (some .logged)) ∨
        (reply = .received ∧
          dep' = (dep.serve videoId).1.put d m (some (.next (place + 1) rest)))) := by
  obtain ⟨⟨m, handling⟩, hd, h⟩ := Option.bind_eq_some_iff.mp h
  dsimp only at h
  split at h
  · rename_i place videoId rest
    refine ⟨m, place, videoId, rest, hd, ?_⟩
    cases reply with
    | received =>
      have houtcome : Shim.startProcessing (dep.serve videoId).2 = some () := by
        rw [Deployment.serve]
        split <;> rfl
      have h := (Option.some.inj h).symm
      rw [houtcome] at h
      exact .inr (.inr ⟨rfl, h⟩)
    | lost => exact .inr (.inl ⟨rfl, (Option.some.inj h).symm⟩)
    | failed => exact .inl ⟨rfl, (Option.some.inj h).symm⟩
  · cases h

/-- A delete ends the handling, whether it was carried out or not. -/
theorem Deployment.delete_eq_some {reply : Shim.DeleteReply} (h : dep.delete d reply = some dep') :
    ∃ m handling, dep.deliveries[d]? = some ⟨m, some .deleting⟩ ∧ handling.over = true ∧
      (dep' = dep.put d m (some handling) ∨ dep' = (dep.remove m).put d m (some handling)) := by
  obtain ⟨⟨m, handling⟩, hd, h⟩ := Option.bind_eq_some_iff.mp h
  dsimp only at h
  split at h
  · cases reply with
    | received => exact ⟨m, .deleted, hd, rfl, .inr (Option.some.inj h).symm⟩
    | lost => exact ⟨m, .raised, hd, rfl, .inr (Option.some.inj h).symm⟩
    | failed => exact ⟨m, .raised, hd, rfl, .inl (Option.some.inj h).symm⟩
  · cases h

/-! ## What holds in every state -/

/-- The identifiers in the keys a handling still has to deal with. -/
def Shim.Handling.ids : Shim.Handling → List UUID
  | .created message => videoIds (messageEvents message.body)
  | .reading _ _ videoId rest | .starting _ videoId rest => videoId :: videoIds rest
  | _ => []

/-- The loop has the identifiers of its events before it. -/
theorem Shim.Handling.ids_next (place : ℕ) (events : List ObjectCreatedEvent) :
    (Shim.Handling.next place events).ids = videoIds events := by
  induction events generalizing place with
  | nil => rfl
  | cons event rest ih =>
    rw [Shim.Handling.next, videoIds, List.filterMap_cons]
    cases parseVideoIdFromKey event.key with
    | none => exact ih (place + 1)
    | some videoId => rfl

/-- A handling begins with the identifiers of its body. -/
theorem Shim.Handling.ids_begin (messageBody : Str) :
    (Shim.Handling.begin messageBody).ids = videoIds (messageEvents messageBody) := by
  rw [Shim.Handling.begin, messageEvents]
  cases parseObjectCreatedEvents messageBody with
  | none => rfl
  | some events => exact Shim.Handling.ids_next 0 events

/-- The loop reads a row before it starts anything. -/
theorem Shim.Handling.next_ne_starting (place : ℕ) (events : List ObjectCreatedEvent) (place' : ℕ)
    (videoId : UUID) (rest : List ObjectCreatedEvent) :
    Shim.Handling.next place events ≠ .starting place' videoId rest := by
  induction events generalizing place with
  | nil => exact fun heq => by cases heq
  | cons event events ih =>
    rw [Shim.Handling.next]
    split
    · exact ih (place + 1)
    · exact fun heq => by cases heq

/-- So does a handling as a whole. -/
theorem Shim.Handling.begin_ne_starting (messageBody : Str) (place : ℕ) (videoId : UUID)
    (rest : List ObjectCreatedEvent) :
    Shim.Handling.begin messageBody ≠ .starting place videoId rest := by
  rw [Shim.Handling.begin]
  split
  · exact fun heq => by cases heq
  · exact Shim.Handling.next_ne_starting _ _ _ _ _

/-- A handling that is over deals with nothing. -/
theorem Shim.Handling.ids_over {handling : Shim.Handling} (h : handling.over = true) :
    handling.ids = [] := by
  cases handling <;> first | rfl | cases h

/-- The bodies of all messages ever sent. -/
def Deployment.bodies (dep : Deployment) : List Str := dep.queue.map Posted.body

/-- A deleted message keeps its body. -/
@[simp] theorem Deployment.bodies_remove (dep : Deployment) (m : ℕ) :
    (dep.remove m).bodies = dep.bodies := by
  simp only [Deployment.bodies, Deployment.remove]
  refine List.ext_getElem? fun i => ?_
  rw [List.getElem?_map, List.getElem?_map, List.getElem?_modify]
  cases dep.queue[i]? with
  | none => rfl
  | some posted => simp only [Option.map_eq_map, Option.map_some]; split <;> rfl

@[simp] theorem Deployment.bodies_serve (dep : Deployment) (videoId : UUID) :
    (dep.serve videoId).1.bodies = dep.bodies := by
  rw [Deployment.serve]
  split <;> rfl

@[simp] theorem Deployment.deliveries_serve (dep : Deployment) (videoId : UUID) :
    (dep.serve videoId).1.deliveries = dep.deliveries := by
  rw [Deployment.serve]
  split <;> rfl

@[simp] theorem Deployment.sites_serve (dep : Deployment) (videoId : UUID) :
    (dep.serve videoId).1.sites = dep.sites := by
  rw [Deployment.serve]
  split <;> rfl

/-- A start concerns one workflow ID. -/
theorem Deployment.executions_serve_of_ne (dep : Deployment) {id : UUID} (hid : id ≠ videoId) :
    (dep.serve videoId).1.executions id = dep.executions id := by
  rw [Deployment.serve]
  split
  · exact Function.update_of_ne hid ..
  · rfl

@[simp] theorem Deployment.withSite_sites_self (dep : Deployment) (videoId : UUID) (s : State) :
    (dep.withSite videoId s).sites videoId = some ⟨s.pool, s.requests⟩ := Function.update_self ..

/-- A step of one video leaves the rows of the others alone. -/
theorem Deployment.withSite_sites_of_ne (dep : Deployment) {id : UUID} (s : State)
    (hid : id ≠ videoId) : (dep.withSite videoId s).sites id = dep.sites id :=
  Function.update_of_ne hid ..

/-- And their executions. -/
theorem Deployment.withSite_executions_of_ne (dep : Deployment) {id : UUID} (s : State)
    (hid : id ≠ videoId) : (dep.withSite videoId s).executions id = dep.executions id :=
  Function.update_of_ne hid ..

/-- What the handling of a delivery has to deal with comes from its message, and what it is about to
start has a row. -/
structure Receipt.Sound (sites : UUID → Option Site) (bodies : List Str) (receipt : Receipt) :
    Prop where
  ids : ∃ body, bodies[receipt.message]? = some body ∧ ∀ handling,
    receipt.handling = some handling → handling.ids.Sublist (videoIds (messageEvents body))
  known : ∀ place videoId rest, receipt.handling = some (.starting place videoId rest) →
    sites videoId ≠ none

structure Deployment.Sound (dep : Deployment) : Prop where
  distinct : ∀ body ∈ dep.bodies, (videoIds (messageEvents body)).Nodup
  receipts : ∀ receipt ∈ dep.deliveries, receipt.Sound dep.sites dep.bodies
  /-- nothing is started for a video without a row -/
  unstarted : ∀ id, dep.sites id = none → dep.executions id = ⟨[], none⟩

/-- Before anything happens there is nothing to be sound. -/
theorem Deployment.sound_empty : Deployment.empty.Sound where
  distinct := fun body hbody => by cases hbody
  receipts := fun receipt hreceipt => by cases hreceipt
  unstarted := fun id _ => rfl

/-- A handling that goes on deals with no more than before. -/
theorem Deployment.Sound.put (h : dep.Sound) {receipt : Receipt}
    (hd : dep.deliveries[d]? = some receipt) {handling : Option Shim.Handling}
    (hids : ∀ new, handling = some new →
      ∃ old, receipt.handling = some old ∧ new.ids.Sublist old.ids)
    (hknown : ∀ place videoId rest, handling = some (.starting place videoId rest) →
      dep.sites videoId ≠ none) : (dep.put d receipt.message handling).Sound where
  distinct := h.distinct
  receipts := fun receipt' hreceipt' => by
    rcases List.mem_or_eq_of_mem_set hreceipt' with hreceipt' | rfl
    · exact h.receipts receipt' hreceipt'
    · obtain ⟨body, hbody, hold⟩ := (h.receipts receipt (List.mem_of_getElem? hd)).ids
      refine ⟨⟨body, hbody, fun new hnew => ?_⟩, hknown⟩
      obtain ⟨old, heq, hsub⟩ := hids new hnew
      exact hsub.trans (hold old heq)
  unstarted := h.unstarted

/-- A handling that is over or cut off. -/
theorem Deployment.Sound.stop (h : dep.Sound) {receipt : Receipt}
    (hd : dep.deliveries[d]? = some receipt) {old : Shim.Handling}
    (hold : receipt.handling = some old) {handling : Option Shim.Handling}
    (hover : ∀ new, handling = some new → new.over = true) :
    (dep.put d receipt.message handling).Sound := by
  refine h.put hd (fun new hnew => ⟨old, hold, ?_⟩) fun place videoId rest heq => ?_
  · rw [Shim.Handling.ids_over (hover new hnew)]
    exact List.nil_sublist _
  · have := hover _ heq
    cases this

/-- The loop goes on with the next event. -/
theorem Deployment.Sound.putNext (h : dep.Sound) {place : ℕ} {rest : List ObjectCreatedEvent}
    {old : Shim.Handling} (hd : dep.deliveries[d]? = some ⟨m, some old⟩)
    (hold : (∃ objectKey videoId, old = .reading place objectKey videoId rest) ∨
      ∃ videoId, old = .starting place videoId rest) :
    (dep.put d m (some (.next (place + 1) rest))).Sound := by
  have hids : (Shim.Handling.next (place + 1) rest).ids.Sublist old.ids := by
    rw [Shim.Handling.ids_next]
    rcases hold with ⟨objectKey, videoId, rfl⟩ | ⟨videoId, rfl⟩ <;> exact List.sublist_cons_self ..
  refine h.put hd (fun new hnew => ⟨old, rfl, Option.some.inj hnew ▸ hids⟩) ?_
  exact fun place' videoId rest' heq =>
    absurd (Option.some.inj heq) (Shim.Handling.next_ne_starting _ _ _ _ _)

/-- A start for a video with a row. -/
theorem Deployment.Sound.serve (h : dep.Sound) (hsite : dep.sites videoId ≠ none) :
    (dep.serve videoId).1.Sound where
  distinct := fun body hbody => h.distinct body (by rwa [Deployment.bodies_serve] at hbody)
  receipts := by
    rw [Deployment.deliveries_serve, Deployment.sites_serve, Deployment.bodies_serve]
    exact h.receipts
  unstarted := fun id hid => by
    rw [Deployment.sites_serve] at hid
    have hne : id ≠ videoId := by
      rintro rfl
      exact hsite hid
    rw [dep.executions_serve_of_ne hne]
    exact h.unstarted id hid

/-- A delete. -/
theorem Deployment.Sound.remove (h : dep.Sound) (m : ℕ) : (dep.remove m).Sound where
  distinct := fun body hbody => h.distinct body (by rwa [Deployment.bodies_remove] at hbody)
  receipts := by
    rw [Deployment.bodies_remove]
    exact h.receipts
  unstarted := h.unstarted

/-- More rows and more messages do no harm. -/
theorem Receipt.Sound.mono {sites sites' : UUID → Option Site} {bodies bodies' : List Str}
    {receipt : Receipt} (h : receipt.Sound sites bodies)
    (hsites : ∀ id, sites id ≠ none → sites' id ≠ none)
    (hbodies : bodies <+: bodies') : receipt.Sound sites' bodies' := by
  obtain ⟨⟨body, hbody, hids⟩, hknown⟩ := h
  obtain ⟨others, rfl⟩ := hbodies
  refine ⟨⟨body, ?_, hids⟩, fun place videoId rest heq => hsites _ (hknown place videoId rest heq)⟩
  rw [List.getElem?_append_left (List.getElem?_eq_some_iff.mp hbody).1, hbody]

theorem Deployment.bodies_post (dep : Deployment) (body : Str) :
    (dep.post body).bodies = dep.bodies ++ [body] := List.map_append

/-- A message that names no video twice is put on the queue. -/
theorem Deployment.Sound.post (h : dep.Sound) {body : Str}
    (hbody : (videoIds (messageEvents body)).Nodup) : (dep.post body).Sound where
  distinct := fun body' hbody' => by
    rw [Deployment.bodies_post] at hbody'
    rcases List.mem_append.mp hbody' with hbody' | hbody'
    · exact h.distinct body' hbody'
    · obtain rfl := List.mem_singleton.mp hbody'
      exact hbody
  receipts := fun receipt hreceipt => (h.receipts receipt hreceipt).mono (fun _ => id)
    (by rw [Deployment.bodies_post]; exact List.prefix_append _ _)
  unstarted := h.unstarted

/-- A step of one video. -/
theorem Deployment.Sound.withSite (h : dep.Sound) (videoId : UUID) (s : State) :
    (dep.withSite videoId s).Sound where
  distinct := h.distinct
  receipts := fun receipt hreceipt => by
    refine (h.receipts receipt hreceipt).mono (fun id hid => ?_) (List.prefix_refl _)
    by_cases heq : id = videoId
    · subst heq
      rw [Deployment.withSite_sites_self]
      exact Option.some_ne_none _
    · rwa [dep.withSite_sites_of_ne s heq]
  unstarted := fun id hid => by
    have hne : id ≠ videoId := by
      rintro rfl
      rw [Deployment.withSite_sites_self] at hid
      cases hid
    rw [dep.withSite_sites_of_ne s hne] at hid
    rw [dep.withSite_executions_of_ne s hne]
    exact h.unstarted id hid

/-- What `retry_video` publishes is the one event of the row's key. -/
theorem retryMessage_events {video : Video} {body : Str}
    (h : retryMessage settings video = some body) : ∃ name,
      messageEvents body = [⟨name, video.originalObjectKey⟩] := by
  obtain ⟨name, hparse⟩ := (notifies_build settings.s3BucketName_ok h).parse
  exact ⟨name, by rw [messageEvents, hparse, Option.getD_some]⟩

/-- So it names no video twice. -/
theorem retryMessage_distinct {video : Video} {body : Str}
    (h : retryMessage settings video = some body) : (videoIds (messageEvents body)).Nodup := by
  obtain ⟨name, hevents⟩ := retryMessage_events h
  rw [hevents, videoIds, List.filterMap_cons]
  split
  · exact List.nodup_nil
  · exact List.nodup_singleton _

/-- Every step keeps the platform sound. -/
theorem Deployment.Sound.step {l : DeploymentLabel} (h : dep.Sound)
    (hstep : dep.step settings l = some dep') : dep'.Sound := by
  cases l with
  | create videoId request =>
    obtain ⟨hsite, -, rfl⟩ := Deployment.create_eq_some hstep
    -- videos are only added, so what was known of one stays
    have hgrows (id : UUID) (hid : dep.sites id ≠ none) : Function.update dep.sites videoId
        (some ⟨.created videoId request.filename
          (buildUploadObjectKey videoId request.filename), []⟩) id ≠ none := by
      have hne : id ≠ videoId := by
        rintro rfl
        exact hid hsite
      rwa [Function.update_of_ne hne]
    refine ⟨h.distinct, fun receipt hreceipt =>
      (h.receipts receipt hreceipt).mono hgrows (List.prefix_refl _), fun id hid => ?_⟩
    exact h.unstarted id (not_not.mp fun hne => hgrows id hne hid)
  | onSite videoId l =>
    obtain ⟨site, s, -, -, -, ⟨-, rfl⟩ | ⟨video, body, -, hbody, rfl⟩⟩ :=
      Deployment.onSite_eq_some hstep
    · exact h.withSite videoId s
    · exact (h.withSite videoId s).post (retryMessage_distinct hbody)
  | post body =>
    -- the guard of a posted body is what the queue keeps
    rw [Deployment.step, Option.ite_none_right_eq_some] at hstep
    obtain ⟨hdistinct, hstep⟩ := hstep
    obtain rfl := Option.some.inj hstep
    exact h.post hdistinct
  | receive m =>
    obtain ⟨posted, hposted, -, rfl⟩ := Deployment.receive_eq_some hstep
    refine ⟨h.distinct, fun receipt hreceipt => ?_, h.unstarted⟩
    -- a receipt of before, or the new one, which is at the start of its body
    rcases List.mem_append.mp hreceipt with hreceipt | hreceipt
    · exact h.receipts receipt hreceipt
    · obtain rfl := List.mem_singleton.mp hreceipt
      refine ⟨⟨posted.body, ?_, fun handling heq => ?_⟩, fun place videoId rest heq => ?_⟩
      · exact (List.getElem?_map ..).trans (congrArg (Option.map Posted.body) hposted)
      · obtain rfl := Option.some.inj heq
        rw [Shim.Handling.ids_begin]
      · exact absurd (Option.some.inj heq) (Shim.Handling.begin_ne_starting _ _ _ _)
  | read d ok =>
    obtain ⟨m, place, objectKey, videoId, rest, hd, rfl | rfl⟩ := Deployment.read_eq_some hstep
    · exact h.stop hd rfl fun new hnew => by
        obtain rfl := Option.some.inj hnew
        rfl
    · split
      · rename_i hmatch
        refine h.put hd (fun new hnew => ⟨_, rfl, ?_⟩) fun place' videoId' rest' heq => ?_
        · obtain rfl := Option.some.inj hnew
          exact List.Sublist.refl _
        · -- the row has been read
          obtain ⟨rfl, rfl, rfl⟩ := Shim.Handling.starting.inj (Option.some.inj heq)
          obtain ⟨video, hrow, -⟩ := (Option.any_eq_true _ _).mp hmatch
          obtain ⟨site, hsite, -⟩ := Option.map_eq_some_iff.mp hrow
          rw [hsite]
          exact Option.some_ne_none _
      · exact h.putNext hd (.inl ⟨_, _, rfl⟩)
  | start d reply =>
    obtain ⟨m, place, videoId, rest, hd, hcases⟩ := Deployment.start_eq_some hstep
    have hserve := h.serve ((h.receipts _ (List.mem_of_getElem? hd)).known _ _ _ rfl)
    have hd' : (dep.serve videoId).1.deliveries[d]? =
        some ⟨m, some (.starting place videoId rest)⟩ := by
      rwa [Deployment.deliveries_serve]
    -- an error is logged, which ends the handling
    have hlogged (new : Shim.Handling) (hnew : some Shim.Handling.logged = some new) :
        new.over = true := by
      obtain rfl := Option.some.inj hnew
      rfl
    rcases hcases with ⟨-, rfl⟩ | ⟨-, rfl⟩ | ⟨-, rfl⟩
    · exact h.stop hd rfl hlogged
    · exact hserve.stop hd' rfl hlogged
    · exact hserve.putNext hd' (.inr ⟨_, rfl⟩)
  | delete d reply =>
    obtain ⟨m, handling, hd, hover, rfl | rfl⟩ := Deployment.delete_eq_some hstep
    · exact h.stop hd rfl fun new hnew => Option.some.inj hnew ▸ hover
    · exact (h.remove m).stop hd rfl fun new hnew => Option.some.inj hnew ▸ hover
  | cutOff d =>
    obtain ⟨receipt, hd, rfl⟩ := Option.map_eq_some_iff.mp hstep
    exact h.put hd (fun new hnew => by cases hnew) fun place videoId rest heq => by cases heq

/-- So does every run. -/
theorem Deployment.exec_sound {ls : List DeploymentLabel}
    (hrun : exec (Deployment.step settings) .empty ls = some dep) : dep.Sound :=
  exec_invariant (fun _ _ _ h hstep => Deployment.Sound.step h hstep) Deployment.sound_empty hrun

end VideoProcessing
