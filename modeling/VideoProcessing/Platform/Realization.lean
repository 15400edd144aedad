import VideoProcessing.Platform.Projection
import VideoProcessing.Platform.Readers

/-!
# The platform around one video on the whole platform

The platform around one video does nothing that the whole platform could not do. Where the key of
the video resolves, each of its runs happens on the whole platform, with this video alone and the
notification of its upload as the one body on the queue.

The steps on the video and its execution are the same on both sides. A delivery around the video is
at its start when that of the whole platform may still have to read the row, so a start is two steps
there.
-/

namespace VideoProcessing

open Python UnitOfWork Transitions Selection

variable {settings : Settings} {id : UUID} {key body : Str}

/-- The body names the one object of the key, which resolves to the video. -/
structure Notification (settings : Settings) (id : UUID) (key body : Str) : Prop where
  resolves : Resolves id key
  built : buildObjectCreatedMessage settings.s3BucketName key = some body

/-- A notification is one event. -/
theorem Notification.events (h : Notification settings id key body) :
    ∃ name, parseObjectCreatedEvents body = some [⟨name, key⟩] :=
  (notifies_build settings.s3BucketName_ok h.built).parse

/-- It asks for its video. -/
theorem Notification.asksFor (h : Notification settings id key body) :
    asksFor id key body = true := by
  obtain ⟨name, hevents⟩ := h.events
  simp [VideoProcessing.asksFor, messageEvents, hevents, ObjectCreatedEvent.isOf, h.resolves.1,
    h.resolves.2]

/-- Its handling begins with the read of the row. -/
theorem Notification.begin (h : Notification settings id key body) :
    Shim.Handling.begin body = .reading 0 key id [] := by
  obtain ⟨name, hevents⟩ := h.events
  simp only [Shim.Handling.begin, hevents, Shim.Handling.next, h.resolves.1]

/-- Before the start it asks for the video. -/
theorem Notification.asksFor_reading (h : Notification settings id key body) :
    (Shim.Handling.reading 0 key id []).asksFor id key = true := by
  simp [Shim.Handling.asksFor, h.resolves.2]

/-- At the start too. -/
theorem asksFor_starting (id : UUID) (key : Str) :
    (Shim.Handling.starting 0 id []).asksFor id key = true := by
  simp [Shim.Handling.asksFor]

/-- It names no video twice. -/
theorem Notification.distinct (h : Notification settings id key body) :
    (videoIds (messageEvents body)).Nodup := by
  obtain ⟨name, hevents⟩ := h.events
  rw [messageEvents, hevents, Option.getD_some, videoIds, List.filterMap_cons, h.resolves.1]
  exact List.nodup_singleton _

/-- The video is the only one, and every message its notification. -/
structure Deployment.Alone (id : UUID) (key body : Str) (dep : Deployment) : Prop where
  created : dep.created = [id]
  bodies : ∀ posted ∈ dep.queue, posted.body = body
  handled : ∀ receipt ∈ dep.deliveries, ∀ handling, receipt.handling = some handling →
    handling.over = true ∨ handling = .deleting ∨ handling = .reading 0 key id [] ∨
      handling = .starting 0 id []

variable {dep dep' : Deployment} {s s' : State} {l : Label} {ms ds : List ℕ}

/-- The handling of a notification goes on. -/
theorem Deployment.Alone.put (h : dep.Alone id key body) {d m : ℕ} {handling : Shim.Handling}
    (hhandling : handling.over = true ∨ handling = .deleting ∨
      handling = .reading 0 key id [] ∨ handling = .starting 0 id []) :
    (dep.put d m (some handling)).Alone id key body where
  created := h.created
  bodies := h.bodies
  handled := fun receipt hreceipt handling' heq => by
    rcases List.mem_or_eq_of_mem_set hreceipt with hreceipt | rfl
    · exact h.handled receipt hreceipt handling' heq
    · obtain rfl := Option.some.inj heq
      exact hhandling

/-- One more notification. -/
theorem Deployment.Alone.post (h : dep.Alone id key body) : (dep.post body).Alone id key body where
  created := h.created
  bodies := fun posted hposted => by
    rcases List.mem_append.mp hposted with hposted | hposted
    · exact h.bodies posted hposted
    · obtain rfl := List.mem_singleton.mp hposted
      rfl
  handled := h.handled

/-- A step of the video. -/
theorem Deployment.Alone.withSite (h : dep.Alone id key body) (t : State) :
    (dep.withSite id t).Alone id key body := ⟨h.created, h.bodies, h.handled⟩

/-- A start. -/
theorem Deployment.Alone.serve (h : dep.Alone id key body) (videoId : UUID) :
    (dep.serve videoId).1.Alone id key body := by
  rw [Deployment.serve]
  split
  · exact ⟨h.created, h.bodies, h.handled⟩
  · exact h

/-- A delete. -/
theorem Deployment.Alone.remove (h : dep.Alone id key body) (m : ℕ) :
    (dep.remove m).Alone id key body where
  created := h.created
  bodies := fun posted hposted => by
    obtain ⟨i, hi⟩ := List.mem_iff_getElem?.mp hposted
    rw [Deployment.remove, List.getElem?_modify] at hi
    obtain ⟨posted', hposted', rfl⟩ := Option.map_eq_some_iff.mp hi
    have hbody := h.bodies posted' (List.mem_of_getElem? hposted')
    split
    · exact hbody
    · exact hbody
  handled := h.handled

/-! ## Each step -/

/-- A step on the video alone is one on the whole platform. -/
theorem Deployment.Alone.onSite (h : dep.Alone id key body)
    (hnotification : Notification settings id key body) (hsound : dep.Sound)
    (hsim : dep.Simulates id key s ms ds) (hl : l.onSite = true) (hstep : s.step l = some s') :
    ∃ dep' ms', dep.step settings (.onSite id l) = some dep' ∧
      dep'.Simulates id key s' ms' ds ∧ dep'.Alone id key body := by
  rw [State.step_onSite hl] at hstep
  obtain ⟨t, halone, rfl⟩ := Option.map_eq_some_iff.mp hstep
  have hfree : ¬ (l.onSite = false ∨ dep.collides id s.pool l = true) := by
    rintro (heq | heq)
    · cases hl.symm.trans heq
    · cases l <;> simp [Deployment.collides, h.created] at heq
  have hsimulates := hsim.withSite hl halone
  simp only [Deployment.step, Deployment.onSite, hsim.site, Option.bind_some, if_neg hfree,
    hsim.site_alone, halone]
  rcases State.step_publishes halone hl with ⟨hnone, hmessages⟩ | ⟨r, video, hr, hsome, hmessages⟩
  · rw [hnone, hmessages, List.append_nil]
    exact ⟨_, ms, rfl, hsimulates, h.withSite t⟩
  · have hbody : retryMessage settings video.current = some body := by
      rw [retryMessage, hsim.rooted.sends r video hr]
      exact hnotification.built
    rw [hsome, hmessages]
    simp only [hbody, Option.map_some]
    exact ⟨_, _, rfl, hsimulates.post (hsound.withSite id t) hnotification.asksFor rfl,
      (h.withSite t).post⟩

/-- A delivery that is starting has been read, or can be. -/
theorem Deployment.Alone.reaches_starting (h : dep.Alone id key body)
    (hnotification : Notification settings id key body) (hsim : dep.Simulates id key s ms ds)
    {j m : ℕ} (hdelivery : s.deliveries[j]? = some ⟨m, .starting⟩) :
    ∃ dep' d q, Reaches (Deployment.step settings) dep dep' ∧ dep'.Simulates id key s ms ds ∧
      dep'.Alone id key body ∧ ds[j]? = some d ∧
      dep'.deliveries[d]? = some ⟨q, some (.starting 0 id [])⟩ := by
  obtain ⟨hlt, -⟩ := List.getElem?_eq_some_iff.mp hdelivery
  rw [← hsim.deliveries.length] at hlt
  have hj := List.getElem?_eq_getElem hlt
  obtain ⟨⟨q, handling⟩, hd, -⟩ := hsim.deliveries.exists_entry hj
  obtain ⟨-, hshows⟩ := hsim.deliveries.view j _ _ _ hj hd hdelivery
  -- a delivery seen to be starting reads the row first, or has read it
  cases handling with
  | none => cases hshows
  | some handling =>
    rcases h.handled _ (List.mem_of_getElem? hd) handling rfl with hover | rfl | rfl | rfl
    · rw [Shows, if_pos hover] at hshows
      cases hshows
    · obtain ⟨outcome, heq⟩ : ∃ outcome, DeliveryPhase.starting = .deleting outcome := hshows
      cases heq
    · -- the row is there and has the key
      have hmatch : Shim.keyMatches key (dep.row id) = true := by
        rw [Deployment.row, hsim.site, Option.map_some, Shim.keyMatches, Option.any_some,
          hsim.rooted.originalObjectKey, hnotification.resolves.2]
        exact decide_eq_true rfl
      have hread : dep.step settings (.read ds[j] true) =
          some (dep.put ds[j] q (some (.starting 0 id []))) := by
        simp only [Deployment.step, Deployment.read, hd, Option.bind_some, Deployment.resume,
          Shim.Handling.resume, hmatch, if_true, Option.map_some]
      have hasks := (asksFor_starting id key).trans hnotification.asksFor_reading.symm
      refine ⟨_, _, q, .step hread, hsim.stay hd rfl rfl rfl hasks,
        h.put (.inr (.inr (.inr rfl))), hj, ?_⟩
      exact List.getElem?_set_self (List.getElem?_eq_some_iff.mp hd).1
    · exact ⟨dep, _, q, .refl _ _, hsim, h, hj, hd⟩

/-- A start of the one video is one of the platform. -/
theorem Deployment.Alone.start (h : dep.Alone id key body)
    (hnotification : Notification settings id key body) (hsim : dep.Simulates id key s ms ds)
    {j : ℕ} {reply : StartReply} (hstep : s.step (.start j reply) = some s') :
    ∃ dep', Reaches (Deployment.step settings) dep dep' ∧ dep'.Simulates id key s' ms ds ∧
      dep'.Alone id key body := by
  obtain ⟨m, hdelivery⟩ : ∃ m, s.deliveries[j]? = some ⟨m, .starting⟩ := by
    cases State.step_moves hstep with
    | start hd | refuse hd => exact ⟨_, hd⟩
  obtain ⟨dep₁, d, q, hreaches, hsim₁, halone₁, hj, hd⟩ :=
    h.reaches_starting hnotification hsim hdelivery
  -- the server's part is the same whichever way the reply goes
  obtain ⟨hlost, outcome, hreceived⟩ := State.step_start hdelivery
  have hserved := hsim₁.serve hnotification.resolves
  have hserve := halone₁.serve id
  have hd' : (dep₁.serve id).1.deliveries[d]? = some ⟨q, some (.starting 0 id [])⟩ := by
    rwa [Deployment.deliveries_serve]
  cases reply with
  | received =>
    obtain rfl := Option.some.inj (hreceived.symm.trans hstep)
    have hstart : dep₁.step settings (.start d .received) =
        some ((dep₁.serve id).1.put d q (some .deleting)) := by
      simp only [Deployment.step, Deployment.start, hd, Option.bind_some, Deployment.resume]
      rw [Deployment.serve]
      split <;> rfl
    exact ⟨_, hreaches.trans (.step hstart), hserved.put hd' hj hdelivery ⟨outcome, rfl⟩,
      hserve.put (.inr (.inl rfl))⟩
  | lost =>
    obtain rfl := Option.some.inj (hlost.symm.trans hstep)
    have hstart : dep₁.step settings (.start d .lost) =
        some ((dep₁.serve id).1.put d q (some .logged)) := by
      simp only [Deployment.step, Deployment.start, hd, Option.bind_some, Deployment.resume]
      rfl
    exact ⟨_, hreaches.trans (.step hstart), hserved.put hd' hj hdelivery rfl,
      hserve.put (.inl rfl)⟩
  | failed =>
    -- the request has not reached the server
    have hfailed : s.step (.start j .failed) =
        some { s with deliveries := s.deliveries.set j ⟨m, .over⟩ } := by
      simp only [State.step, State.start, hdelivery, Option.bind_some]
      rfl
    obtain rfl := Option.some.inj (hfailed.symm.trans hstep)
    have hstart : dep₁.step settings (.start d .failed) =
        some (dep₁.put d q (some .logged)) := by
      simp only [Deployment.step, Deployment.start, hd, Option.bind_some, Deployment.resume]
      rfl
    exact ⟨_, hreaches.trans (.step hstart), hsim₁.put hd hj hdelivery rfl, halone₁.put (.inl rfl)⟩

/-- And so is a delete. -/
theorem Deployment.Alone.delete (h : dep.Alone id key body)
    (hnotification : Notification settings id key body) (hsim : dep.Simulates id key s ms ds)
    {j : ℕ} {ok : Bool} (hstep : s.step (.delete j ok) = some s') :
    ∃ dep', Reaches (Deployment.step settings) dep dep' ∧ dep'.Simulates id key s' ms ds ∧
      dep'.Alone id key body := by
  obtain ⟨m, outcome, hdelivery⟩ :
      ∃ m outcome, s.deliveries[j]? = some ⟨m, .deleting outcome⟩ := by
    cases State.step_moves hstep with
    | delete hd | deleteFails hd => exact ⟨_, _, hd⟩
  obtain ⟨hlt, -⟩ := List.getElem?_eq_some_iff.mp hdelivery
  rw [← hsim.deliveries.length] at hlt
  have hj := List.getElem?_eq_getElem hlt
  obtain ⟨⟨q, handling⟩, hd, -⟩ := hsim.deliveries.exists_entry hj
  obtain ⟨hm, hshows⟩ := hsim.deliveries.view j _ _ _ hj hd hdelivery
  -- a delivery seen to be deleting is handled up to its delete
  obtain rfl : handling = some .deleting := by
    cases handling with
    | none => cases hshows
    | some handling =>
      rcases h.handled _ (List.mem_of_getElem? hd) handling rfl with hover | rfl | rfl | rfl
      · rw [Shows, if_pos hover] at hshows
        cases hshows
      · rfl
      · cases (shows_of_asksFor rfl hnotification.asksFor_reading).mp hshows
      · cases (shows_of_asksFor rfl (asksFor_starting id key)).mp hshows
  cases ok with
  | true =>
    have hdelete : dep.step settings (.delete ds[j] .received) =
        some ((dep.remove q).put ds[j] q (some .deleted)) := by
      simp only [Deployment.step, Deployment.delete, hd, Option.bind_some, Deployment.resume]
      rfl
    have hstate : s.step (.delete j true) = some { s with
        deliveries := s.deliveries.set j ⟨m, .over⟩
        messages := s.messages.modify m fun message =>
          { message with deleted := message.deleted.or (some outcome) } } := by
      simp only [State.step, State.delete, hdelivery, Option.bind_some]
      rfl
    -- the queue has carried the delete out, and the reply has arrived
    obtain rfl := Option.some.inj (hstate.symm.trans hstep)
    exact ⟨_, .step hdelete, (hsim.remove hm outcome).put hd hj hdelivery rfl,
      (h.remove q).put (.inl rfl)⟩
  | false =>
    have hdelete : dep.step settings (.delete ds[j] .failed) =
        some (dep.put ds[j] q (some .raised)) := by
      simp only [Deployment.step, Deployment.delete, hd, Option.bind_some, Deployment.resume]
      rfl
    have hstate : s.step (.delete j false) =
        some { s with deliveries := s.deliveries.set j ⟨m, .over⟩ } := by
      simp only [State.step, State.delete, hdelivery, Option.bind_some]
      rfl
    obtain rfl := Option.some.inj (hstate.symm.trans hstep)
    exact ⟨_, .step hdelete, hsim.put hd hj hdelivery rfl, h.put (.inl rfl)⟩

/-- And a delivery. -/
theorem Deployment.Alone.receive (h : dep.Alone id key body)
    (hnotification : Notification settings id key body) (hsim : dep.Simulates id key s ms ds)
    {i : ℕ} (hstep : s.step (.receive i) = some s') :
    ∃ m dep' ds', dep.step settings (.receive m) = some dep' ∧
      dep'.Simulates id key s' ms ds' ∧ dep'.Alone id key body := by
  cases State.step_moves hstep with
  | receive hmessage hdeleted =>
    obtain ⟨hlt, -⟩ := List.getElem?_eq_some_iff.mp hmessage
    rw [← hsim.messages.length] at hlt
    have hi := List.getElem?_eq_getElem hlt
    obtain ⟨posted, hposted, -⟩ := hsim.messages.exists_entry hi
    have hseen := hsim.messages.view i _ _ _ hi hposted hmessage
    rw [hdeleted] at hseen
    have hreceive : dep.step settings (.receive ms[i]) = some (dep.deliver ms[i] posted.body) := by
      simp only [Deployment.step, Deployment.receive, hposted, Option.bind_some, ← hseen]
      rfl
    refine ⟨_, _, _, hreceive, hsim.deliver hi hposted, h.created, h.bodies, ?_⟩
    intro receipt hreceipt handling heq
    rcases List.mem_append.mp hreceipt with hreceipt | hreceipt
    · exact h.handled receipt hreceipt handling heq
    · obtain rfl := List.mem_singleton.mp hreceipt
      obtain rfl := Option.some.inj heq
      rw [h.bodies posted (List.mem_of_getElem? hposted), hnotification.begin]
      exact .inr (.inr (.inl rfl))

/-- A request taken as one step is the steps of a request in a row. -/
theorem State.exec_retryVideo (hstep : s.step .retryVideo = some s') :
    ∃ ls, exec State.step s ls = some s' ∧ ∀ l ∈ ls, l.onSite = true := by
  obtain ⟨s₁, h₁, hstep⟩ := Option.bind_eq_some_iff.mp hstep
  have hbegin : s.step .retryBegin = some s.retryBegin := rfl
  have hread : s.retryBegin.step (.retryStep s.requests.length true) = some s₁ := h₁
  split at hstep
  · obtain rfl := Option.some.inj hstep
    refine ⟨[.retryBegin, .retryStep s.requests.length true], ?_, by simp [Label.onSite]⟩
    rw [exec_cons, hbegin, Option.bind_some, exec_cons, hread, Option.bind_some, exec_nil]
  · obtain ⟨s₂, h₂, h₃⟩ := Option.bind_eq_some_iff.mp hstep
    have hsend : s₁.step (.retryStep s.requests.length true) = some s₂ := h₂
    have hcommit : s₂.step (.retryStep s.requests.length true) = some s' := h₃
    refine ⟨.retryBegin :: List.replicate 3 (.retryStep s.requests.length true), ?_,
      by simp [Label.onSite]⟩
    simp only [List.replicate, exec_cons, hbegin, Option.bind_some, hread, hsend, hcommit, exec_nil]

/-! ## Every run -/

/-- The whole platform has got to where it looks like this. -/
def State.Realized (settings : Settings) (id : UUID) (key body : Str) (s : State) : Prop :=
  ∃ dep ms ds, Reaches (Deployment.step settings) .empty dep ∧
    dep.Simulates id key s ms ds ∧ dep.Alone id key body

/-- A step of the video is one of the platform. -/
theorem State.Realized.onSite (h : s.Realized settings id key body)
    (hnotification : Notification settings id key body) (hl : l.onSite = true)
    (hstep : s.step l = some s') : s'.Realized settings id key body := by
  obtain ⟨dep, ms, ds, ⟨ls, hls⟩, hsim, halone⟩ := h
  obtain ⟨dep', ms', hdep, hsim', halone'⟩ :=
    halone.onSite hnotification (Deployment.exec_sound hls) hsim hl hstep
  exact ⟨dep', ms', ds, .trans ⟨ls, hls⟩ (.step hdep), hsim', halone'⟩

/-- So is every other step. -/
theorem State.Realized.step (h : s.Realized settings id key body)
    (hnotification : Notification settings id key body) (hstep : s.step l = some s') :
    s'.Realized settings id key body := by
  cases hl : l.onSite with
  | true => exact h.onSite hnotification hl hstep
  | false =>
    cases l with
    | notify =>
      obtain ⟨dep, ms, ds, ⟨ls, hls⟩, hsim, halone⟩ := h
      obtain rfl := Option.some.inj hstep
      -- the body is one of the event sources', so it may be posted
      have hpost : dep.step settings (.post body) = some (dep.post body) :=
        if_pos hnotification.distinct
      exact ⟨_, _, ds, .trans ⟨ls, hls⟩ (.step hpost),
        hsim.post (Deployment.exec_sound hls) hnotification.asksFor rfl, halone.post⟩
    | receive i =>
      obtain ⟨dep, ms, ds, hreaches, hsim, halone⟩ := h
      obtain ⟨m, dep', ds', hdep, hsim', halone'⟩ := halone.receive hnotification hsim hstep
      exact ⟨dep', ms, ds', hreaches.trans (.step hdep), hsim', halone'⟩
    | start j reply =>
      obtain ⟨dep, ms, ds, hreaches, hsim, halone⟩ := h
      obtain ⟨dep', hdep, hsim', halone'⟩ := halone.start hnotification hsim hstep
      exact ⟨dep', ms, ds, hreaches.trans hdep, hsim', halone'⟩
    | delete j ok =>
      obtain ⟨dep, ms, ds, hreaches, hsim, halone⟩ := h
      obtain ⟨dep', hdep, hsim', halone'⟩ := halone.delete hnotification hsim hstep
      exact ⟨dep', ms, ds, hreaches.trans hdep, hsim', halone'⟩
    | retryVideo =>
      -- a retry in one step is a run of its four steps on the site
      obtain ⟨ls, hls, hall⟩ := State.exec_retryVideo hstep
      clear hstep hl
      induction ls generalizing s with
      | nil =>
        obtain rfl := Option.some.inj hls
        exact h
      | cons l ls ih =>
        obtain ⟨t, ht, hls⟩ := Option.bind_eq_some_iff.mp hls
        exact ih (h.onSite hnotification (hall l List.mem_cons_self) ht) hls
          fun l hl => hall l (List.mem_cons_of_mem _ hl)
    | _ => cases hl

/-- **The whole platform can do all that the platform around one video does.** Where the key of the
video resolves, every run of the platform around it leads to a state that some run of the whole
platform looks like. -/
theorem deployment_realizes (settings : Settings) {id : UUID} {request : CreateVideoRequest}
    {ls : List Label} {s : State}
    (hkey : Resolves id (buildUploadObjectKey id request.filename))
    (hrun : exec State.step
      (.created id request.filename (buildUploadObjectKey id request.filename)) ls = some s) :
    ∃ ls' dep ms ds, exec (Deployment.step settings) .empty ls' = some dep ∧
      dep.Views id (buildUploadObjectKey id request.filename) s ms ds := by
  have hbuilt : (buildObjectCreatedMessage settings.s3BucketName
      (buildUploadObjectKey id request.filename)).isSome := by
    rw [buildObjectCreatedMessage, Option.isSome_map]
    exact Url.quotePlus_isSome (request.scalar_key id)
  obtain ⟨body, hbody⟩ := Option.isSome_iff_exists.mp hbuilt
  have hnotification : Notification settings id _ body := ⟨hkey, hbody⟩
  have hcreate : Deployment.empty.step settings (.create id request) = some
      { Deployment.empty with
        created := [id]
        sites := Function.update Deployment.empty.sites id (some ⟨.created id request.filename
          (buildUploadObjectKey id request.filename), []⟩) } := rfl
  have hcreated : (State.created id request.filename
      (buildUploadObjectKey id request.filename)).Realized settings id
        (buildUploadObjectKey id request.filename) body := by
    refine ⟨_, [], [], .step hcreate, Deployment.sound_empty.simulates_created hcreate, rfl, ?_, ?_⟩
    · exact fun posted hposted => by cases hposted
    · exact fun receipt hreceipt => by cases hreceipt
  obtain ⟨dep, ms, ds, ⟨ls', hls'⟩, hsim, -⟩ :=
    exec_invariant (fun _ _ _ h hstep => State.Realized.step h hnotification hstep) hcreated hrun
  exact ⟨ls', dep, ms, ds, hls', hsim.toViews⟩

/-- An upload that is processed. -/
theorem deployment_realizes_clip : ∃ s,
    exec State.step (.created ⟨7⟩ clipRequest.filename
      (buildUploadObjectKey ⟨7⟩ clipRequest.filename)) State.processing = some s ∧
    Resolves ⟨7⟩ (buildUploadObjectKey ⟨7⟩ clipRequest.filename) ∧
    ∃ ls' dep ms ds, exec (Deployment.step videosBucket) .empty ls' = some dep ∧
      dep.Views ⟨7⟩ (buildUploadObjectKey ⟨7⟩ clipRequest.filename) s ms ds := by
  have hruns : (exec State.step (.created ⟨7⟩ clipRequest.filename
      (buildUploadObjectKey ⟨7⟩ clipRequest.filename)) State.processing).isSome := by
    decide +kernel
  have hkey : Resolves ⟨7⟩ (buildUploadObjectKey ⟨7⟩ clipRequest.filename) := by
    constructor
    · decide +kernel
    · decide +kernel
  obtain ⟨s, hrun⟩ := Option.isSome_iff_exists.mp hruns
  exact ⟨s, hrun, hkey, deployment_realizes videosBucket hkey hrun⟩

end VideoProcessing
