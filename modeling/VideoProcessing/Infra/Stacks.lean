import VideoProcessing.Common.UploadKeys
import VideoProcessing.Library.Wildcard
import VideoProcessing.Platform.Conformance
import VideoProcessing.Worker.Assets

/-!
# What the tasks ask of S3

The S3 part of `infra/services_stack.py` and `infra/platform_stack.py` next to what the code asks
for. A worker task downloads and uploads itself; an API task hands out presigned URLs, which S3
serves with the rights of the task's role. The worker's role is the one meant for the activities:
the container of its task starts a `video_processing.worker.main` that is not in the repository.

Which keys a request can have is known from the runs: an original's key was built by `create_video`,
and a generated asset's key by the activity that uploads it.
-/

namespace VideoProcessing

open Python UnitOfWork Transitions

/-! ## The stacks -/

inductive S3Action where
  | getObject
  | putObject
deriving DecidableEq

structure S3Request where
  action : S3Action
  key : Str
deriving DecidableEq

/-- `iam.PolicyStatement(actions=..., resources=[video_bucket.arn_for_objects(...)])`. -/
structure PolicyStatement where
  actions : List S3Action
  objects : List Str

/-- A text of a resource, where `*` and `?` are wildcards. -/
def resourcePattern (text : Str) : List (Wildcard.Piece ℕ) :=
  text.map fun c => if c = 42 then .many else if c = 63 then .one else .symbol c

def PolicyStatement.allows (statement : PolicyStatement) (request : S3Request) : Bool :=
  statement.actions.contains request.action &&
    statement.objects.any fun text => Wildcard.matchesPattern (resourcePattern text) request.key

/-- The tasks of the services stack that use the bucket. -/
inductive ServiceTask where
  | api
  | worker
deriving DecidableEq

/-- `api_task_definition.task_role` and `worker_task_definition.task_role`. -/
def ServiceTask.role : ServiceTask → List PolicyStatement
  | .api => [⟨[.putObject], [str "uploads/*"]⟩]
  | .worker => [⟨[.getObject], [str "uploads/*"]⟩, ⟨[.putObject], [str "assets/*"]⟩]

/-- A statement of the role allows the request. -/
def ServiceTask.allows (task : ServiceTask) (request : S3Request) : Bool :=
  task.role.any fun statement => statement.allows request

/-- `s3_notifications.NotificationKeyFilter(prefix="uploads/")`. -/
def notifies (key : Str) : Bool := (str "uploads/").isPrefixOf key

/-! ## The requests -/

/-- The request behind a call of an activity. -/
def Io.s3Request : Io → Option S3Request
  | .downloadOriginal key => some ⟨.getObject, key⟩
  | .uploadFile _ key => some ⟨.putObject, key⟩
  | _ => none

/-- The requests that can reach S3 as things stand. -/
inductive Deployment.Requests (dep : Deployment) : ServiceTask → S3Request → Prop
  /-- through the URL of `create_video` -/
  | upload {id : UUID} {site : Site} (hsite : dep.sites id = some site) :
      Requests dep .api ⟨.putObject, site.pool.rows.video.originalObjectKey⟩
  /-- through a URL of `get_asset_downloads` -/
  | download {id : UUID} {site : Site} {a : AssetType} {key : Str}
      (hsite : dep.sites id = some site) (ha : site.pool.rows.assets a = some key) :
      Requests dep .api ⟨.getObject, key⟩
  /-- by an attempt that awaits it -/
  | work {id : UUID} {site : Site} {i : ℕ} {a : Attempt} {f : Frame} {io : Io} {todo : List Io}
      {request : S3Request} (hsite : dep.sites id = some site)
      (hattempt : site.pool.attempts[i]? = some a) (hphase : a.phase = .work f (io :: todo))
      (hio : io.s3Request = some request) : Requests dep .worker request

/-! ## What the roles allow -/

/-- The API's role may put uploads, and nothing else. -/
theorem allows_api {request : S3Request} : ServiceTask.api.allows request = true ↔
    request.action = .putObject ∧ str "uploads/" <+: request.key := by
  have hpattern : resourcePattern (str "uploads/*") =
      Wildcard.literal (str "uploads/") ++ [.many] := by decide
  obtain ⟨action, key⟩ := request
  simp only [ServiceTask.allows, ServiceTask.role, PolicyStatement.allows, List.any_cons,
    List.any_nil, Bool.or_false, Bool.and_eq_true, List.contains_iff_mem, List.mem_singleton,
    hpattern, Wildcard.matchesPattern_literal_many]

/-- The worker's role may get uploads and put assets. -/
theorem allows_worker {request : S3Request} : ServiceTask.worker.allows request = true ↔
    (request.action = .getObject ∧ str "uploads/" <+: request.key) ∨
      (request.action = .putObject ∧ str "assets/" <+: request.key) := by
  have huploads : resourcePattern (str "uploads/*") =
      Wildcard.literal (str "uploads/") ++ [.many] := by decide
  have hassets : resourcePattern (str "assets/*") =
      Wildcard.literal (str "assets/") ++ [.many] := by decide
  obtain ⟨action, key⟩ := request
  simp only [ServiceTask.allows, ServiceTask.role, PolicyStatement.allows, List.any_cons,
    List.any_nil, Bool.or_false, Bool.or_eq_true, Bool.and_eq_true, List.contains_iff_mem,
    List.mem_singleton, huploads, hassets, Wildcard.matchesPattern_literal_many]

/-- The original is stored among the uploads. -/
theorem prefix_buildUploadObjectKey (videoId : UUID) (filename : Str) :
    str "uploads/" <+: buildUploadObjectKey videoId filename := by
  rw [buildUploadObjectKey, List.append_assoc, List.append_assoc]
  exact List.prefix_append ..

/-- A generated object is stored among the assets. -/
theorem prefix_assetKey (videoId : UUID) (a : AssetType) :
    str "assets/" <+: assetKey videoId a := by
  cases a <;> simp only [assetKey, thumbnailKey, List.append_assoc] <;> exact List.prefix_append ..

/-- The two prefixes part at their first letter. -/
theorem not_uploads_of_assets {key : Str} (h : str "assets/" <+: key) :
    ¬ str "uploads/" <+: key := by
  rintro ⟨rest, rfl⟩
  obtain ⟨rest', heq⟩ := h
  cases heq

/-! ## What the attempts call -/

/-- Every attempt calls what its activity calls, and what is in S3 was put there by one. -/
structure Pool.Calling (p : Pool) : Prop where
  called : p.Each fun rows a => ∃ calls,
    a.phase.Called p.videoId a.activity rows.video.originalObjectKey calls
  objects : ∀ key ∈ p.store.objects, ∃ a, key = assetKey p.videoId a

variable {videoId : UUID} {act : Activity} {st st' : Store} {ph ph' : Phase} {ans : Answer}
  {key originalKey : Str} {io : Io} {p p' : Pool} {l : PoolLabel}

/-- Only an upload that returns adds an object. -/
theorem Resumes.objects_cases (h : Resumes videoId act st ph ans st' ph') :
    st'.objects = st.objects ∨ ∃ f a key todo, ph = .work f (.uploadFile a key :: todo) ∧
      st'.objects = key :: st.objects := by
  cases h with
  | upload => exact .inr ⟨_, _, _, _, rfl, rfl⟩
  | _ => exact .inl rfl

/-- An upload of an activity goes under the key of its asset. -/
theorem key_of_mem_io {a : AssetType} (h : .uploadFile a key ∈ act.io videoId originalKey) :
    key = assetKey videoId a := by
  have hmem : (a, key) ∈ uploadsOf (act.io videoId originalKey) :=
    List.mem_filterMap.mpr ⟨_, h, rfl⟩
  rw [uploadsOf_io] at hmem
  exact key_of_mem_uploads hmem

/-- A download of an activity is that of the original. -/
theorem download_of_mem_io (h : .downloadOriginal key ∈ act.io videoId originalKey) :
    key = originalKey := by
  cases act with
  | extractMetadata | generateThumbnail =>
    rcases List.mem_cons.mp h with heq | h
    · exact Io.downloadOriginal.inj heq
    · simp at h
  | transcode sourceHeight =>
    rcases List.mem_cons.mp h with heq | h
    · exact Io.downloadOriginal.inj heq
    · obtain ⟨rendition, -, hmem⟩ := List.mem_flatMap.mp h
      simp at hmem

/-- What an attempt awaits is a call of its activity. -/
theorem Phase.Called.mem_io {calls : List Io} {f : Frame} {todo : List Io}
    (h : (Phase.work f (io :: todo)).Called videoId act originalKey calls) :
    io ∈ act.io videoId originalKey := by
  have hcalls : calls ++ io :: todo = act.io videoId originalKey := h
  rw [← hcalls]
  exact List.mem_append_right _ (List.mem_cons_self ..)

/-- Every step keeps to the calls of the activities. -/
theorem Pool.Calling.step (h : p.Calling) (hstep : p.step l = some p') : p'.Calling := by
  cases l with
  | begin act =>
    obtain rfl := Option.some.inj hstep
    exact ⟨Pool.Each.begin h.called ⟨[], rfl⟩, h.objects⟩
  | vanish i =>
    have hcalled : p'.Each fun rows a => ∃ calls,
        a.phase.Called p.videoId a.activity rows.video.originalObjectKey calls :=
      Pool.Each.vanish h.called hstep fun _ => ⟨[], trivial⟩
    obtain ⟨_, -, rfl⟩ := Pool.vanish_eq_some hstep
    exact ⟨hcalled, h.objects⟩
  | resume i ans =>
    have hcalled : p'.Each fun rows a => ∃ calls,
        a.phase.Called p.videoId a.activity rows.video.originalObjectKey calls := by
      refine Pool.Each.resume h.called hstep (fun a st ph _ hcalls hres => ?_)
        fun a st ph j b _ hres _ _ hb => ?_
      · obtain ⟨calls, hcalls⟩ := hcalls
        exact ⟨_, hres.originalObjectKey.symm ▸ hres.called hcalls⟩
      · exact hres.originalObjectKey.symm ▸ hb
    obtain ⟨a, st, ph, ha, hres, rfl⟩ := Pool.resume_eq_some hstep
    refine ⟨hcalled, fun key hkey => ?_⟩
    -- an object is new only after an upload the activity had to make
    rcases hres.objects_cases with heq | ⟨f, t, k, todo, hph, heq⟩
    · exact h.objects key (heq ▸ hkey)
    · have hkey : key ∈ k :: p.store.objects := heq ▸ hkey
      rcases List.mem_cons.mp hkey with rfl | hkey
      · obtain ⟨calls, hcalls⟩ := h.called i a ha
        rw [hph] at hcalls
        exact ⟨t, key_of_mem_io hcalls.mem_io⟩
      · exact h.objects key hkey

/-- A new video has made no call. -/
theorem Pool.calling_created (videoId : UUID) (filename key : Str) :
    (Pool.created videoId filename key).Calling where
  called := Pool.each_of_nil rfl
  objects := fun key hkey => by cases hkey

/-! ## The whole platform -/

variable {settings : Settings} {dep : Deployment} {ls : List DeploymentLabel} {id : UUID}
  {site : Site}

/-- In every run the pool of a video makes the calls of its activities. -/
theorem Deployment.calling (hrun : exec (Deployment.step settings) .empty ls = some dep)
    (hsite : dep.sites id = some site) : site.pool.Calling ∧ site.pool.videoId = id := by
  obtain ⟨request, s, hreach, hpool⟩ := Deployment.reaches_site hrun hsite
  rw [← hpool]
  constructor
  · exact State.pool_of_reaches (Pool.calling_created ..) (fun _ _ _ => Pool.Calling.step)
      (fun p _ h => ⟨h.called, h.objects⟩) hreach
  · exact (State.pool_of_reaches (I := Pool.Named id request.filename _) ⟨rfl, rfl, rfl⟩
      (fun _ _ _ => Pool.Named.step) (fun _ _ h => h) hreach).1

/-- **Which requests S3 serves.** In every state of the platform the roles of the stack, the
worker's being the one meant for the activities, allow every request to S3 but the downloads of
generated assets: the URLs `get_asset_downloads` hands out carry the rights of the API task, and
those do not include reading. -/
theorem requests_allowed_iff (hrun : exec (Deployment.step settings) .empty ls = some dep)
    {task : ServiceTask} {request : S3Request} (hrequest : dep.Requests task request) :
    task.allows request = true ↔ ¬ (task = .api ∧ request.action = .getObject) := by
  cases hrequest with
  | upload hsite =>
    refine iff_of_true (allows_api.mpr ⟨rfl, ?_⟩) ?_
    · rw [(Deployment.storable hrun hsite).originalObjectKey]
      exact prefix_buildUploadObjectKey ..
    · rintro ⟨-, hget⟩
      cases hget
  | download hsite ha =>
    refine iff_of_false (fun hallows => ?_) fun h => h ⟨rfl, rfl⟩
    cases (allows_api.mp hallows).1
  | @work _ site i a f io todo _ hsite hattempt hphase hio =>
    have hworker : ¬ (ServiceTask.worker = .api ∧ request.action = .getObject) := by
      rintro ⟨heq, -⟩
      cases heq
    refine iff_of_true (allows_worker.mpr ?_) hworker
    -- the key is that of the activity's own list of calls
    obtain ⟨hcalling, rfl⟩ := Deployment.calling hrun hsite
    obtain ⟨calls, hcalls⟩ := hcalling.called i a hattempt
    rw [hphase] at hcalls
    have hmem := hcalls.mem_io
    cases io with
    | downloadOriginal key =>
      obtain rfl := Option.some.inj hio
      refine .inl ⟨rfl, ?_⟩
      rw [download_of_mem_io hmem, (Deployment.storable hrun hsite).originalObjectKey]
      exact prefix_buildUploadObjectKey ..
    | uploadFile t key =>
      obtain rfl := Option.some.inj hio
      refine .inr ⟨rfl, ?_⟩
      rw [key_of_mem_io hmem]
      exact prefix_assetKey ..
    | extractMetadata | generateThumbnail | transcode => cases hio

/-- One of two videos gets its thumbnail. -/
def Deployment.thumbnail : List DeploymentLabel :=
  Deployment.twoVideos ++
    (List.range 11).map fun n => .onSite ⟨7⟩ (.resume 0 (.ok n))

/-- The download of the thumbnail is refused. -/
theorem requests_allowed_iff_clip : ∃ dep site key,
    exec (Deployment.step videosBucket) .empty Deployment.thumbnail = some dep ∧
    dep.sites ⟨7⟩ = some site ∧ site.pool.rows.assets .thumbnail = some key ∧
    (ServiceTask.api.allows ⟨.getObject, key⟩ = true ↔
      ¬ (ServiceTask.api = .api ∧ S3Action.getObject = .getObject)) := by
  have hruns : (exec (Deployment.step videosBucket) .empty Deployment.thumbnail).any fun dep =>
      (dep.sites ⟨7⟩).any fun site => (site.pool.rows.assets .thumbnail).isSome := by
    decide +kernel
  obtain ⟨dep, hrun, hsome⟩ := (Option.any_eq_true _ _).mp hruns
  obtain ⟨site, hsite, hsome⟩ := (Option.any_eq_true _ _).mp hsome
  obtain ⟨key, hkey⟩ := Option.isSome_iff_exists.mp hsome
  exact ⟨dep, site, key, hrun, hsite, hkey, requests_allowed_iff hrun (.download hsite hkey)⟩

/-- The object was put into S3 by an attempt on the video. -/
def Deployment.Generated (dep : Deployment) (id : UUID) (key : Str) : Prop :=
  ∃ site, dep.sites id = some site ∧ key ∈ site.pool.store.objects

/-- A generated object has the key of an asset type. -/
theorem Deployment.Generated.eq_assetKey {key : Str}
    (hrun : exec (Deployment.step settings) .empty ls = some dep) (h : dep.Generated id key) :
    ∃ a, key = assetKey id a := by
  obtain ⟨site, hsite, hkey⟩ := h
  obtain ⟨hcalling, rfl⟩ := Deployment.calling hrun hsite
  exact hcalling.objects key hkey

/-- Only a key under `uploads/` names a video. -/
theorem prefix_of_parseVideoIdFromKey {key : Str} (h : parseVideoIdFromKey key = some id) :
    str "uploads/" <+: key := by
  obtain ⟨upload, rest, rfl, ⟨videoId, extension, backslash, rfl, -⟩, -⟩ :=
    parseVideoIdFromKey_eq_some_iff.mp h
  rw [List.append_assoc]
  exact List.prefix_append ..

/-- Events that name no video are passed over. -/
theorem Shim.Handling.next_of_unnamed {events : List ObjectCreatedEvent} (place : ℕ)
    (h : ∀ event ∈ events, parseVideoIdFromKey event.key = none) :
    Shim.Handling.next place events = .deleting := by
  induction events generalizing place with
  | nil => rfl
  | cons event events ih =>
    rw [Shim.Handling.next, h event (List.mem_cons_self ..)]
    exact ih (place + 1) fun e he => h e (List.mem_cons_of_mem _ he)

/-- **The platform does not feed itself.** Whatever attempts have put into S3 is theirs alone: no
object is put for two videos, none replaces an original, none makes the bucket notify the queue; and
a message about nothing else is deleted without a look at the database. -/
theorem generated_apart (hrun : exec (Deployment.step settings) .empty ls = some dep) {key : Str}
    (hkey : dep.Generated id key) :
    (∀ id', dep.Generated id' key → id' = id) ∧
    (∀ id' site, dep.sites id' = some site → site.pool.rows.video.originalObjectKey ≠ key) ∧
    notifies key = false ∧
    ∀ body events, parseObjectCreatedEvents body = some events →
      (∀ event ∈ events, ∃ id', dep.Generated id' event.key) →
      Shim.Handling.begin body = .deleting := by
  have hassets {id' : UUID} {key' : Str} (h : dep.Generated id' key') :
      ¬ str "uploads/" <+: key' := by
    obtain ⟨a, rfl⟩ := h.eq_assetKey hrun
    exact not_uploads_of_assets (prefix_assetKey id' a)
  obtain ⟨a, hown⟩ := hkey.eq_assetKey hrun
  refine ⟨fun id' hkey' => ?_, fun id' site hsite heq => hassets hkey ?_, ?_, ?_⟩
  · obtain ⟨a', hown'⟩ := hkey'.eq_assetKey hrun
    exact (assetKey_inj (hown'.symm.trans hown)).1
  · rw [← heq, (Deployment.storable hrun hsite).originalObjectKey]
    exact prefix_buildUploadObjectKey ..
  · exact Bool.eq_false_iff.mpr fun h => hassets hkey (List.isPrefixOf_iff_prefix.mp h)
  · intro body events hparse hevents
    rw [Shim.Handling.begin, hparse]
    refine Shim.Handling.next_of_unnamed 0 fun event hevent => ?_
    obtain ⟨id', hgenerated⟩ := hevents event hevent
    cases hname : parseVideoIdFromKey event.key with
    | none => rfl
    | some named => exact absurd (prefix_of_parseVideoIdFromKey hname) (hassets hgenerated)

/-- The thumbnail of one of two videos. -/
theorem generated_apart_clip : ∃ dep key,
    exec (Deployment.step videosBucket) .empty Deployment.thumbnail = some dep ∧
    dep.Generated ⟨7⟩ key ∧
    (∀ id', dep.Generated id' key → id' = ⟨7⟩) ∧
    (∀ id' site, dep.sites id' = some site → site.pool.rows.video.originalObjectKey ≠ key) ∧
    notifies key = false ∧
    ∀ body events, parseObjectCreatedEvents body = some events →
      (∀ event ∈ events, ∃ id', dep.Generated id' event.key) →
      Shim.Handling.begin body = .deleting := by
  have hruns : (exec (Deployment.step videosBucket) .empty Deployment.thumbnail).any fun dep =>
      (dep.sites ⟨7⟩).any fun site => site.pool.store.objects = [thumbnailKey ⟨7⟩] := by
    decide +kernel
  obtain ⟨dep, hrun, hsome⟩ := (Option.any_eq_true _ _).mp hruns
  obtain ⟨site, hsite, hobjects⟩ := (Option.any_eq_true _ _).mp hsome
  have hgenerated : dep.Generated ⟨7⟩ (thumbnailKey ⟨7⟩) := by
    refine ⟨site, hsite, ?_⟩
    rw [of_decide_eq_true hobjects]
    exact List.mem_singleton_self _
  exact ⟨dep, _, hrun, hgenerated, generated_apart hrun hgenerated⟩

end VideoProcessing
