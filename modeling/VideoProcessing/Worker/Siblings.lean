import VideoProcessing.Library.Independence
import VideoProcessing.Worker.Footprints
import VideoProcessing.Worker.Alone

/-!
# Two siblings

One attempt of `extract_metadata_activity` and one of `generate_thumbnail_activity` on a video,
their awaits interleaved in any way. Each stays inside its own footprint, so their job rows, the
assets, the metadata columns and their results are those of the runs in which one begins after the
other is over.

The interleaving is taken apart by the independence of steps that stay inside disjoint footprints,
once for either order of the two runs.
-/

namespace VideoProcessing

open Python UnitOfWork Transitions

/-- One attempt of each of the two activities, at these awaits. -/
def Pool.siblings (videoId : UUID) (st : Store) (metadata thumbnail : Phase) : Pool where
  videoId := videoId
  store := st
  attempts := [⟨.extractMetadata, metadata⟩, ⟨.generateThumbnail, thumbnail⟩]

/-- The attempt has done nothing but, perhaps, load the video into its session, at whatever
moment. -/
def Phase.Opening (ph : Phase) : Prop := ph = .loadVideo ∨ ∃ row, ph = .selectJob (.fresh row)

/-- The same job rows, assets and metadata columns, and the attempts ended the same way. -/
structure Pool.Agrees (p q : Pool) : Prop where
  jobs : q.rows.jobs = p.rows.jobs
  assets : q.rows.assets = p.rows.assets
  metadata : q.rows.video.metadata = p.rows.video.metadata
  attempts : q.attempts = p.attempts

/-! ## The view of an attempt -/

/-- What attempt `i` has in its footprint. -/
def Pool.view (i : ℕ) (p : Pool) : Option (Store × Attempt) :=
  p.attempts[i]?.map fun a =>
    (p.store.footprint a.activity, { a with phase := a.phase.footprint a.activity })

/-- The attempt is between a flush and the commit. -/
def Phase.holds : Phase → Bool
  | .countCompleted _ | .commitCompletion _ => true
  | _ => false

/-- The attempt holds no lock. -/
def Quiet (view : Option (Store × Attempt)) : Prop := ∀ x ∈ view, x.2.phase.holds = false

/-- An attempt that holds no locks. -/
theorem Phase.held_eq_nil {ph : Phase} (h : ph.holds = false) (t : JobType) : ph.held t = [] := by
  cases ph <;> first | rfl | cases h

@[simp] theorem Phase.holds_footprint (act : Activity) (ph : Phase) :
    (ph.footprint act).holds = ph.holds := by
  cases ph <;> rfl

variable {videoId : UUID} {job : Option ProcessingJob} {p p' q : Pool} {i j : ℕ} {ans : Answer}
  {a b : Attempt}

/-- A quiet sibling holds no locks. -/
theorem Pool.quiet_view (ha : p.attempts[i]? = some a) :
    Quiet (p.view i) ↔ a.phase.holds = false := by
  simp [Quiet, Pool.view, ha]

/-- Nothing waits for attempts that hold no lock. -/
theorem Pool.not_blocked (h : ∀ j ≠ i, Quiet (p.view j)) (wanted : List RowLock) :
    p.blocked i wanted = false := by
  refine List.any_eq_false.mpr fun b hb => ?_
  obtain ⟨j, hj, hget⟩ := List.mem_eraseIdx_iff_getElem?.mp hb
  rw [Phase.held_eq_nil ((Pool.quiet_view hget).mp (h j hj))]
  exact Bool.false_ne_true

/-! ## The pair -/

/-- The session has its shape, and what it has flushed is inside the footprint. -/
structure Attempt.Inside (videoId : UUID) (a : Attempt) : Prop where
  shaped : a.phase.Shaped videoId a.activity
  confined : a.phase.Confined a.activity

/-- Two siblings, each inside its footprint. The row of the transcode job is nobody's. -/
structure Pool.Siblings (videoId : UUID) (job : Option ProcessingJob) (p : Pool) : Prop where
  id : p.videoId = videoId
  activities : p.attempts.map Attempt.activity = [.extractMetadata, .generateThumbnail]
  inside : p.Each fun _ => Attempt.Inside videoId
  transcode : p.rows.jobs .transcode = job

/-- There are two of them. -/
theorem Pool.Siblings.activity_cases (h : p.Siblings videoId job) (ha : p.attempts[i]? = some a) :
    i = 0 ∧ a.activity = .extractMetadata ∨ i = 1 ∧ a.activity = .generateThumbnail := by
  have hget : [Activity.extractMetadata, Activity.generateThumbnail][i]? = some a.activity := by
    rw [← h.activities, List.getElem?_map, ha, Option.map_some]
  match i, hget with
  | 0, hget => exact .inl ⟨rfl, (Option.some.inj hget).symm⟩
  | 1, hget => exact .inr ⟨rfl, (Option.some.inj hget).symm⟩

/-- And no third one. -/
theorem Pool.Siblings.view_eq_none (h : p.Siblings videoId job) (hi : 2 ≤ i) :
    p.view i = none := by
  cases ha : p.attempts[i]? with
  | none => rw [Pool.view, ha, Option.map_none]
  | some a => rcases h.activity_cases ha with ⟨rfl, -⟩ | ⟨rfl, -⟩ <;> omega

/-- They are apart. -/
theorem Pool.Siblings.apart (h : p.Siblings videoId job) (ha : p.attempts[i]? = some a)
    (hb : p.attempts[j]? = some b) (hne : j ≠ i) : a.activity.Apart b.activity := by
  rcases h.activity_cases ha with ⟨rfl, hact⟩ | ⟨rfl, hact⟩ <;>
    rcases h.activity_cases hb with ⟨rfl, hact'⟩ | ⟨rfl, hact'⟩
  · exact absurd rfl hne
  · rw [hact, hact']
    simp [Activity.Apart]
  · rw [hact, hact']
    simp [Activity.Apart]
  · exact absurd rfl hne

/-- An await of one of them. -/
theorem Pool.Siblings.resume (h : p.Siblings videoId job) (hresume : p.resume i ans = some p') :
    p'.Siblings videoId job := by
  have hinside : p'.Each fun _ => Attempt.Inside videoId := by
    refine Pool.Each.resume h.inside hresume (fun a st ph _ ha hres => ?_)
      fun _ _ _ _ _ _ _ _ _ hb => hb
    rw [h.id] at hres
    exact ⟨hres.shaped ha.shaped, hres.confined ha.shaped ha.confined⟩
  obtain ⟨a, st, ph, ha, hres, rfl⟩ := Pool.resume_eq_some hresume
  refine ⟨h.id, ?_, hinside, ?_⟩
  · have hsame : ({ a with phase := ph } : Attempt).activity = a.activity := rfl
    exact (map_set_of_eq ha hsame).trans h.activities
  · have hact : JobType.transcode ≠ a.activity.jobType := by
      rcases h.activity_cases ha with ⟨-, hact⟩ | ⟨-, hact⟩ <;> rw [hact] <;> decide
    exact (hres.jobs_of_ne hact).trans h.transcode

/-- The pair as components that see their footprints. -/
theorem Pool.independent (videoId : UUID) (job : Option ProcessingJob) :
    Independent Pool.proceed Prod.fst Pool.view Quiet (Pool.Siblings videoId job) where
  invariant := fun _ _ _ h hstep => h.resume hstep
  frame := by
    rintro p ⟨i, ans⟩ p' j h hstep hne
    obtain ⟨a, st, ph, ha, hres, rfl⟩ := Pool.resume_eq_some hstep
    rw [h.id] at hres
    obtain ⟨hshaped, hconfined⟩ := h.inside i a ha
    have hget : (p.attempts.set i { a with phase := ph })[j]? = p.attempts[j]? :=
      List.getElem?_set_ne (Ne.symm hne)
    rw [Pool.view, Pool.view, hget]
    cases hb : p.attempts[j]? with
    | none => rfl
    | some b =>
      rw [Option.map_some, Option.map_some,
        hres.footprint hshaped hconfined (h.apart ha hb hne)]
  follows := by
    rintro p ⟨i, ans⟩ p' q h hq hstep hview hquiet
    obtain ⟨a, st, ph, ha, hres, rfl⟩ := Pool.resume_step hstep
    have hview : q.view i = p.view i := hview
    rw [Pool.view, Pool.view, ha, Option.map_some] at hview
    obtain ⟨b, hb, heq⟩ := Option.map_eq_some_iff.mp hview
    obtain ⟨hstore, hattempt⟩ := Prod.mk.inj heq
    obtain ⟨hact, hphase⟩ := Attempt.mk.inj hattempt
    rw [hact] at hstore hphase
    -- the await depends on the footprint of the activity only, and that is the same in both
    have hsame : (b.phase.step q.videoId b.activity q.store ans).map (restricted a.activity) =
        some (restricted a.activity (st, ph)) := by
      have hb' := (hq.inside i b hb).shaped
      rw [hact] at hb' ⊢
      rw [hq.id, ← Phase.step_footprint hb', hstore, hphase,
        Phase.step_footprint (h.inside i a ha).shaped, ← h.id, hres, Option.map_some]
    obtain ⟨⟨st', ph'⟩, hres', heq'⟩ := Option.map_eq_some_iff.mp hsame
    obtain ⟨hst', hph'⟩ := Prod.mk.inj heq'
    refine ⟨_, Pool.resume_of_step hb (Pool.not_blocked hquiet _) hres', ?_⟩
    simp only [Pool.view, getElem?_set_self_of ha, getElem?_set_self_of hb, Option.map_some, hact,
      hst', hph']

/-! ## Runs of the pair -/

/-- An attempt that is over keeps nothing outside its footprint. -/
theorem Phase.eq_of_footprint {act : Activity} {ph ph' : Phase} (hlive : ph.live = false)
    (h : ph'.footprint act = ph.footprint act) : ph' = ph := by
  cases ph <;> first | (cases ph' <;> first | exact h | cases h) | cases hlive

/-- Attempts that are over look as they are. -/
theorem Pool.eq_of_view (hover : ∀ a ∈ p.attempts, a.phase.live = false)
    (h : q.view i = p.view i) : q.attempts[i]? = p.attempts[i]? := by
  rw [Pool.view, Pool.view] at h
  cases ha : p.attempts[i]? with
  | none =>
    rw [ha, Option.map_none, Option.map_eq_none_iff] at h
    exact h
  | some a =>
    rw [ha, Option.map_some] at h
    obtain ⟨b, hb, heq⟩ := Option.map_eq_some_iff.mp h
    obtain ⟨hact, hphase⟩ := Attempt.mk.inj (Prod.mk.inj heq).2
    rw [hact] at hphase
    have hphase : b.phase = a.phase :=
      Phase.eq_of_footprint (hover a (List.mem_of_getElem? ha)) hphase
    rw [hb, Option.some.injEq]
    exact congrArg₂ Attempt.mk hact hphase

/-- The footprint of a sibling is what it looks like. -/
theorem Pool.footprint_eq_of_view {act : Activity} (hact : p.attempts[i]?.map Attempt.activity =
    some act) (h : q.view i = p.view i) : q.store.footprint act = p.store.footprint act := by
  obtain ⟨a, ha, rfl⟩ := Option.map_eq_some_iff.mp hact
  rw [Pool.view, Pool.view, ha, Option.map_some] at h
  obtain ⟨b, -, heq⟩ := Option.map_eq_some_iff.mp h
  obtain ⟨hstore, hattempt⟩ := Prod.mk.inj heq
  rwa [(Attempt.mk.inj hattempt).1] at hstore

/-- What `extract_metadata_activity` sees, it sees alike. -/
theorem Pool.Siblings.metadata_eq (hp : p.Siblings videoId job) (h : q.view 0 = p.view 0) :
    q.rows.video.metadata = p.rows.video.metadata ∧
      q.rows.jobs .metadata = p.rows.jobs .metadata := by
  have hact : p.attempts[0]?.map Attempt.activity = some .extractMetadata := by
    rw [← List.getElem?_map, hp.activities]
    rfl
  have hrows := congrArg Store.rows (Pool.footprint_eq_of_view hact h)
  refine ⟨congrArg (fun rows => rows.video.metadata) hrows, ?_⟩
  exact congrFun (congrArg VideoRows.jobs hrows) .metadata

/-- The assets and the thumbnail's job are the thumbnail's. -/
theorem Pool.Siblings.thumbnail_eq (hp : p.Siblings videoId job) (h : q.view 1 = p.view 1) :
    q.rows.assets = p.rows.assets ∧ q.rows.jobs .thumbnail = p.rows.jobs .thumbnail := by
  have hact : p.attempts[1]?.map Attempt.activity = some .generateThumbnail := by
    rw [← List.getElem?_map, hp.activities]
    rfl
  have hrows := congrArg Store.rows (Pool.footprint_eq_of_view hact h)
  have hassets : (q.store.footprint .generateThumbnail).rows.assets =
      (p.store.footprint .generateThumbnail).rows.assets := congrArg VideoRows.assets hrows
  refine ⟨hassets, ?_⟩
  exact congrFun (congrArg VideoRows.jobs hrows) .thumbnail

/-- Pools that look alike to both agree. -/
theorem Pool.Siblings.agrees (hp : p.Siblings videoId job) (hq : q.Siblings videoId job)
    (hover : ∀ a ∈ p.attempts, a.phase.live = false) (h : ∀ i, q.view i = p.view i) :
    p.Agrees q := by
  obtain ⟨hcolumns, hmetadata⟩ := hp.metadata_eq (h 0)
  obtain ⟨hassets, hthumbnail⟩ := hp.thumbnail_eq (h 1)
  refine ⟨funext fun t => ?_, hassets, hcolumns, List.ext_getElem? fun i => ?_⟩
  · cases t with
    | metadata => exact hmetadata
    | thumbnail => exact hthumbnail
    | transcode => exact hq.transcode.trans hp.transcode.symm
  · exact Pool.eq_of_view hover (h i)

/-- An attempt at its beginning. -/
theorem Phase.Opening.inside {ph : Phase} (h : ph.Opening) (act : Activity) :
    Attempt.Inside videoId ⟨act, ph⟩ := by
  rcases h with rfl | ⟨row, rfl⟩
  · exact ⟨trivial, trivial⟩
  · exact ⟨rfl, trivial⟩

/-- Two attempts at their beginnings. -/
theorem Pool.siblings_of_opening {st : Store} {metadata thumbnail : Phase}
    (hmetadata : metadata.Opening) (hthumbnail : thumbnail.Opening) :
    (Pool.siblings videoId st metadata thumbnail).Siblings videoId (st.rows.jobs .transcode) where
  id := rfl
  activities := rfl
  inside := fun i a ha => by
    match i, ha with
    | 0, ha =>
      obtain rfl := Option.some.inj ha
      exact hmetadata.inside _
    | 1, ha =>
      obtain rfl := Option.some.inj ha
      exact hthumbnail.inside _
  transcode := rfl

/-- They hold no locks. -/
theorem Phase.Opening.holds {ph : Phase} (h : ph.Opening) : ph.holds = false := by
  rcases h with rfl | ⟨row, rfl⟩ <;> rfl

/-- Nor does one that is over. -/
theorem Phase.holds_of_not_live {ph : Phase} (h : ph.live = false) : ph.holds = false := by
  cases ph <;> first | rfl | cases h

/-- A pool without locks is quiet. -/
theorem Pool.quiet_of_holds (h : ∀ a ∈ p.attempts, a.phase.holds = false) (i : ℕ) :
    Quiet (p.view i) := by
  intro x hx
  obtain ⟨a, ha, rfl⟩ := Option.map_eq_some_iff.mp hx
  rw [Phase.holds_footprint]
  exact h a (List.mem_of_getElem? ha)

/-- **Siblings do not interfere.** From any committed rows, with sessions that have loaded the video
at any moment, and however the two attempts end: an interleaved run in which both get to their end
leaves the job rows, the assets, the metadata columns and the results that they leave one after the
other, in either order. What each of them wrote is what it writes with the other never running. -/
theorem siblings_serial (videoId : UUID) (st : Store) (metadata thumbnail : Phase)
    (hmetadata : metadata.Opening) (hthumbnail : thumbnail.Opening) (ls : List (ℕ × Answer))
    (p : Pool) (hrun : exec Pool.proceed (.siblings videoId st metadata thumbnail) ls = some p)
    (hover : ∀ a ∈ p.attempts, a.phase.live = false) :
    (∃ q, exec Pool.proceed (.siblings videoId st metadata thumbnail)
        (stepsOf Prod.fst 0 ls ++ stepsOf Prod.fst 1 ls) = some q ∧ p.Agrees q) ∧
    (∃ q, exec Pool.proceed (.siblings videoId st metadata thumbnail)
        (stepsOf Prod.fst 1 ls ++ stepsOf Prod.fst 0 ls) = some q ∧ p.Agrees q) ∧
    (∃ q, exec Pool.proceed (.siblings videoId st metadata thumbnail)
        (stepsOf Prod.fst 0 ls) = some q ∧ q.rows.video.metadata = p.rows.video.metadata ∧
        q.rows.jobs .metadata = p.rows.jobs .metadata) ∧
    ∃ q, exec Pool.proceed (.siblings videoId st metadata thumbnail)
        (stepsOf Prod.fst 1 ls) = some q ∧ q.rows.assets = p.rows.assets ∧
        q.rows.jobs .thumbnail = p.rows.jobs .thumbnail := by
  have hs : (Pool.siblings videoId st metadata thumbnail).Siblings videoId
      (st.rows.jobs .transcode) := Pool.siblings_of_opening hmetadata hthumbnail
  have hind := Pool.independent videoId (st.rows.jobs .transcode)
  have hp := exec_invariant hind.invariant hs hrun
  have hbefore : ∀ i, Quiet ((Pool.siblings videoId st metadata thumbnail).view i) := by
    refine Pool.quiet_of_holds fun a ha => ?_
    rcases List.mem_pair.mp ha with rfl | rfl
    · exact hmetadata.holds
    · exact hthumbnail.holds
  have hafter : ∀ i, Quiet (p.view i) :=
    Pool.quiet_of_holds fun a ha => Phase.holds_of_not_live (hover a ha)
  have hserial := hind.exec_serial hs hrun hbefore hafter
  -- in any order of the two: what neither of them sees is the same from the beginning
  have hboth (turns : List ℕ) (hnodup : turns.Nodup) (hturns : ∀ i, i < 2 → i ∈ turns) :
      ∃ q, exec Pool.proceed (.siblings videoId st metadata thumbnail)
        (turns.flatMap fun i => stepsOf Prod.fst i ls) = some q ∧ p.Agrees q := by
    obtain ⟨q, hrun', hq, hview⟩ := hserial turns hnodup
    refine ⟨q, hrun', hp.agrees hq hover fun i => ?_⟩
    rw [hview]
    split
    · rfl
    · rename_i hi
      have hi : 2 ≤ i := not_lt.mp fun hlt => hi (hturns i hlt)
      rw [hs.view_eq_none hi, hp.view_eq_none hi]
  have hone (i : ℕ) : ∃ q, exec Pool.proceed (.siblings videoId st metadata thumbnail)
      (stepsOf Prod.fst i ls) = some q ∧ q.view i = p.view i := by
    obtain ⟨q, hrun', -, hview⟩ := hserial [i] (List.nodup_singleton i)
    rw [List.flatMap_singleton] at hrun'
    exact ⟨q, hrun', by rw [hview, if_pos (List.mem_singleton_self i)]⟩
  refine ⟨?_, ?_, ?_, ?_⟩
  · have hturns := hboth [0, 1] (by decide) (by decide)
    rwa [List.flatMap_cons, List.flatMap_singleton] at hturns
  · have hturns := hboth [1, 0] (by decide) (by decide)
    rwa [List.flatMap_cons, List.flatMap_singleton] at hturns
  · obtain ⟨q, hrun', hview⟩ := hone 0
    exact ⟨q, hrun', hp.metadata_eq hview⟩
  · obtain ⟨q, hrun', hview⟩ := hone 1
    exact ⟨q, hrun', hp.thumbnail_eq hview⟩

/-- The two attempts on a new video take turns; the thumbnail's session has loaded it before. -/
def Pool.siblingSteps : List (ℕ × Answer) :=
  [(0, .ok 1), (0, .ok 1), (1, .ok 2), (1, .ok 2), (0, .ok 3), (0, .ok 3), (1, .ok 4), (1, .ok 4),
    (0, .ok 5), (0, .probed ⟨1000, 1280, 720⟩ 5), (1, .ok 6), (1, .ok 6), (1, .ok 6), (1, .ok 6),
    (0, .ok 7), (0, .ok 7), (1, .ok 8), (0, .ok 9), (1, .ok 9)]

/-- Both attempts on a new video. -/
def Pool.clipSiblings : Pool :=
  .siblings Pool.clip.videoId Pool.clip.store .loadVideo (.selectJob (.fresh Pool.clip.rows.video))

/-- Two siblings, step by step in turn and one after the other. -/
theorem siblings_serial_clip :
    ∃ p, exec Pool.proceed Pool.clipSiblings Pool.siblingSteps = some p ∧
      (∀ a ∈ p.attempts, a.phase.live = false) ∧
      (∃ q, exec Pool.proceed Pool.clipSiblings (stepsOf Prod.fst 0 Pool.siblingSteps ++
        stepsOf Prod.fst 1 Pool.siblingSteps) = some q ∧ p.Agrees q) ∧
      (∃ q, exec Pool.proceed Pool.clipSiblings (stepsOf Prod.fst 1 Pool.siblingSteps ++
        stepsOf Prod.fst 0 Pool.siblingSteps) = some q ∧ p.Agrees q) ∧
      (∃ q, exec Pool.proceed Pool.clipSiblings (stepsOf Prod.fst 0 Pool.siblingSteps) = some q ∧
        q.rows.video.metadata = p.rows.video.metadata ∧
        q.rows.jobs .metadata = p.rows.jobs .metadata) ∧
      ∃ q, exec Pool.proceed Pool.clipSiblings (stepsOf Prod.fst 1 Pool.siblingSteps) = some q ∧
        q.rows.assets = p.rows.assets ∧ q.rows.jobs .thumbnail = p.rows.jobs .thumbnail := by
  have hrun : (exec Pool.proceed Pool.clipSiblings Pool.siblingSteps).any fun p =>
      decide (∀ a ∈ p.attempts, a.phase.live = false) := by decide +kernel
  obtain ⟨p, hp, hover⟩ := (Option.any_eq_true _ _).mp hrun
  have hover := of_decide_eq_true hover
  exact ⟨p, hp, hover, siblings_serial _ _ _ _ (.inl rfl) (.inr ⟨_, rfl⟩) _ p hp hover⟩

end VideoProcessing
