import VideoProcessing.Worker.Pool

/-!
# What one await can do

`Resumes` lists the ways an attempt gets from one await to the next, and `Phase.step_resumes` that
these are all of them. Every invariant of the attempts is a case analysis on it.
-/

namespace VideoProcessing

open Python UnitOfWork

/-- The awaits of `_load_video` and `claim_job`, which no handler guards. -/
def Phase.unguarded : Phase → Bool
  | .loadVideo | .selectJob _ | .insertJob _ | .commitClaim _ => true
  | _ => false

/-- The awaits of a completion, with the frame they would leave to the handler. -/
def Phase.completion? : Phase → Option Frame
  | .selectAsset f _ | .flush f | .countCompleted f | .commitCompletion f => some f
  | _ => none

/-- An attempt at an await, how the await ends, and the attempt at its next one. -/
inductive Resumes (videoId : UUID) (act : Activity) :
    Store → Phase → Answer → Store → Phase → Prop
  | load {st now} : Resumes videoId act st .loadVideo (.ok now) st
      (.selectJob (.fresh st.rows.video))
  | selectNone {st now video} (hjob : st.rows.jobs act.jobType = none) :
      Resumes videoId act st (.selectJob video) (.ok now) st (.insertJob video)
  | selectCompleted {st now video job} (hjob : st.rows.jobs act.jobType = some job)
      (hstatus : job.status = .completed) :
      Resumes videoId act st (.selectJob video) (.ok now) st (alreadyCompleted videoId act video)
  | selectJob {st now video job} (hjob : st.rows.jobs act.jobType = some job)
      (hstatus : job.status ≠ .completed) :
      Resumes videoId act st (.selectJob video) (.ok now) st
        (.commitClaim (claimJob now video (.fresh job)))
  | insert {st now video} (hjob : st.rows.jobs act.jobType = none) :
      Resumes videoId act st (.insertJob video) (.ok now)
        { st with rows := { st.rows with
            jobs := Function.update st.rows.jobs act.jobType (some ProcessingJob.new) } }
        (.commitClaim (claimJob now video (.fresh ProcessingJob.new)))
  | insertLost {st now video job} (hjob : st.rows.jobs act.jobType = some job) :
      Resumes videoId act st (.insertJob video) (.ok now) st (.raised .missingGreenlet)
  | giveUp {st ph} (hph : ph.unguarded = true) :
      Resumes videoId act st ph .error st (.raised .database)
  | commitClaim {st now f} (haccepted : f.accepted st.rows = true) :
      Resumes videoId act st (.commitClaim f) (.ok now)
        { st with rows := f.commit act.jobType st.rows } (claimed videoId act f.committed)
  | call {st now f io todo ph} (hprobe : io ≠ .extractMetadata)
      (hupload : ∀ a key, io ≠ .uploadFile a key)
      (hph : working videoId act f now todo = some ph) :
      Resumes videoId act st (.work f (io :: todo)) (.ok now) st ph
  | probe {st m now f todo ph}
      (hph : working videoId act { f with metadata := some m } now todo = some ph) :
      Resumes videoId act st (.work f (.extractMetadata :: todo)) (.probed m now) st ph
  | upload {st now f a key todo ph}
      (hph : working videoId act { f with uploads := f.uploads ++ [(a, key)] } now todo = some ph) :
      Resumes videoId act st (.work f (.uploadFile a key :: todo)) (.ok now)
        { st with objects := key :: st.objects } ph
  | workFails {st f io todo} :
      Resumes videoId act st (.work f (io :: todo)) .error st (handle f .idle .io)
  | selectAsset {st now f a key todo} :
      Resumes videoId act st (.selectAsset f ((a, key) :: todo)) (.ok now) st
        (completing (f.upsertAsset (st.rows.assets a) a key) todo)
  | flush {st now f} (haccepted : f.accepted st.rows = true) :
      Resumes videoId act st (.flush f) (.ok now) st (.countCompleted f.flush)
  | countCompleted {st now f} :
      Resumes videoId act st (.countCompleted f) (.ok now) st (.commitCompletion
        (f.completeVideo (allJobsCompleted (f.flushed.apply act.jobType st.rows))))
  | commitCompletion {st now f} (haccepted : f.accepted st.rows = true) :
      Resumes videoId act st (.commitCompletion f) (.ok now)
        { st with rows := f.commit act.jobType st.rows } (.returned f.metadata)
  | completionFails {st ph f} (hph : ph.completion? = some f) :
      Resumes videoId act st ph .error st (handle f .broken .database)
  | noConnection {st f todo} (htx : f.tx = .idle) :
      Resumes videoId act st (.selectAsset f todo) .noConnection st (handle f .idle .database)
  | failJobBroken {st now f error} (htx : f.tx = .broken) :
      Resumes videoId act st (.failJob f error) (.ok now) st (.raised .pendingRollback)
  | failJob {st now f error} (htx : f.tx ≠ .broken) (haccepted : f.accepted st.rows = true) :
      Resumes videoId act st (.failJob f error) (.ok now)
        { st with rows := f.commit act.jobType st.rows } (.raised error)
  | failJobFails {st f error} (htx : f.tx ≠ .broken) :
      Resumes videoId act st (.failJob f error) .error st (.raised .database)

variable {videoId : UUID} {act : Activity} {st st' : Store} {ph ph' : Phase} {ans : Answer}

/-- An await that returns. -/
theorem Phase.step_resumes_ok {now : Time}
    (h : ph.step videoId act st (.ok now) = some (st', ph')) :
    Resumes videoId act st ph (.ok now) st' ph' := by
  cases ph with
  | loadVideo =>
    obtain ⟨rfl, rfl⟩ := Prod.mk.inj (Option.some.inj h)
    exact .load
  | selectJob video =>
    rw [Phase.step] at h
    cases hjob : st.rows.jobs act.jobType with
    | none =>
      rw [hjob] at h
      obtain ⟨rfl, rfl⟩ := Prod.mk.inj (Option.some.inj h)
      exact .selectNone hjob
    | some job =>
      simp only [hjob] at h
      split at h <;> obtain ⟨rfl, rfl⟩ := Prod.mk.inj (Option.some.inj h)
      · exact .selectCompleted hjob ‹_›
      · exact .selectJob hjob ‹_›
  | insertJob video =>
    rw [Phase.step] at h
    cases hjob : st.rows.jobs act.jobType with
    | none =>
      rw [hjob] at h
      obtain ⟨rfl, rfl⟩ := Prod.mk.inj (Option.some.inj h)
      exact .insert hjob
    | some job =>
      rw [hjob] at h
      obtain ⟨rfl, rfl⟩ := Prod.mk.inj (Option.some.inj h)
      exact .insertLost hjob
  | commitClaim f =>
    obtain ⟨haccepted, h⟩ := Option.ite_none_right_eq_some.mp h
    obtain ⟨rfl, rfl⟩ := Prod.mk.inj (Option.some.inj h)
    exact .commitClaim haccepted
  | work f todo =>
    cases todo with
    | nil => cases h
    | cons io todo =>
      cases io with
      -- ffprobe's output is an answer of its own
      | extractMetadata => cases h
      | uploadFile a key =>
        obtain ⟨_, hph, hst⟩ := Option.map_eq_some_iff.mp h
        obtain ⟨rfl, rfl⟩ := Prod.mk.inj hst
        exact .upload hph
      | downloadOriginal | generateThumbnail | transcode =>
        obtain ⟨_, hph, hst⟩ := Option.map_eq_some_iff.mp h
        obtain ⟨rfl, rfl⟩ := Prod.mk.inj hst
        exact .call (by simp) (by simp) hph
  | selectAsset f todo =>
    cases todo with
    | nil => cases h
    | cons x todo =>
      obtain ⟨rfl, rfl⟩ := Prod.mk.inj (Option.some.inj h)
      exact .selectAsset
  | flush f =>
    obtain ⟨haccepted, h⟩ := Option.ite_none_right_eq_some.mp h
    obtain ⟨rfl, rfl⟩ := Prod.mk.inj (Option.some.inj h)
    exact .flush haccepted
  | countCompleted f =>
    obtain ⟨rfl, rfl⟩ := Prod.mk.inj (Option.some.inj h)
    exact .countCompleted
  | commitCompletion f =>
    obtain ⟨haccepted, h⟩ := Option.ite_none_right_eq_some.mp h
    obtain ⟨rfl, rfl⟩ := Prod.mk.inj (Option.some.inj h)
    exact .commitCompletion haccepted
  | failJob f error =>
    rw [Phase.step] at h
    -- a commit in a failed transaction raises
    by_cases htx : f.tx = .broken
    · rw [if_pos htx] at h
      obtain ⟨rfl, rfl⟩ := Prod.mk.inj (Option.some.inj h)
      exact .failJobBroken htx
    · rw [if_neg htx] at h
      obtain ⟨haccepted, h⟩ := Option.ite_none_right_eq_some.mp h
      obtain ⟨rfl, rfl⟩ := Prod.mk.inj (Option.some.inj h)
      exact .failJob htx haccepted
  | returned | raised | vanished => cases h

/-- An await that raises. -/
theorem Phase.step_resumes_error (h : ph.step videoId act st .error = some (st', ph')) :
    Resumes videoId act st ph .error st' ph' := by
  cases ph with
  | loadVideo | selectJob | insertJob | commitClaim =>
    obtain ⟨rfl, rfl⟩ := Prod.mk.inj (Option.some.inj h)
    exact .giveUp rfl
  | work f todo =>
    cases todo with
    | nil => cases h
    | cons io todo =>
      obtain ⟨rfl, rfl⟩ := Prod.mk.inj (Option.some.inj h)
      exact .workFails
  | selectAsset f todo =>
    cases todo <;> obtain ⟨rfl, rfl⟩ := Prod.mk.inj (Option.some.inj h) <;>
      exact .completionFails rfl
  | flush | countCompleted | commitCompletion =>
    obtain ⟨rfl, rfl⟩ := Prod.mk.inj (Option.some.inj h)
    exact .completionFails rfl
  | failJob f error =>
    obtain ⟨htx, h⟩ := Option.ite_none_left_eq_some.mp h
    obtain ⟨rfl, rfl⟩ := Prod.mk.inj (Option.some.inj h)
    exact .failJobFails htx
  | returned | raised | vanished => cases h

/-- The step function does nothing else. -/
theorem Phase.step_resumes (h : ph.step videoId act st ans = some (st', ph')) :
    Resumes videoId act st ph ans st' ph' := by
  cases ans with
  | ok now => exact Phase.step_resumes_ok h
  | error => exact Phase.step_resumes_error h
  | probed m now =>
    cases ph with
    | work f todo =>
      cases todo with
      | nil => cases h
      | cons io todo =>
        cases io with
        | extractMetadata =>
          obtain ⟨_, hph, hst⟩ := Option.map_eq_some_iff.mp h
          obtain ⟨rfl, rfl⟩ := Prod.mk.inj hst
          exact .probe hph
        | downloadOriginal | generateThumbnail | transcode | uploadFile => cases h
    | selectAsset f todo => cases todo <;> cases h
    | _ => cases h
  | noConnection =>
    cases ph with
    | work f todo => cases todo <;> cases h
    | selectAsset f todo =>
      -- only a session without a transaction asks for a connection
      cases todo <;> obtain ⟨htx, h⟩ := Option.ite_none_right_eq_some.mp h <;>
        obtain ⟨rfl, rfl⟩ := Prod.mk.inj (Option.some.inj h) <;> exact .noConnection htx
    | _ => cases h

/-! ## Where an await can lead -/

/-- After the calls the next await is another call, or the first one of the completion. -/
theorem working_cases {f : Frame} {now : Time} {todo : List Io}
    (h : working videoId act f now todo = some ph) :
    (ph = .work f todo ∧ todo ≠ []) ∨ todo = [] ∧ ∃ g assets, ph = completing g assets := by
  cases todo with
  | cons io todo =>
    obtain rfl := Option.some.inj h
    exact .inl ⟨rfl, List.cons_ne_nil io todo⟩
  | nil =>
    refine .inr ⟨rfl, ?_⟩
    cases act with
    | extractMetadata =>
      obtain ⟨m, -, rfl⟩ := Option.map_eq_some_iff.mp h
      exact ⟨_, _, rfl⟩
    | generateThumbnail | transcode =>
      obtain rfl := Option.some.inj h
      exact ⟨_, _, rfl⟩

/-- The phases that the code between two awaits chooses among. -/
def Phase.chosen : Phase → Bool
  | .work _ _ | .selectAsset _ _ | .flush _ | .failJob _ _ | .returned _ | .raised _ => true
  | _ => false

/-- The calls of an activity, and the select and the flush of its completion. -/
def Phase.underway : Phase → Bool
  | .work _ _ | .selectAsset _ _ | .flush _ => true
  | _ => false

/-- A completion is under way. -/
theorem completing_underway (f : Frame) (assets : List (AssetType × Str)) :
    (completing f assets).underway = true := by
  cases assets <;> rfl

/-- So is the work. -/
theorem working_underway {f : Frame} {now : Time} {todo : List Io}
    (h : working videoId act f now todo = some ph) : ph.underway = true := by
  rcases working_cases h with ⟨rfl, -⟩ | ⟨-, g, assets, rfl⟩
  · rfl
  · exact completing_underway g assets

/-- What is under way has been chosen. -/
theorem Phase.chosen_of_underway (h : ph.underway = true) : ph.chosen = true := by
  cases ph <;> first | rfl | exact h

/-- A completion has been. -/
theorem completing_chosen (f : Frame) (assets : List (AssetType × Str)) :
    (completing f assets).chosen = true := Phase.chosen_of_underway (completing_underway f assets)

/-- And the work. -/
theorem working_chosen {f : Frame} {now : Time} {todo : List Io}
    (h : working videoId act f now todo = some ph) : ph.chosen = true :=
  Phase.chosen_of_underway (working_underway h)

/-- And what follows the claim. -/
theorem claimed_chosen (f : Frame) : (claimed videoId act f).chosen = true := by
  cases act with
  | transcode =>
    rw [claimed]
    split <;> rfl
  | extractMetadata | generateThumbnail => rfl

/-- And what is returned without it. -/
theorem alreadyCompleted_chosen (video : Tracked Video) :
    (alreadyCompleted videoId act video).chosen = true := by
  cases act with
  | extractMetadata =>
    rw [alreadyCompleted]
    split <;> rfl
  | generateThumbnail | transcode => rfl

/-- Each of the other phases is reached in one way, the commit of a claim in two. -/
theorem Resumes.cases_of_not_chosen (h : Resumes videoId act st ph ans st' ph')
    (hph' : ph'.chosen = false) :
    (∃ video, ph' = .selectJob video) ∨ (∃ video, ph' = .insertJob video) ∨
    (∃ f, ph' = .commitClaim f ∧ st'.rows.jobs act.jobType = some f.job.loaded) ∨
    (∃ f, ph = .flush f ∧ st' = st ∧ ph' = .countCompleted f.flush) ∨
    ∃ f, ph = .countCompleted f ∧ st' = st ∧ ph' = .commitCompletion
      (f.completeVideo (allJobsCompleted (f.flushed.apply act.jobType st.rows))) := by
  cases h with
  | load => exact .inl ⟨_, rfl⟩
  | selectNone => exact .inr (.inl ⟨_, rfl⟩)
  | selectJob hjob => exact .inr (.inr (.inl ⟨_, rfl, hjob⟩))
  | insert => exact .inr (.inr (.inl ⟨_, rfl, Function.update_self _ _ _⟩))
  | flush => exact .inr (.inr (.inr (.inl ⟨_, rfl, rfl, rfl⟩)))
  | countCompleted => exact .inr (.inr (.inr (.inr ⟨_, rfl, rfl, rfl⟩)))
  | selectCompleted =>
    exact absurd (hph'.symm.trans (alreadyCompleted_chosen _)) Bool.false_ne_true
  | commitClaim => exact absurd (hph'.symm.trans (claimed_chosen _)) Bool.false_ne_true
  | call _ _ hwork | probe hwork | upload hwork =>
    exact absurd (hph'.symm.trans (working_chosen hwork)) Bool.false_ne_true
  | selectAsset => exact absurd (hph'.symm.trans (completing_chosen _ _)) Bool.false_ne_true
  | _ => exact absurd hph'.symm Bool.false_ne_true

/-- A claim holds the row of its job as it has just been read or inserted. -/
theorem Resumes.claim_loaded {f : Frame} (h : Resumes videoId act st ph ans st' ph')
    (hph' : ph' = .commitClaim f) : st'.rows.jobs act.jobType = some f.job.loaded := by
  subst hph'
  rcases h.cases_of_not_chosen rfl with ⟨_, heq⟩ | ⟨_, heq⟩ | ⟨g, heq, hjob⟩ | ⟨_, -, -, heq⟩ |
    ⟨_, -, -, heq⟩ <;> cases heq
  exact hjob

/-- The count of a completion is reached through its flush alone. -/
theorem Resumes.countCompleted_cases {f : Frame} (h : Resumes videoId act st ph ans st' ph')
    (hph' : ph' = .countCompleted f) : ∃ g, ph = .flush g ∧ st' = st ∧ f = g.flush := by
  subst hph'
  rcases h.cases_of_not_chosen rfl with ⟨_, heq⟩ | ⟨_, heq⟩ | ⟨_, heq, -⟩ | ⟨g, hph, hst, heq⟩ |
    ⟨_, -, -, heq⟩ <;> cases heq
  exact ⟨g, hph, hst, rfl⟩

/-- The commit of a completion is reached through the count alone. -/
theorem Resumes.commitCompletion_cases {f : Frame} (h : Resumes videoId act st ph ans st' ph')
    (hph' : ph' = .commitCompletion f) :
    ∃ g, ph = .countCompleted g ∧ st' = st ∧
      f = g.completeVideo (allJobsCompleted (g.flushed.apply act.jobType st.rows)) := by
  subst hph'
  rcases h.cases_of_not_chosen rfl with ⟨_, heq⟩ | ⟨_, heq⟩ | ⟨_, heq, -⟩ | ⟨_, -, -, heq⟩ |
    ⟨g, hph, hst, heq⟩ <;> cases heq
  exact ⟨g, hph, hst, rfl⟩

end VideoProcessing
