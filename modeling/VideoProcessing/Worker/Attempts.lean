import VideoProcessing.Worker.Commits

/-!
# Invariants of side-by-side attempts

`Pool.Each` states a property of every attempt against the committed rows. It is kept when the
attempt that runs establishes it and the others do not lose it to the change of the rows; the
first use is `Attempt.Sound`, which holds in every pool.
-/

namespace VideoProcessing

open Python UnitOfWork Transitions

variable {p p' : Pool} {i : ℕ} {ans : Answer}

/-- Every attempt satisfies `A` against the committed rows. -/
def Pool.Each (A : VideoRows → Attempt → Prop) (p : Pool) : Prop :=
  ∀ (i : ℕ) (a : Attempt), p.attempts[i]? = some a → A p.rows a

/-- The await of an attempt. -/
theorem Pool.resume_step (h : p.resume i ans = some p') :
    ∃ a st ph, p.attempts[i]? = some a ∧
      a.phase.step p.videoId a.activity p.store ans = some (st, ph) ∧
      p' = { p with store := st, attempts := p.attempts.set i { a with phase := ph } } := by
  obtain ⟨a, ha, h⟩ := Option.bind_eq_some_iff.mp h
  rw [Option.ite_none_left_eq_some] at h
  obtain ⟨⟨st, ph⟩, hstep, rfl⟩ := Option.map_eq_some_iff.mp h.2
  exact ⟨a, st, ph, ha, hstep, rfl⟩

/-- What `Pool.resume` does. -/
theorem Pool.resume_eq_some (h : p.resume i ans = some p') :
    ∃ a st ph, p.attempts[i]? = some a ∧
      Resumes p.videoId a.activity p.store a.phase ans st ph ∧
      p' = { p with store := st, attempts := p.attempts.set i { a with phase := ph } } := by
  obtain ⟨a, st, ph, ha, hstep, rfl⟩ := Pool.resume_step h
  exact ⟨a, st, ph, ha, Phase.step_resumes hstep, rfl⟩

/-- An attempt whose statement does not have to wait goes on. -/
theorem Pool.resume_of_step {a : Attempt} {st : Store} {ph : Phase} (ha : p.attempts[i]? = some a)
    (hblocked : p.blocked i (a.phase.wanted a.activity.jobType) = false)
    (hstep : a.phase.step p.videoId a.activity p.store ans = some (st, ph)) :
    p.resume i ans =
      some { p with store := st, attempts := p.attempts.set i { a with phase := ph } } := by
  rw [Pool.resume, ha, Option.bind_some, if_neg, hstep, Option.map_some]
  rintro ⟨-, hblocks⟩
  exact Bool.false_ne_true (hblocked.symm.trans hblocks)

/-- The end of an attempt. -/
theorem Pool.vanish_eq_some (h : p.vanish i = some p') :
    ∃ a, p.attempts[i]? = some a ∧
      p' = { p with attempts := p.attempts.set i { a with phase := .vanished } } := by
  obtain ⟨a, ha, rfl⟩ := Option.map_eq_some_iff.mp h
  exact ⟨a, ha, rfl⟩

/-- The attempts after one of them has been replaced. -/
theorem getElem?_set_cases {α : Type*} {xs : List α} {i j : ℕ} {x y : α}
    (h : (xs.set i x)[j]? = some y) : (j = i ∧ y = x) ∨ (j ≠ i ∧ xs[j]? = some y) := by
  rw [List.getElem?_set] at h
  split at h
  · rename_i hij
    split at h
    · exact .inl ⟨hij.symm, (Option.some.inj h).symm⟩
    · exact nomatch h
  · rename_i hij
    exact .inr ⟨fun hji => hij hji.symm, h⟩

/-- What was put at a place is there. -/
theorem getElem?_set_self_of {α : Type*} {xs : List α} {i : ℕ} {x y : α} (h : xs[i]? = some x) :
    (xs.set i y)[i]? = some y := by
  obtain ⟨hi, -⟩ := List.getElem?_eq_some_iff.mp h
  rw [List.getElem?_set_self hi]

/-- Replacing an attempt by one that looks the same through `f`. -/
theorem map_set_of_eq {α β : Type*} {f : α → β} {xs : List α} {i : ℕ} {x y : α}
    (hx : xs[i]? = some x) (h : f y = f x) : (xs.set i y).map f = xs.map f := by
  refine List.ext_getElem? fun j => ?_
  rw [List.getElem?_map, List.getElem?_map]
  by_cases hj : j = i
  · subst hj
    rw [getElem?_set_self_of hx, hx, Option.map_some, Option.map_some, h]
  · rw [List.getElem?_set_ne (Ne.symm hj)]

/-- The attempts after one more has begun. -/
theorem getElem?_append_cases {α : Type*} {xs : List α} {j : ℕ} {x y : α}
    (h : (xs ++ [x])[j]? = some y) : (j = xs.length ∧ y = x) ∨ xs[j]? = some y := by
  rw [List.getElem?_append] at h
  split at h
  · exact .inr h
  · rename_i hj
    obtain hj | hj := (Nat.le_of_not_lt hj).eq_or_lt
    · subst hj
      simp only [Nat.sub_self, List.getElem?_cons_zero, Option.some.injEq] at h
      exact .inl ⟨rfl, h.symm⟩
    · rw [List.getElem?_eq_none (by simpa using by omega)] at h
      exact nomatch h

/-- The attempt that runs establishes the property, and the others keep it. -/
theorem Pool.Each.resume {A : VideoRows → Attempt → Prop} (hp : p.Each A)
    (h : p.resume i ans = some p')
    (hnew : ∀ a st ph, p.attempts[i]? = some a → A p.rows a →
      Resumes p.videoId a.activity p.store a.phase ans st ph → A st.rows { a with phase := ph })
    (hother : ∀ a st ph j b, p.attempts[i]? = some a →
      Resumes p.videoId a.activity p.store a.phase ans st ph → j ≠ i →
      p.attempts[j]? = some b → A p.rows b → A st.rows b) : p'.Each A := by
  obtain ⟨a, st, ph, ha, hres, rfl⟩ := Pool.resume_eq_some h
  intro j b hb
  rcases getElem?_set_cases hb with ⟨-, rfl⟩ | ⟨hj, hb⟩
  · exact hnew a st ph ha (hp i a ha) hres
  · exact hother a st ph j b ha hres hj hb (hp j b hb)

/-- What holds of a new attempt and of the others. -/
theorem Pool.Each.begin {A : VideoRows → Attempt → Prop} (hp : p.Each A) {act : Activity}
    (hnew : A p.rows ⟨act, .loadVideo⟩) : (p.begin act).Each A := by
  intro j b hb
  rcases getElem?_append_cases hb with ⟨-, rfl⟩ | hb
  · exact hnew
  · exact hp j b hb

/-- What holds of a vanished attempt and of the others. -/
theorem Pool.Each.vanish {A : VideoRows → Attempt → Prop} (hp : p.Each A)
    (h : p.vanish i = some p') (hnew : ∀ a : Attempt, A p.rows { a with phase := .vanished }) :
    p'.Each A := by
  obtain ⟨a, -, rfl⟩ := Pool.vanish_eq_some h
  intro j b hb
  rcases getElem?_set_cases hb with ⟨-, rfl⟩ | ⟨-, hb⟩
  · exact hnew a
  · exact hp j b hb

/-- The property survives a change of the rows alone. -/
theorem Pool.Each.mono {A : VideoRows → Attempt → Prop} (hp : p.Each A) {rows : VideoRows}
    (hrows : ∀ a, A p.rows a → A rows a) {objects : List Str} :
    Pool.Each A { p with store := ⟨rows, objects⟩ } :=
  fun j b hb => hrows b (hp j b hb)

/-! ## Sound attempts -/

/-- The attempt has found or inserted its job row. -/
def Phase.hasJob : Phase → Bool
  | .commitClaim _ | .work _ _ | .selectAsset _ _ | .flush _ | .countCompleted _
  | .commitCompletion _ | .failJob _ _ | .returned _ => true
  | _ => false

structure Attempt.Sound (videoId : UUID) (rows : VideoRows) (a : Attempt) : Prop where
  shaped : a.phase.Shaped videoId a.activity
  present : a.phase.hasJob = true → rows.jobs a.activity.jobType ≠ none

/-- A completion has its job's row. -/
theorem complete_hasJob {videoId : UUID} {act : Activity} {f : Frame} {now : Time} {ph : Phase}
    (h : complete videoId act f now = some ph) : ph.hasJob = true := by
  cases act with
  | extractMetadata =>
    obtain ⟨m, -, rfl⟩ := Option.map_eq_some_iff.mp h
    rfl
  | generateThumbnail =>
    obtain rfl := Option.some.inj h
    rfl
  | transcode =>
    obtain rfl := Option.some.inj h
    rw [completeTranscodeJob]
    cases f.uploads <;> rfl

/-- So has the work. -/
theorem working_hasJob {videoId : UUID} {act : Activity} {f : Frame} {now : Time} {todo : List Io}
    {ph : Phase} (h : working videoId act f now todo = some ph) : ph.hasJob = true := by
  cases todo with
  | nil => exact complete_hasJob h
  | cons io todo =>
    obtain rfl := Option.some.inj h
    rfl

/-- Only the awaits before the claim lead to one that has no job row yet. -/
theorem Resumes.hasJob {videoId : UUID} {act : Activity} {st st' : Store} {ph ph' : Phase}
    {ans : Answer} (h : Resumes videoId act st ph ans st' ph') (hph' : ph'.hasJob = true) :
    ph.hasJob = true ∨ st'.rows.jobs act.jobType ≠ none := by
  cases h with
  | selectCompleted hjob => exact .inr (by simp [hjob])
  | selectJob hjob => exact .inr (by simp [hjob])
  | insert => exact .inr (by simp)
  | completionFails hph =>
    left
    cases ph <;> simp only [Phase.completion?, reduceCtorEq] at hph <;> rfl
  | load | selectNone | insertLost | giveUp | failJobBroken | failJob | failJobFails =>
    exact nomatch hph'
  | _ => exact .inl rfl

/-- An await leaves a sound attempt. -/
theorem Resumes.sound {videoId : UUID} {act : Activity} {st st' : Store} {ph ph' : Phase}
    {ans : Answer} (h : Resumes videoId act st ph ans st' ph')
    (hs : Attempt.Sound videoId st.rows ⟨act, ph⟩) :
    Attempt.Sound videoId st'.rows ⟨act, ph'⟩ where
  shaped := h.shaped hs.shaped
  present := fun hph' => by
    rcases h.hasJob hph' with hph | hjob
    · exact h.jobs_ne_none (hs.present hph)
    · exact hjob

/-- Rows that are added do no harm. -/
theorem Attempt.Sound.mono {videoId : UUID} {rows rows' : VideoRows} {a : Attempt}
    (h : a.Sound videoId rows) (hjobs : ∀ t, rows.jobs t ≠ none → rows'.jobs t ≠ none) :
    a.Sound videoId rows' :=
  ⟨h.shaped, fun hph => hjobs _ (h.present hph)⟩

/-- An attempt begins sound. -/
theorem Attempt.sound_begin (videoId : UUID) (rows : VideoRows) (act : Activity) :
    Attempt.Sound videoId rows ⟨act, .loadVideo⟩ := ⟨trivial, fun h => nomatch h⟩

/-- Every attempt of the pool is sound. -/
def Pool.Sound (p : Pool) : Prop := p.Each (Attempt.Sound p.videoId)

/-- An await leaves the video's id alone. -/
theorem Pool.resume_videoId (h : p.resume i ans = some p') : p'.videoId = p.videoId := by
  obtain ⟨_, _, _, -, -, rfl⟩ := Pool.resume_eq_some h
  rfl

/-- An await keeps the pool sound. -/
theorem Pool.Sound.resume (hp : p.Sound) (h : p.resume i ans = some p') : p'.Sound := by
  rw [Pool.Sound, Pool.resume_videoId h]
  exact Pool.Each.resume hp h (fun a st ph _ ha hres => hres.sound ha)
    fun a st ph j b _ hres _ _ hb => hb.mono fun t => hres.jobs_ne_none

/-- So does a new attempt. -/
theorem Pool.Sound.begin (hp : p.Sound) (act : Activity) : (p.begin act).Sound :=
  Pool.Each.begin hp (Attempt.sound_begin _ _ act)

/-- And a kill. -/
theorem Pool.Sound.vanish (hp : p.Sound) (h : p.vanish i = some p') : p'.Sound := by
  have hid : p'.videoId = p.videoId := by
    obtain ⟨_, -, rfl⟩ := Pool.vanish_eq_some h
    rfl
  rw [Pool.Sound, hid]
  exact Pool.Each.vanish hp h fun a => ⟨trivial, fun h => nomatch h⟩

/-- Every step does. -/
theorem Pool.Sound.step (hp : p.Sound) {l : PoolLabel} (h : p.step l = some p') : p'.Sound := by
  cases l with
  | begin act =>
    obtain rfl := Option.some.inj h
    exact hp.begin act
  | resume i ans => exact hp.resume h
  | vanish i => exact hp.vanish h

/-- No attempt has begun. -/
theorem Pool.each_of_nil {A : VideoRows → Attempt → Prop} (h : p.attempts = []) : p.Each A := by
  intro i a ha
  simp [h] at ha

/-- A pool without attempts is sound. -/
theorem Pool.sound_of_nil (h : p.attempts = []) : p.Sound := Pool.each_of_nil h

end VideoProcessing
