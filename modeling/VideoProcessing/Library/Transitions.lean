import Mathlib.Data.Nat.Notation
import Mathlib.Logic.Basic
import Mathlib.Logic.Relation

/-!
# Runs of a labelled partial step

A transition system is a step function `σ → ι → Option σ`: a state and a label give the next
state, or `none` where the label is not enabled. `exec` runs a list of labels, `restrict` keeps the
steps that meet a condition, and `exec_invariant` is the induction every safety result uses.
-/

namespace Transitions

variable {σ ι : Type*}

/-- Run the labels in order from a state. -/
def exec (step : σ → ι → Option σ) : σ → List ι → Option σ
  | s, [] => some s
  | s, l :: ls => (step s l).bind fun s' => exec step s' ls

/-- The system that only takes the steps at which `cond` holds. -/
def restrict (cond : σ → ι → Prop) [∀ s l, Decidable (cond s l)] (step : σ → ι → Option σ) :
    σ → ι → Option σ :=
  fun s l => if cond s l then step s l else none

/-- The system with a record beside its state, which every step updates. -/
def observe {γ : Type*} (record : σ → ι → γ → γ) (step : σ → ι → Option σ) :
    σ × γ → ι → Option (σ × γ) :=
  fun q l => (step q.1 l).map fun s' => (s', record q.1 l q.2)

/-- `s'` is reached from `s` by some run. -/
def Reaches (step : σ → ι → Option σ) (s s' : σ) : Prop := ∃ ls, exec step s ls = some s'

@[simp] theorem exec_nil (step : σ → ι → Option σ) (s : σ) : exec step s [] = some s := rfl

@[simp] theorem exec_cons (step : σ → ι → Option σ) (s : σ) (l : ι) (ls : List ι) :
    exec step s (l :: ls) = (step s l).bind fun s' => exec step s' ls := rfl

/-- A run of `ls₁ ++ ls₂` is a run of `ls₁` followed by a run of `ls₂`. -/
theorem exec_append (step : σ → ι → Option σ) (s : σ) (ls₁ ls₂ : List ι) :
    exec step s (ls₁ ++ ls₂) = (exec step s ls₁).bind fun s' => exec step s' ls₂ := by
  induction ls₁ generalizing s with
  | nil => rfl
  | cons l ls ih =>
    simp only [List.cons_append, exec_cons, Option.bind_assoc]
    exact congrArg _ (funext fun s' => ih s')

/-- A run that gets to its end passes through the end of each of its beginnings. -/
theorem exec_split {step : σ → ι → Option σ} {s : σ} {ls₁ ls₂ : List ι}
    (h : (exec step s (ls₁ ++ ls₂)).isSome) :
    ∃ s₁ s₂, exec step s ls₁ = some s₁ ∧ exec step s₁ ls₂ = some s₂ := by
  obtain ⟨s₂, hs₂⟩ := Option.isSome_iff_exists.mp h
  rw [exec_append] at hs₂
  obtain ⟨s₁, hs₁, hs₂⟩ := Option.bind_eq_some_iff.mp hs₂
  exact ⟨s₁, s₂, hs₁, hs₂⟩

/-- A state reaches itself. -/
theorem Reaches.refl (step : σ → ι → Option σ) (s : σ) : Reaches step s s := ⟨[], rfl⟩

/-- One run after another. -/
theorem Reaches.trans {step : σ → ι → Option σ} {s s' s'' : σ} (h : Reaches step s s')
    (h' : Reaches step s' s'') : Reaches step s s'' := by
  obtain ⟨ls, hls⟩ := h
  obtain ⟨ls', hls'⟩ := h'
  exact ⟨ls ++ ls', by rw [exec_append, hls, Option.bind_some, hls']⟩

/-- A step is a run. -/
theorem Reaches.step {step : σ → ι → Option σ} {s s' : σ} {l : ι} (h : step s l = some s') :
    Reaches step s s' := ⟨[l], by simp [h]⟩

/-- What every step preserves, every run preserves. -/
theorem exec_invariant {step : σ → ι → Option σ} {I : σ → Prop}
    (hstep : ∀ s l s', I s → step s l = some s' → I s') {s s' : σ} {ls : List ι} (hs : I s)
    (hrun : exec step s ls = some s') : I s' := by
  induction ls generalizing s with
  | nil =>
    obtain rfl := Option.some.inj hrun
    exact hs
  | cons l ls ih =>
    obtain ⟨t, ht, hrun⟩ := Option.bind_eq_some_iff.mp hrun
    exact ih (hstep s l t hs ht) hrun

/-- What the steps of some labels preserve, a run of these labels preserves. -/
theorem exec_invariant_of_forall_mem {step : σ → ι → Option σ} {I : σ → Prop} {P : ι → Prop}
    (hstep : ∀ s l s', P l → I s → step s l = some s' → I s') {s s' : σ} {ls : List ι}
    (hls : ∀ l ∈ ls, P l) (hs : I s) (hrun : exec step s ls = some s') : I s' := by
  induction ls generalizing s with
  | nil =>
    obtain rfl := Option.some.inj hrun
    exact hs
  | cons l ls ih =>
    obtain ⟨hl, hls⟩ := List.forall_mem_cons.mp hls
    obtain ⟨t, ht, hrun⟩ := Option.bind_eq_some_iff.mp hrun
    exact ih hls (hstep s l t hl hs ht) hrun

/-- What every step does from the states of an invariant, every run does. -/
theorem exec_rel {step : σ → ι → Option σ} {I : σ → Prop} (R : σ → σ → Prop)
    (hrefl : ∀ s, R s s) (htrans : ∀ {a b c}, R a b → R b c → R a c)
    (hstep : ∀ s l s', I s → step s l = some s' → I s' ∧ R s s') {s s' : σ} {ls : List ι}
    (hs : I s) (hrun : exec step s ls = some s') : I s' ∧ R s s' := by
  have hinv : ∀ t l t', I t ∧ R s t → step t l = some t' → I t' ∧ R s t' := by
    intro t l t' ht htt'
    obtain ⟨hI, hR⟩ := hstep t l t' ht.1 htt'
    exact ⟨hI, htrans ht.2 hR⟩
  exact exec_invariant hinv ⟨hs, hrefl s⟩ hrun

/-- What every step keeps holds of what is reached. -/
theorem Reaches.invariant {step : σ → ι → Option σ} {I : σ → Prop}
    (hstep : ∀ s l s', I s → step s l = some s' → I s') {s s' : σ} (hs : I s)
    (h : Reaches step s s') : I s' := by
  obtain ⟨_, hrun⟩ := h
  exact exec_invariant hstep hs hrun

/-- A restricted step is a step of the whole system at which the condition held. -/
theorem restrict_eq_some {cond : σ → ι → Prop} [∀ s l, Decidable (cond s l)]
    {step : σ → ι → Option σ} {s s' : σ} {l : ι} :
    restrict cond step s l = some s' ↔ cond s l ∧ step s l = some s' := by
  simp [restrict]

/-- A weaker restriction allows every run of a stronger one. -/
theorem exec_restrict_mono {cond cond' : σ → ι → Prop} [∀ s l, Decidable (cond s l)]
    [∀ s l, Decidable (cond' s l)] {step : σ → ι → Option σ}
    (himp : ∀ s l, cond s l → cond' s l) {s s' : σ} {ls : List ι}
    (hrun : exec (restrict cond step) s ls = some s') :
    exec (restrict cond' step) s ls = some s' := by
  induction ls generalizing s with
  | nil => exact hrun
  | cons l ls ih =>
    obtain ⟨t, ht, hrun⟩ := Option.bind_eq_some_iff.mp hrun
    obtain ⟨hc, ht⟩ := restrict_eq_some.mp ht
    exact Option.bind_eq_some_iff.mpr ⟨t, restrict_eq_some.mpr ⟨himp s l hc, ht⟩, ih hrun⟩

/-- A run that keeps to two restrictions keeps to both at every step. -/
theorem exec_restrict_and {cond cond' : σ → ι → Prop} [∀ s l, Decidable (cond s l)]
    [∀ s l, Decidable (cond' s l)] {step : σ → ι → Option σ} {s s' : σ} {ls : List ι}
    (hrun : exec (restrict cond step) s ls = some s')
    (hrun' : exec (restrict cond' step) s ls = some s') :
    exec (restrict (fun s l => cond s l ∧ cond' s l) step) s ls = some s' := by
  induction ls generalizing s with
  | nil => exact hrun
  | cons l ls ih =>
    obtain ⟨t, ht, hrun⟩ := Option.bind_eq_some_iff.mp hrun
    obtain ⟨t', ht', hrun'⟩ := Option.bind_eq_some_iff.mp hrun'
    obtain ⟨hc, ht⟩ := restrict_eq_some.mp ht
    obtain ⟨hc', ht'⟩ := restrict_eq_some.mp ht'
    -- both runs take the same step of the whole system
    obtain rfl := Option.some.inj (ht.symm.trans ht')
    exact Option.bind_eq_some_iff.mpr ⟨t, restrict_eq_some.mpr ⟨⟨hc, hc'⟩, ht⟩, ih hrun hrun'⟩

/-- Every run of a restricted system is a run of the whole one. -/
theorem exec_of_restrict {cond : σ → ι → Prop} [∀ s l, Decidable (cond s l)]
    {step : σ → ι → Option σ} {s s' : σ} {ls : List ι}
    (hrun : exec (restrict cond step) s ls = some s') : exec step s ls = some s' := by
  induction ls generalizing s with
  | nil => exact hrun
  | cons l ls ih =>
    obtain ⟨t, ht, hrun⟩ := Option.bind_eq_some_iff.mp hrun
    exact Option.bind_eq_some_iff.mpr ⟨t, (restrict_eq_some.mp ht).2, ih hrun⟩

/-- A recorded step is a step and its record. -/
theorem observe_eq_some {γ : Type*} {record : σ → ι → γ → γ} {step : σ → ι → Option σ}
    {q q' : σ × γ} {l : ι} : observe record step q l = some q' ↔
      step q.1 l = some q'.1 ∧ q'.2 = record q.1 l q.2 := by
  obtain ⟨s', g'⟩ := q'
  simp only [observe, Option.map_eq_some_iff, Prod.mk.injEq]
  constructor
  · rintro ⟨_, hstep, rfl, rfl⟩
    exact ⟨hstep, rfl⟩
  · rintro ⟨hstep, rfl⟩
    exact ⟨_, hstep, rfl, rfl⟩

/-- Every run of the system with a record is a run of the system. -/
theorem exec_of_observe {γ : Type*} {record : σ → ι → γ → γ} {step : σ → ι → Option σ}
    {q q' : σ × γ} {ls : List ι} (hrun : exec (observe record step) q ls = some q') :
    exec step q.1 ls = some q'.1 := by
  induction ls generalizing q with
  | nil =>
    obtain rfl := Option.some.inj hrun
    rfl
  | cons l ls ih =>
    obtain ⟨t, ht, hrun⟩ := Option.bind_eq_some_iff.mp hrun
    exact Option.bind_eq_some_iff.mpr ⟨t.1, (observe_eq_some.mp ht).1, ih hrun⟩

/-- Every run of the system can be recorded. -/
theorem exec_observe_of_exec {γ : Type*} (record : σ → ι → γ → γ) {step : σ → ι → Option σ}
    {s s' : σ} {ls : List ι} (hrun : exec step s ls = some s') (g : γ) :
    ∃ g', exec (observe record step) (s, g) ls = some (s', g') := by
  induction ls generalizing s g with
  | nil =>
    obtain rfl := Option.some.inj hrun
    exact ⟨g, rfl⟩
  | cons l ls ih =>
    obtain ⟨t, ht, hrun⟩ := Option.bind_eq_some_iff.mp hrun
    obtain ⟨g', hg'⟩ := ih hrun (record s l g)
    have hstep : observe record step (s, g) l = some (t, record s l g) :=
      observe_eq_some.mpr ⟨ht, rfl⟩
    exact ⟨g', by rw [exec_cons, hstep, Option.bind_some, hg']⟩

/-- Steps at which the condition holds keep `P`; from the first one at which it does not, `L`
holds for the rest of the run. -/
theorem exec_restrict_cases {γ : Type*} {record : σ → ι → γ → γ} {cond : σ → ι → Prop}
    [∀ s l, Decidable (cond s l)] {step : σ → ι → Option σ} {P L : σ × γ → Prop}
    (hkeep : ∀ q l q', P q → observe record step q l = some q' → cond q.1 l → P q')
    (hbreak : ∀ q l q', P q → observe record step q l = some q' → ¬ cond q.1 l → L q')
    (hstay : ∀ q l q', L q → observe record step q l = some q' → L q')
    {q q' : σ × γ} {ls : List ι} (hq : P q) (hrun : exec (observe record step) q ls = some q') :
    P q' ∧ exec (restrict cond step) q.1 ls = some q'.1 ∨
      L q' ∧ exec (restrict cond step) q.1 ls = none := by
  induction ls generalizing q with
  | nil =>
    obtain rfl := Option.some.inj hrun
    exact .inl ⟨hq, rfl⟩
  | cons l ls ih =>
    obtain ⟨t, ht, hrun⟩ := Option.bind_eq_some_iff.mp hrun
    rw [exec_cons, restrict]
    by_cases hcond : cond q.1 l
    · rw [if_pos hcond, (observe_eq_some.mp ht).1, Option.bind_some]
      exact ih (hkeep q l t hq ht hcond) hrun
    · rw [if_neg hcond]
      exact .inr ⟨exec_invariant hstay (hbreak q l t hq ht hcond) hrun, rfl⟩

/-! ## Every state of a run -/

/-- `P` holds in every state that a run of the labels passes through. -/
def Always (step : σ → ι → Option σ) (P : σ → Prop) (s : σ) (ls : List ι) : Prop :=
  ∀ ls₁ s₁, ls₁ <+: ls → exec step s ls₁ = some s₁ → P s₁

/-- It holds now and in the rest of the run. -/
theorem always_cons {step : σ → ι → Option σ} {P : σ → Prop} {s t : σ} {l : ι} {ls : List ι}
    (ht : step s l = some t) :
    Always step P s (l :: ls) ↔ P s ∧ Always step P t ls := by
  constructor
  · intro h
    refine ⟨h [] s (List.nil_prefix) rfl, fun ls₁ s₁ hprefix hrun => ?_⟩
    refine h (l :: ls₁) s₁ ((List.prefix_cons_inj l).mpr hprefix) ?_
    rw [exec_cons, ht, Option.bind_some, hrun]
  · rintro ⟨hs, h⟩ ls₁ s₁ hprefix hrun
    rcases List.prefix_cons_iff.mp hprefix with rfl | ⟨ls₂, rfl, htail⟩
    · obtain rfl := Option.some.inj hrun
      exact hs
    · rw [exec_cons, ht, Option.bind_some] at hrun
      exact h ls₂ s₁ htail hrun

/-- In a run of the steps that meet `d`, a condition that says of each of them whether it keeps `P`
says whether `P` holds in all states. -/
theorem always_iff_exec_restrict_of {c d : σ → ι → Prop} [∀ s l, Decidable (c s l)]
    [∀ s l, Decidable (d s l)] {step : σ → ι → Option σ} {I P : σ → Prop}
    (hstep : ∀ s l s', I s → P s → d s l → step s l = some s' → I s' ∧ (P s' ↔ c s l))
    {s s' : σ} {ls : List ι} (hI : I s) (hP : P s)
    (hrun : exec (restrict d step) s ls = some s') :
    Always step P s ls ↔ exec (restrict c step) s ls = some s' := by
  induction ls generalizing s with
  | nil =>
    refine iff_of_true (fun ls₁ s₁ hprefix hrun₁ => ?_) hrun
    obtain rfl := List.prefix_nil.mp hprefix
    obtain rfl := Option.some.inj hrun₁
    exact hP
  | cons l ls ih =>
    obtain ⟨t, ht, hrun⟩ := Option.bind_eq_some_iff.mp hrun
    obtain ⟨hd, ht⟩ := restrict_eq_some.mp ht
    obtain ⟨hIt, hPt⟩ := hstep s l t hI hP hd ht
    rw [always_cons ht, and_iff_right hP]
    by_cases hcond : c s l
    · rw [ih hIt (hPt.mpr hcond) hrun, exec_cons, restrict, if_pos hcond, ht, Option.bind_some]
    · rw [exec_cons, restrict, if_neg hcond]
      refine iff_of_false (fun h => hcond (hPt.mp ?_)) (fun h => by cases h)
      exact h [] t List.nil_prefix rfl

/-- No restriction restricts nothing. -/
theorem exec_restrict_true (step : σ → ι → Option σ) (s : σ) (ls : List ι) :
    exec (restrict (fun _ _ => True) step) s ls = exec step s ls := by
  have heq : restrict (fun _ _ => True) step = step := by
    funext s l
    exact if_pos trivial
  rw [heq]

/-- A condition that says of each step whether it keeps `P` says of each run whether `P` holds in
all its states. -/
theorem always_iff_exec_restrict {c : σ → ι → Prop} [∀ s l, Decidable (c s l)]
    {step : σ → ι → Option σ} {I P : σ → Prop}
    (hstep : ∀ s l s', I s → P s → step s l = some s' → I s' ∧ (P s' ↔ c s l))
    {s s' : σ} {ls : List ι} (hI : I s) (hP : P s) (hrun : exec step s ls = some s') :
    Always step P s ls ↔ exec (restrict c step) s ls = some s' :=
  always_iff_exec_restrict_of (d := fun _ _ => True) (fun s l s' hI hP _ => hstep s l s' hI hP)
    hI hP ((exec_restrict_true step s ls).trans hrun)

/-! ## What every run comes to -/

/-- However the labels are chosen the system stops, and `P` holds where it stops. -/
inductive Inevitable (step : σ → ι → Option σ) (P : σ → Prop) : σ → Prop
  | intro {s : σ} (hnext : ∀ l s', step s l = some s' → Inevitable step P s')
      (hstop : (∀ l, step s l = none) → P s) : Inevitable step P s

/-- Steps that lower a measure come to an end. -/
theorem inevitable_of_measure {step : σ → ι → Option σ} {I P : σ → Prop} (μ : σ → ℕ)
    (hstep : ∀ s l s', I s → step s l = some s' → I s' ∧ μ s' < μ s)
    (hstop : ∀ s, I s → (∀ l, step s l = none) → P s) {s : σ} (hs : I s) : Inevitable step P s := by
  induction hn : μ s using Nat.strongRecOn generalizing s with
  | ind n ih =>
    subst hn
    refine ⟨fun l s' hl => ?_, hstop s hs⟩
    obtain ⟨hs', hlt⟩ := hstep s l s' hs hl
    exact ih (μ s') hlt hs' rfl

/-- What is inevitable holds at the end of every run that cannot go on. -/
theorem Inevitable.of_exec {step : σ → ι → Option σ} {P : σ → Prop} {s s' : σ} {ls : List ι}
    (h : Inevitable step P s) (hrun : exec step s ls = some s') (hstuck : ∀ l, step s' l = none) :
    P s' := by
  induction ls generalizing s with
  | nil =>
    obtain rfl := Option.some.inj hrun
    obtain ⟨-, hstop⟩ := h
    exact hstop hstuck
  | cons l ls ih =>
    obtain ⟨t, ht, hrun⟩ := Option.bind_eq_some_iff.mp hrun
    obtain ⟨hnext, -⟩ := h
    exact ih (hnext l t ht) hrun

/-- What is inevitable does happen. -/
theorem Inevitable.exists_exec {step : σ → ι → Option σ} {P : σ → Prop} {s : σ}
    (h : Inevitable step P s) :
    ∃ ls s', exec step s ls = some s' ∧ (∀ l, step s' l = none) ∧ P s' := by
  induction h with
  | @intro s hnext hstop ih =>
    by_cases hstuck : ∀ l, step s l = none
    · exact ⟨[], s, rfl, hstuck, hstop hstuck⟩
    · obtain ⟨l, hl⟩ := not_forall.mp hstuck
      obtain ⟨s', hs'⟩ := Option.ne_none_iff_exists'.mp hl
      obtain ⟨ls, s'', hrun, hend⟩ := ih l s' hs'
      exact ⟨l :: ls, s'', by rw [exec_cons, hs', Option.bind_some, hrun], hend⟩

/-! ## Steps that are paid for -/

/-- Count the steps of a run at which `cond` holds. -/
def count (cond : σ → ι → Prop) [∀ s l, Decidable (cond s l)] : σ → ι → ℕ → ℕ :=
  fun s l n => if cond s l then n + 1 else n

/-- Where the steps that meet the condition lower a measure and the others do not raise it, the
measure pays for each of them. -/
theorem exec_count_le {cond : σ → ι → Prop} [∀ s l, Decidable (cond s l)]
    {step : σ → ι → Option σ} {I : σ → Prop} (μ : σ → ℕ)
    (hstep : ∀ s l s', I s → step s l = some s' → I s')
    (hpaid : ∀ s l s', I s → cond s l → step s l = some s' → μ s' < μ s)
    (hfree : ∀ s l s', I s → ¬ cond s l → step s l = some s' → μ s' ≤ μ s)
    {q q' : σ × ℕ} {ls : List ι} (hq : I q.1)
    (hrun : exec (observe (count cond) step) q ls = some q') : q'.2 + μ q'.1 ≤ q.2 + μ q.1 := by
  induction ls generalizing q with
  | nil =>
    obtain rfl := Option.some.inj hrun
    exact Nat.le_refl _
  | cons l ls ih =>
    obtain ⟨t, ht, hrun⟩ := Option.bind_eq_some_iff.mp hrun
    obtain ⟨ht, hcount⟩ := observe_eq_some.mp ht
    refine Nat.le_trans (ih (hstep _ l _ hq ht) hrun) ?_
    rw [hcount, count]
    split
    · rename_i hcond
      have := hpaid _ l _ hq hcond ht
      omega
    · rename_i hcond
      exact Nat.add_le_add_left (hfree _ l _ hq hcond ht) _

end Transitions
