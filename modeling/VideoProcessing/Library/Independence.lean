import Mathlib.Data.List.Induction
import VideoProcessing.Library.Transitions

/-!
# Components that leave each other alone

Every label belongs to a component, and every component sees the state through a view. Where a step
changes no view but its owner's, and depends on no other view except to wait for a component that is
not quiet, the order in which the components take their steps makes no difference: the views at the
end of an interleaved run are those of the run that gives each component its steps one component
after the other.
-/

namespace Transitions

variable {σ ι β ν : Type*}

/-- The components of a system do not interfere in the states of an invariant. -/
structure Independent (step : σ → ι → Option σ) (owner : ι → β) (view : β → σ → ν)
    (quiet : ν → Prop) (I : σ → Prop) : Prop where
  invariant : ∀ s l s', I s → step s l = some s' → I s'
  /-- a step changes the view of its owner only -/
  frame : ∀ s l s' b, I s → step s l = some s' → b ≠ owner l → view b s' = view b s
  /-- the owner's view says what a step does to it, and the step can be taken while the other
  components are quiet -/
  follows : ∀ s l s' t, I s → I t → step s l = some s' → view (owner l) t = view (owner l) s →
    (∀ b ≠ owner l, quiet (view b t)) → ∃ t', step t l = some t' ∧
      view (owner l) t' = view (owner l) s'

variable {step : σ → ι → Option σ} {owner : ι → β} {view : β → σ → ν} {quiet : ν → Prop}
  {I : σ → Prop} {s s' t : σ} {ls : List ι} {b : β}

variable [DecidableEq β]

/-- The steps of one component. -/
def stepsOf (owner : ι → β) (b : β) (ls : List ι) : List ι := ls.filter fun l => owner l = b

/-- A component can take the steps it takes in a run without the others taking theirs, from any
state that looks the same to it and in which the others are quiet. -/
theorem Independent.exec_stepsOf (h : Independent step owner view quiet I) (hs : I s) (ht : I t)
    (hview : view b t = view b s) (hquiet : ∀ c ≠ b, quiet (view c t))
    (hrun : exec step s ls = some s') :
    ∃ t', exec step t (stepsOf owner b ls) = some t' ∧ I t' ∧ view b t' = view b s' ∧
      ∀ c ≠ b, view c t' = view c t := by
  induction ls generalizing s t with
  | nil =>
    obtain rfl := Option.some.inj hrun
    exact ⟨t, rfl, ht, hview, fun _ _ => rfl⟩
  | cons l ls ih =>
    obtain ⟨s₁, hstep, hrun⟩ := Option.bind_eq_some_iff.mp hrun
    have hs₁ := h.invariant s l s₁ hs hstep
    by_cases hl : owner l = b
    · subst hl
      obtain ⟨t₁, hstep', hview₁⟩ := h.follows s l s₁ t hs ht hstep hview hquiet
      -- a step of one owner leaves the other views alone
      have hother : ∀ c ≠ owner l, view c t₁ = view c t :=
        fun c hc => h.frame t l t₁ c ht hstep' hc
      have hquiet₁ : ∀ c ≠ owner l, quiet (view c t₁) := fun c hc => hother c hc ▸ hquiet c hc
      obtain ⟨t', hrun', ht', hview', hother'⟩ :=
        ih hs₁ (h.invariant t l t₁ ht hstep') hview₁ hquiet₁ hrun
      refine ⟨t', ?_, ht', hview', fun c hc => (hother' c hc).trans (hother c hc)⟩
      have hcons : stepsOf owner (owner l) (l :: ls) = l :: stepsOf owner (owner l) ls :=
        List.filter_cons_of_pos (decide_eq_true rfl)
      rw [hcons, exec_cons, hstep', Option.bind_some, hrun']
    -- the step of another owner is left out
    · have hcons : stepsOf owner b (l :: ls) = stepsOf owner b ls :=
        List.filter_cons_of_neg (by simpa using hl)
      rw [hcons]
      exact ih hs₁ ht (hview.trans (h.frame s l s₁ b hs hstep (Ne.symm hl)).symm) hquiet hrun

/-- **One component after the other.** From a state where all are quiet to one where all are quiet
again, the components that are given their steps one after the other end with the views they end
with in the interleaved run, and those that are given none keep theirs. -/
theorem Independent.exec_serial (h : Independent step owner view quiet I) (hs : I s)
    (hrun : exec step s ls = some s') (hbefore : ∀ c, quiet (view c s))
    (hafter : ∀ c, quiet (view c s')) (turns : List β) (hnodup : turns.Nodup) :
    ∃ t, exec step s (turns.flatMap fun b => stepsOf owner b ls) = some t ∧ I t ∧
      ∀ c, view c t = view c (if c ∈ turns then s' else s) := by
  induction turns using List.reverseRecOn with
  | nil => exact ⟨s, rfl, hs, fun _ => rfl⟩
  | append_singleton turns b ih =>
    obtain ⟨hnodup, -, hdisjoint⟩ := List.nodup_append.mp hnodup
    have hb : b ∉ turns := fun hmem => hdisjoint b hmem b (List.mem_singleton_self b) rfl
    obtain ⟨t, hrun₁, ht, hview⟩ := ih hnodup
    -- the others have had their turn or not begun it
    have hquiet : ∀ c ≠ b, quiet (view c t) := by
      intro c _
      rw [hview]
      split
      · exact hafter c
      · exact hbefore c
    have hview_b : view b t = view b s := by rw [hview, if_neg hb]
    obtain ⟨t', hrun₂, ht', hview', hother⟩ := h.exec_stepsOf hs ht hview_b hquiet hrun
    refine ⟨t', ?_, ht', fun c => ?_⟩
    · rw [List.flatMap_append, List.flatMap_singleton, exec_append, hrun₁, Option.bind_some, hrun₂]
    · by_cases hc : c = b
      · subst hc
        rw [hview', if_pos (by simp)]
      · rw [hother c hc, hview]
        simp [hc]

end Transitions
