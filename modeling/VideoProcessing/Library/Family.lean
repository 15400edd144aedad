import Mathlib.Data.List.Basic
import VideoProcessing.Library.Transitions

/-!
# Systems side by side

Any number of systems with one step function, which join one after another and share nothing. A
label is a system that joins, or a step of the one at some place. `exec_family` says that the runs
of the family are the interleavings of one run of each member.
-/

namespace Transitions

inductive FamilyLabel (σ ι : Type*) where
  | join (s : σ)
  | step (v : ℕ) (l : ι)

variable {σ ι : Type*} {step : σ → ι → Option σ}

/-- A member takes a step by itself. -/
def family (step : σ → ι → Option σ) (ss : List σ) : FamilyLabel σ ι → Option (List σ)
  | .join s => some (ss ++ [s])
  | .step v l => ss[v]?.bind fun s => (step s l).map fun s' => ss.set v s'

/-- The systems that join, as they are then. -/
def joining : List (FamilyLabel σ ι) → List σ
  | [] => []
  | .join s :: ls => s :: joining ls
  | .step _ _ :: ls => joining ls

/-- The steps of the member at place `v`. -/
def stepsOn (v : ℕ) : List (FamilyLabel σ ι) → List ι
  | [] => []
  | .join _ :: ls => stepsOn v ls
  | .step w l :: ls => if w = v then l :: stepsOn v ls else stepsOn v ls

/-- With `n` members to begin with, none takes a step before it has joined. -/
def JoinFirst : ℕ → List (FamilyLabel σ ι) → Prop
  | _, [] => True
  | n, .join _ :: ls => JoinFirst (n + 1) ls
  | n, .step v _ :: ls => v < n ∧ JoinFirst n ls

/-- A step of a family is a step of one member. -/
theorem family_step_eq_some {ss ss' : List σ} {v : ℕ} {l : ι} :
    family step ss (.step v l) = some ss' ↔
      ∃ s s', ss[v]? = some s ∧ step s l = some s' ∧ ss' = ss.set v s' := by
  simp only [family, Option.bind_eq_some_iff, Option.map_eq_some_iff]
  constructor
  · rintro ⟨s, hs, s', hstep, rfl⟩
    exact ⟨s, s', hs, hstep, rfl⟩
  · rintro ⟨s, s', hs, hstep, rfl⟩
    exact ⟨s, hs, s', hstep, rfl⟩

/-- The members after a step of the one at place `v`. -/
theorem getElem?_set_append {ss : List σ} {v : ℕ} {s : σ} (hs : ss[v]? = some s) (s' : σ)
    (others : List σ) (w : ℕ) :
    (ss.set v s' ++ others)[w]? = if w = v then some s' else (ss ++ others)[w]? := by
  obtain ⟨hlt, -⟩ := List.getElem?_eq_some_iff.mp hs
  rw [← List.set_append_left _ _ hlt, List.getElem?_set]
  have hlt' : v < (ss ++ others).length := by
    rw [List.length_append]
    omega
  by_cases hw : w = v
  · subst hw
    rw [if_pos rfl, if_pos rfl, if_pos hlt']
  · rw [if_neg (Ne.symm hw), if_neg hw]

/-- The runs of a family are the interleavings of one run of each member. -/
theorem exec_family {ss ss' : List σ} {ls : List (FamilyLabel σ ι)} :
    exec (family step) ss ls = some ss' ↔
      JoinFirst ss.length ls ∧ ss'.length = (ss ++ joining ls).length ∧
      ∀ v s, (ss ++ joining ls)[v]? = some s → exec step s (stepsOn v ls) = ss'[v]? := by
  induction ls generalizing ss with
  | nil =>
    rw [exec_nil, joining, List.append_nil, Option.some.injEq]
    constructor
    · rintro rfl
      exact ⟨trivial, rfl, fun v s hs => hs.symm⟩
    · rintro ⟨-, hlength, hruns⟩
      refine List.ext_getElem? fun v => ?_
      cases hs : ss[v]? with
      | none =>
        rw [List.getElem?_eq_none_iff] at hs
        exact (List.getElem?_eq_none (hlength ▸ hs)).symm
      | some s => exact hruns v s hs
  | cons l ls ih =>
    rw [exec_cons]
    cases l with
    | join s =>
      have hjoined : ss ++ joining (.join s :: ls) = (ss ++ [s]) ++ joining ls :=
        List.append_cons ss s (joining ls)
      have hlength : (ss ++ [s]).length = ss.length + 1 := List.length_append
      rw [family, Option.bind_some, ih, hjoined, hlength]
      exact Iff.rfl
    | step v l =>
      rw [joining, Option.bind_eq_some_iff]
      constructor
      · rintro ⟨_, hfamily, hrun⟩
        obtain ⟨s, s', hs, hstep, rfl⟩ := family_step_eq_some.mp hfamily
        obtain ⟨hjoin, hlength, hruns⟩ := ih.mp hrun
        rw [List.length_set] at hjoin
        rw [List.length_append, List.length_set, ← List.length_append] at hlength
        obtain ⟨hlt, -⟩ := List.getElem?_eq_some_iff.mp hs
        refine ⟨⟨hlt, hjoin⟩, hlength, fun w t ht => ?_⟩
        have hget := getElem?_set_append hs s' (joining ls) w
        by_cases hw : w = v
        · subst hw
          obtain rfl : s = t := by
            rw [List.getElem?_append_left hlt, hs] at ht
            exact Option.some.inj ht
          rw [if_pos rfl] at hget
          rw [stepsOn, if_pos rfl, exec_cons, hstep, Option.bind_some]
          exact hruns w s' hget
        · rw [if_neg hw, ht] at hget
          rw [stepsOn, if_neg (Ne.symm hw)]
          exact hruns w t hget
      · rintro ⟨⟨hlt, hjoin⟩, hlength, hruns⟩
        obtain ⟨s, hs⟩ : ∃ s, ss[v]? = some s := ⟨ss[v], List.getElem?_eq_getElem hlt⟩
        -- the member's own run begins with this step
        have hrun := hruns v s ((List.getElem?_append_left hlt).trans hs)
        have hlt' : v < ss'.length := by
          rw [hlength, List.length_append]
          omega
        rw [stepsOn, if_pos rfl, exec_cons, List.getElem?_eq_getElem hlt'] at hrun
        obtain ⟨s', hstep, hrun⟩ := Option.bind_eq_some_iff.mp hrun
        refine ⟨ss.set v s', family_step_eq_some.mpr ⟨s, s', hs, hstep, rfl⟩, ih.mpr ⟨?_, ?_, ?_⟩⟩
        · rwa [List.length_set]
        · rw [hlength, List.length_append, List.length_append, List.length_set]
        · intro w t ht
          rw [getElem?_set_append hs] at ht
          by_cases hw : w = v
          · subst hw
            rw [if_pos rfl] at ht
            obtain rfl := Option.some.inj ht
            rw [hrun, List.getElem?_eq_getElem hlt']
          · rw [if_neg hw] at ht
            have hrun := hruns w t ht
            rwa [stepsOn, if_neg (Ne.symm hw)] at hrun

end Transitions
