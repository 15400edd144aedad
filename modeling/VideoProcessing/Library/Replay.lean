import Mathlib.Data.List.Basic
import VideoProcessing.Library.Transitions

/-!
# Durable workflows

Code that awaits activities and keeps no state of its own: whenever an activity has settled it is
executed again from its beginning, against the record of the activities it has asked for so far.
`Workflow.replay` is one such execution, and `Workflow.step` the runs of a server that carries out
what it asks for. No run brings the code to a record it does not agree with, and its result is that
of executing it once.
-/

namespace Durable

open Transitions

/-- Workflow code: the activities it awaits together, and how it goes on with their outcomes. -/
inductive Workflow (ι ω ρ : Type*) where
  | done (result : ρ)
  /-- an error of the code itself, which fails the execution of the code and not the workflow -/
  | fault
  | await (calls : List ι) (next : List ω → Workflow ι ω ρ)

/-- The recorded activities in the order they were asked for, with the outcomes known by now. -/
abbrev History (ι ω : Type*) := List (ι × Option ω)

/-- What an execution of the code comes to. -/
inductive Replay (ι ρ : Type*) where
  | finished (result : ρ)
  | faulted
  /-- it asks for these activities and then has to wait -/
  | blocked (commands : List ι)
  /-- the record is not one of this code -/
  | nondeterministic

variable {ι ω ρ : Type*} {w : Workflow ι ω ρ} {h : History ι ω} {i : ℕ} {call : ι} {outcome : ω}

/-- The outcomes of recorded activities that have all settled. -/
def outcomes (h : History ι ω) : Option (List ω) :=
  if h.all fun x => x.2.isSome then some (h.filterMap Prod.snd) else none

/-- Execute the code from its beginning against the record. -/
def Workflow.replay [DecidableEq ι] : Workflow ι ω ρ → History ι ω → Replay ι ρ
  | .done result, h => if h.isEmpty then .finished result else .nondeterministic
  | .fault, h => if h.isEmpty then .faulted else .nondeterministic
  | .await calls next, h =>
    if (h.take calls.length).map Prod.fst = calls then
      match outcomes (h.take calls.length) with
      | some results => (next results).replay (h.drop calls.length)
      | none => if (h.drop calls.length).isEmpty then .blocked [] else .nondeterministic
    else if h.isEmpty then .blocked calls
    else .nondeterministic

/-- Execute the code once, where `answer` gives the outcome of the n-th activity it asks for. -/
def Workflow.direct (answer : ℕ → ω) : ℕ → Workflow ι ω ρ → Option ρ
  | _, .done result => some result
  | _, .fault => none
  | n, .await calls next =>
    (next ((List.range' n calls.length).map answer)).direct answer (n + calls.length)

/-! ## The server -/

/-- An execution as the server knows it. -/
structure Execution (ι ω ρ : Type*) where
  history : History ι ω
  result : Option ρ

inductive Label (ω : Type*) where
  /-- the code is executed, and the server carries out what it asks for -/
  | task
  /-- activity `i` settles -/
  | settle (i : ℕ) (outcome : ω)

def Workflow.step [DecidableEq ι] (w : Workflow ι ω ρ) (e : Execution ι ω ρ) :
    Label ω → Option (Execution ι ω ρ)
  | .task =>
    match e.result, w.replay e.history with
    | none, .blocked commands =>
      some { e with history := e.history ++ commands.map fun call => (call, none) }
    | none, .finished result => some { e with result := some result }
    | _, _ => none
  | .settle i outcome =>
    match e.history[i]? with
    | some (call, none) => some { e with history := e.history.set i (call, some outcome) }
    | _ => none

/-- Nothing has been asked for yet. -/
def Execution.initial : Execution ι ω ρ := ⟨[], none⟩

/-! ## Records the code has left -/

/-- The record is one the code leaves: each batch was asked for as a whole, once the one before it
had settled. -/
inductive Workflow.Leaves : Workflow ι ω ρ → History ι ω → Prop
  | nothing (w : Workflow ι ω ρ) : Leaves w []
  | waiting {calls : List ι} {next : List ω → Workflow ι ω ρ} {h : History ι ω}
      (hcalls : h.map Prod.fst = calls) (hpending : outcomes h = none) :
      Leaves (.await calls next) h
  | settled {calls : List ι} {next : List ω → Workflow ι ω ρ} {h rest : History ι ω}
      {results : List ω} (hcalls : h.map Prod.fst = calls) (hresults : outcomes h = some results)
      (hrest : Leaves (next results) rest) : Leaves (.await calls next) (h ++ rest)

/-- All calls have an outcome. -/
theorem outcomes_eq_some {results : List ω} : outcomes h = some results ↔
    (∀ x ∈ h, x.2.isSome = true) ∧ h.filterMap Prod.snd = results := by
  simp only [outcomes, Option.ite_none_right_eq_some, List.all_eq_true, Option.some.injEq]

/-- Some call has none. -/
theorem outcomes_eq_none : outcomes h = none ↔ ∃ x ∈ h, x.2 = none := by
  simp [outcomes]

/-- The batch at the beginning of a record. -/
theorem Workflow.replay_await [DecidableEq ι] {calls : List ι} (next : List ω → Workflow ι ω ρ)
    (rest : History ι ω) (hcalls : h.map Prod.fst = calls) :
    (Workflow.await calls next).replay (h ++ rest) =
      match outcomes h with
      | some results => (next results).replay rest
      | none => if rest.isEmpty then .blocked [] else .nondeterministic := by
  have hlength : calls.length = h.length := by rw [← hcalls, List.length_map]
  rw [Workflow.replay, hlength, List.take_left, List.drop_left, if_pos hcalls]

/-- Code that has asked for nothing yet asks for its first activities. -/
theorem Workflow.leaves_of_replay_nil [DecidableEq ι] {commands : List ι}
    (hblocked : w.replay [] = .blocked commands) :
    w.Leaves (commands.map fun call => (call, none)) := by
  induction w with
  | done | fault => cases hblocked
  | await calls next ih =>
    cases calls with
    | nil =>
      -- an empty batch has settled at once
      exact .settled (h := []) rfl rfl (ih [] hblocked)
    | cons call calls =>
      obtain rfl := Replay.blocked.inj hblocked
      refine .waiting ?_ ?_
      · rw [List.map_map]
        exact List.map_id _
      · exact outcomes_eq_none.mpr ⟨(call, none), List.mem_cons_self, rfl⟩

/-- What the code asks for extends the record by what it leaves. -/
theorem Workflow.Leaves.task [DecidableEq ι] {commands : List ι} (hleaves : w.Leaves h)
    (hblocked : w.replay h = .blocked commands) :
    w.Leaves (h ++ commands.map fun call => (call, none)) := by
  induction hleaves with
  | nothing w => exact Workflow.leaves_of_replay_nil hblocked
  | @waiting calls next h hcalls hpending =>
    have hreplay := Workflow.replay_await next [] hcalls
    rw [List.append_nil, hblocked, hpending] at hreplay
    obtain rfl := Replay.blocked.inj hreplay
    rw [List.map_nil, List.append_nil]
    exact .waiting hcalls hpending
  | @settled calls next h rest results hcalls hresults _ ih =>
    rw [Workflow.replay_await _ _ hcalls, hresults] at hblocked
    rw [List.append_assoc]
    exact .settled hcalls hresults (ih hblocked)

/-- An outcome does not change what was called. -/
theorem map_fst_set (hi : h[i]? = some (call, none)) (outcome : ω) :
    (h.set i (call, some outcome)).map Prod.fst = h.map Prod.fst := by
  rw [List.map_set]
  refine List.ext_getElem? fun j => ?_
  rw [List.getElem?_set]
  split
  · rename_i hij
    subst hij
    obtain ⟨hlt, -⟩ := List.getElem?_eq_some_iff.mp hi
    rw [if_pos (by rwa [List.length_map]), List.getElem?_map, hi, Option.map_some]
  · rfl

/-- An activity that settles leaves the record one of the code. -/
theorem Workflow.Leaves.settle (hleaves : w.Leaves h) (hi : h[i]? = some (call, none)) :
    w.Leaves (h.set i (call, some outcome)) := by
  induction hleaves generalizing i with
  | nothing w => cases hi
  | @waiting calls next h hcalls hpending =>
    have hcalls' := (map_fst_set hi outcome).trans hcalls
    cases hresults : outcomes (h.set i (call, some outcome)) with
    | none => exact .waiting hcalls' hresults
    | some results =>
      rw [← List.append_nil (h.set i (call, some outcome))]
      exact .settled hcalls' hresults (.nothing _)
  | @settled calls next h rest results hcalls hresults _ ih =>
    have hge : h.length ≤ i := by
      by_contra hlt
      rw [List.getElem?_append_left (Nat.not_le.mp hlt)] at hi
      have hsome := (outcomes_eq_some.mp hresults).1 _ (List.mem_of_getElem? hi)
      cases hsome
    rw [List.getElem?_append_right hge] at hi
    rw [List.set_append_right i _ hge]
    exact .settled hcalls hresults (ih hi)

/-- A step leaves a history the workflow accepts. -/
theorem Workflow.Leaves.step [DecidableEq ι] {e e' : Execution ι ω ρ} {l : Label ω}
    (hleaves : w.Leaves e.history) (hstep : w.step e l = some e') : w.Leaves e'.history := by
  cases l with
  | task =>
    rw [Workflow.step] at hstep
    split at hstep
    · rename_i hblocked
      obtain rfl := Option.some.inj hstep
      exact hleaves.task hblocked
    · obtain rfl := Option.some.inj hstep
      exact hleaves
    · cases hstep
  | settle i outcome =>
    rw [Workflow.step] at hstep
    split at hstep
    · rename_i hi
      obtain rfl := Option.some.inj hstep
      exact hleaves.settle hi
    · cases hstep

/-- So does a run. -/
theorem Workflow.leaves_of_exec [DecidableEq ι] {e : Execution ι ω ρ} {ls : List (Label ω)}
    (hrun : exec w.step .initial ls = some e) : w.Leaves e.history :=
  exec_invariant (I := fun e => w.Leaves e.history) (fun _ _ _ hleaves hstep => hleaves.step hstep)
    (.nothing w) hrun

/-- An activity that settles, or does not, by a step of the server. -/
theorem Workflow.reaches_settle [DecidableEq ι] (w : Workflow ι ω ρ) {result : Option ρ}
    (hi : h[i]? = some (call, none)) (known : Option ω) :
    Reaches w.step ⟨h, result⟩ ⟨h.set i (call, known), result⟩ := by
  cases known with
  | none =>
    obtain ⟨hlt, hget⟩ := List.getElem?_eq_some_iff.mp hi
    rw [← hget, List.set_getElem_self]
    exact .refl _ _
  | some outcome =>
    have hstep : w.step ⟨h, result⟩ (.settle i outcome) =
        some ⟨h.set i (call, some outcome), result⟩ := by simp only [Workflow.step, hi]
    exact .step hstep

/-! ## Replaying them -/

/-- The code agrees with a record it has left. -/
theorem Workflow.Leaves.replay_ne [DecidableEq ι] (hleaves : w.Leaves h) :
    w.replay h ≠ .nondeterministic := by
  induction hleaves with
  | nothing w =>
    induction w with
    | done | fault => exact fun heq => by cases heq
    | await calls next ih =>
      cases calls with
      | nil => exact ih []
      | cons => exact fun heq => by cases heq
  | @waiting calls next h hcalls hpending =>
    have hreplay := Workflow.replay_await next [] hcalls
    rw [List.append_nil, hpending] at hreplay
    rw [hreplay]
    exact fun heq => by cases heq
  | settled hcalls hresults _ ih =>
    rw [Workflow.replay_await _ _ hcalls, hresults]
    exact ih

/-- Code that is over agrees with an empty record only. -/
theorem Workflow.replay_done [DecidableEq ι] {result : ρ}
    (hne : (Workflow.done result : Workflow ι ω ρ).replay h ≠ .nondeterministic) :
    (Workflow.done result : Workflow ι ω ρ).replay h = .finished result := by
  rw [Workflow.replay] at hne ⊢
  split
  · rfl
  · rename_i hrest
    exact absurd (if_neg hrest) hne

/-- The settled activities of a record have these outcomes. -/
def Answers (answer : ℕ → ω) (n : ℕ) (h : History ι ω) : Prop :=
  ∀ i call outcome, h[i]? = some (call, some outcome) → answer (n + i) = outcome

/-- The outcomes are the answers in their order. -/
theorem Answers.outcomes {answer : ℕ → ω} {n : ℕ} (hanswers : Answers answer n h)
    {results : List ω} (hresults : outcomes h = some results) :
    (List.range' n h.length).map answer = results := by
  obtain ⟨hall, rfl⟩ := outcomes_eq_some.mp hresults
  induction h generalizing n with
  | nil => rfl
  | cons x h ih =>
    obtain ⟨call, o⟩ := x
    obtain ⟨outcome, rfl⟩ := Option.isSome_iff_exists.mp (hall _ List.mem_cons_self)
    have htail : ∀ y ∈ h, y.2.isSome = true := fun y hy => hall y (List.mem_cons_of_mem _ hy)
    have hrest : Answers answer (n + 1) h := fun i c o hi => by
      rw [Nat.add_assoc, Nat.add_comm 1 i]
      exact hanswers (i + 1) c o hi
    rw [List.length_cons, List.range'_succ, List.map_cons,
      ih hrest htail (outcomes_eq_some.mpr ⟨htail, rfl⟩)]
    exact congrArg (· :: _) (hanswers 0 call outcome rfl)

/-- Replaying a record to the end is executing the code once. -/
theorem Workflow.Leaves.direct [DecidableEq ι] {answer : ℕ → ω} {n : ℕ} {result : ρ}
    (hleaves : w.Leaves h) (hanswers : Answers answer n h)
    (hfinished : w.replay h = .finished result) : w.direct answer n = some result := by
  induction hleaves generalizing n with
  | nothing w =>
    induction w with
    | done final =>
      obtain rfl := Replay.finished.inj hfinished
      rfl
    | fault => cases hfinished
    | await calls next ih =>
      cases calls with
      | nil => exact ih [] hfinished
      | cons => cases hfinished
  | @waiting calls next h hcalls hpending =>
    -- the code waits, so it has not finished
    have hreplay := Workflow.replay_await next [] hcalls
    rw [List.append_nil, hpending, hfinished] at hreplay
    cases hreplay
  | @settled calls next h rest results hcalls hresults _ ih =>
    rw [Workflow.replay_await _ _ hcalls, hresults] at hfinished
    have hlength : calls.length = h.length := by rw [← hcalls, List.length_map]
    -- the answers are split at the end of this batch
    have hbatch : Answers answer n h := fun i call outcome hi => by
      obtain ⟨hlt, -⟩ := List.getElem?_eq_some_iff.mp hi
      exact hanswers i call outcome ((List.getElem?_append_left hlt).trans hi)
    have hrest : Answers answer (n + h.length) rest := fun i call outcome hi => by
      rw [Nat.add_assoc]
      refine hanswers (h.length + i) call outcome ?_
      rw [List.getElem?_append_right (Nat.le_add_right _ _), Nat.add_sub_cancel_left, hi]
    rw [Workflow.direct, hlength, hbatch.outcomes hresults]
    exact ih hrest hfinished

/-- However the activities settle and however often the code is executed again, the result is that
of executing it once. -/
theorem Workflow.exec_direct [DecidableEq ι] {e : Execution ι ω ρ} {ls : List (Label ω)}
    {answer : ℕ → ω} {result : ρ} (hrun : exec w.step .initial ls = some e)
    (hresult : e.result = some result) (hanswers : Answers answer 0 e.history) :
    w.direct answer 0 = some result := by
  have hinvariant : w.Leaves e.history ∧ ∀ answer result, e.result = some result →
      Answers answer 0 e.history → w.direct answer 0 = some result := by
    -- over the run: the history is one the code leaves, and a result is the direct one
    refine exec_invariant (I := fun e : Execution ι ω ρ => w.Leaves e.history ∧
      ∀ answer result, e.result = some result → Answers answer 0 e.history →
        w.direct answer 0 = some result) ?_ ⟨.nothing w, fun _ _ h => by cases h⟩ hrun
    rintro e l e' ⟨hleaves, hdirect⟩ hstep
    refine ⟨hleaves.step hstep, fun answer result hresult hanswers => ?_⟩
    cases l with
    | task =>
      rw [Workflow.step] at hstep
      split at hstep
      · rename_i hnone _
        obtain rfl := Option.some.inj hstep
        cases hnone.symm.trans hresult
      · rename_i hfinished
        obtain rfl := Option.some.inj hstep
        obtain rfl := Option.some.inj hresult
        exact hleaves.direct hanswers hfinished
      · cases hstep
    | settle i outcome =>
      rw [Workflow.step] at hstep
      split at hstep
      · rename_i call hi
        obtain rfl := Option.some.inj hstep
        refine hdirect answer result hresult fun j c o hj => hanswers j c o ?_
        -- the settled call had no outcome before, so the outcomes known do not change
        have hne : i ≠ j := by
          rintro rfl
          cases hi.symm.trans hj
        rw [List.getElem?_set_ne hne, hj]
      · cases hstep
  exact hinvariant.2 answer result hresult hanswers

end Durable
