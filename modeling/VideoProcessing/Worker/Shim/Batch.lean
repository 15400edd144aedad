import VideoProcessing.Library.Transitions
import VideoProcessing.Worker.Shim.Handling

/-!
# A batch of messages

One turn of the loop of `run`: the calls of `_handle_message` for the messages of a batch, under
`asyncio.gather` without `return_exceptions`. The calls are interleaved at their awaits in any way.
`gather` makes a task of every call and each of them runs to its first await before any is resumed,
so an exception of `delete_message`, the only one that leaves a call, finds all of them under way.
The first one goes through `gather` out of `run`, and cancels the calls that are left; until it gets
there they may go on.

What a call comes to depends on its own message and its own answers only, so each plan has an
outcome before the batch begins, which every step of the batch keeps.
-/

namespace VideoProcessing.Shim

open Python Transitions

/-- Where `run` is. -/
inductive Loop where
  /-- awaiting `gather` -/
  | gathering
  /-- at the next `receive_message` -/
  | receiving
  /-- an exception has left it -/
  | ended
deriving DecidableEq, Repr

structure Polling where
  calls : List Handling
  loop : Loop

inductive Turn where
  /-- call `i` runs to its next await -/
  | call (i : ℕ)
  /-- `gather` returns -/
  | collect
  /-- an exception leaves `run` -/
  | leave
deriving DecidableEq, Repr

/-- The messages of a batch have been received. -/
def Polling.start (batch : List Plan) : Polling where
  calls := batch.map fun plan => .created plan.message
  loop := if batch.isEmpty then .receiving else .gathering

/-- The exception of `delete_message` left the call. -/
def Handling.failed : Handling → Bool
  | .raised => true
  | _ => false

/-- The task of the call has run to its first await. -/
def Handling.begun : Handling → Bool
  | .created _ => false
  | _ => true

def Polling.step (batch : List Plan) (p : Polling) (turn : Turn) : Option Polling :=
  if p.loop ≠ .gathering then none
  else match turn with
    | .call i => batch[i]?.bind fun plan => p.calls[i]?.bind fun call =>
      (plan.advance call).map fun call' => { p with calls := p.calls.set i call' }
    | .collect =>
      if p.calls.all fun call => call.over && !call.failed then some { p with loop := .receiving }
      else none
    | .leave =>
      if p.calls.any Handling.failed && p.calls.all Handling.begun then
        some { p with loop := .ended }
      else none

/-- Every message whose handling meets no exception has been deleted, and the loop has gone on. -/
def Isolated (batch : List Plan) (p : Polling) : Prop :=
  p.loop = .receiving ∧ ∀ (i : ℕ) (plan : Plan), batch[i]? = some plan →
    Settles plan.outcomes plan.message → plan.deleteOk = true → p.calls[i]? = some .deleted

/-- The end that each call of a batch comes to. -/
def Plan.final (plan : Plan) : Handling := plan.outcome (.created plan.message)

/-- What holds in every state of a batch. -/
structure Polling.Planned (batch : List Plan) (p : Polling) : Prop where
  length : p.calls.length = batch.length
  outcome : ∀ (i : ℕ) (plan : Plan) (call : Handling), batch[i]? = some plan →
    p.calls[i]? = some call → plan.outcome call = plan.final
  collected : p.loop = .receiving → ∀ call ∈ p.calls, call.over = true ∧ call.failed = false

/-- A message whose events all settle gets to its delete. -/
theorem Plan.final_of_settles {plan : Plan} (h : Settles plan.outcomes plan.message) :
    plan.final = if plan.deleteOk then .deleted else .raised := by
  rw [final, outcome, processMessage_eq_some.mpr h]
  rfl

/-- Only a delete that raises leaves a call by an exception. -/
theorem Plan.settles_of_final {plan : Plan} (h : plan.final = .raised) :
    Settles plan.outcomes plan.message ∧ plan.deleteOk = false := by
  rw [final, outcome] at h
  cases hprocess : processMessage plan.outcomes plan.message with
  | none =>
    rw [hprocess] at h
    cases h
  | some =>
    rw [hprocess, finish] at h
    refine ⟨processMessage_eq_some.mp hprocess, ?_⟩
    cases hok : plan.deleteOk with
    | false => rfl
    | true =>
      rw [hok] at h
      cases h

/-- A call that an exception left has no other state. -/
theorem Handling.eq_raised {h : Handling} (hfailed : h.failed = true) : h = .raised := by
  cases h <;> first | rfl | exact nomatch hfailed

/-- A batch that has been received is at the start of its plans. -/
theorem Polling.planned_start (batch : List Plan) : (start batch).Planned batch where
  length := List.length_map ..
  outcome i plan call hplan hcall := by
    rw [start, List.getElem?_map, hplan] at hcall
    obtain rfl := Option.some.inj hcall
    rfl
  collected hloop call hcall := by
    unfold start at hloop hcall
    dsimp only at hloop hcall
    cases batch with
    | nil => exact nomatch hcall
    | cons => exact nomatch hloop

/-- The bound on what the turns of a batch can still be. -/
def Polling.fuel (p : Polling) : ℕ :=
  (p.calls.map Handling.fuel).sum + if p.loop = .gathering then 1 else 0

/-- Replacing an element by a smaller one makes the sum smaller. -/
theorem sum_map_set_lt {α : Type*} {f : α → ℕ} {l : List α} {i : ℕ} {a b : α} (h : l[i]? = some a)
    (hlt : f b < f a) : ((l.set i b).map f).sum < (l.map f).sum := by
  induction l generalizing i with
  | nil => exact nomatch h
  | cons c l ih =>
    cases i with
    | zero =>
      obtain rfl := Option.some.inj h
      simp only [List.set_cons_zero, List.map_cons, List.sum_cons]
      omega
    | succ i =>
      have hrest := ih h
      simp only [List.set_cons_succ, List.map_cons, List.sum_cons]
      omega

/-- A turn keeps every call to its plan, and what can still be done gets less. -/
theorem Polling.Planned.step {batch : List Plan} {p p' : Polling} {turn : Turn}
    (h : p.Planned batch) (hstep : p.step batch turn = some p') :
    p'.Planned batch ∧ p'.fuel < p.fuel := by
  unfold Polling.step at hstep
  split at hstep
  · exact nomatch hstep
  · rename_i hloop
    have hloop : p.loop = .gathering := not_not.mp hloop
    cases turn with
    | call i =>
      obtain ⟨plan, hplan, hstep⟩ := Option.bind_eq_some_iff.mp hstep
      obtain ⟨call, hcall, hstep⟩ := Option.bind_eq_some_iff.mp hstep
      obtain ⟨call', hadvance, rfl⟩ := Option.map_eq_some_iff.mp hstep
      refine ⟨⟨(List.length_set ..).trans h.length, ?_, ?_⟩, ?_⟩
      · intro j plan' call'' hplan' hcall''
        -- the call that moved keeps its outcome, the others have not moved
        by_cases hij : i = j
        · subst hij
          obtain rfl := Option.some.inj (hplan.symm.trans hplan')
          obtain rfl : call' = call'' := by
            rw [List.getElem?_set_self (List.getElem?_eq_some_iff.mp hcall).1] at hcall''
            exact Option.some.inj hcall''
          rw [Plan.outcome_advance hadvance]
          exact h.outcome i plan call hplan hcall
        · rw [List.getElem?_set_ne hij] at hcall''
          exact h.outcome j plan' call'' hplan' hcall''
      · intro hreceiving
        exact nomatch hloop.symm.trans hreceiving
      -- one call has less to do, the others as much
      · have hlt := sum_map_set_lt hcall (Handling.fuel_resume hadvance)
        exact Nat.add_lt_add_right hlt _
    | collect =>
      simp only at hstep
      split at hstep
      -- gather has collected every call
      · rename_i hall
        obtain rfl := Option.some.inj hstep
        refine ⟨⟨h.length, h.outcome, fun _ call hcall => ?_⟩, ?_⟩
        · simpa using List.all_eq_true.mp hall call hcall
        · simp [Polling.fuel, hloop]
      · exact nomatch hstep
    | leave =>
      simp only at hstep
      split at hstep
      · obtain rfl := Option.some.inj hstep
        exact ⟨⟨h.length, h.outcome, fun hreceiving => nomatch hreceiving⟩, by
          simp [Polling.fuel, hloop]⟩
      · exact nomatch hstep

/-- A call that has ended came to the end its plan gives it. -/
theorem Polling.Planned.eq_final {batch : List Plan} {p : Polling} (h : p.Planned batch) {i : ℕ}
    {plan : Plan} {call : Handling} (hplan : batch[i]? = some plan)
    (hcall : p.calls[i]? = some call) (hover : call.over = true) : call = plan.final :=
  (Plan.outcome_of_over hover).symm.trans (h.outcome i plan call hplan hcall)

/-- The plan of a call. -/
theorem Polling.Planned.exists_plan {batch : List Plan} {p : Polling} (h : p.Planned batch)
    {call : Handling} (hmem : call ∈ p.calls) :
    ∃ (i : ℕ) (plan : Plan), batch[i]? = some plan ∧ p.calls[i]? = some call := by
  obtain ⟨i, hi, rfl⟩ := List.getElem_of_mem hmem
  exact ⟨i, _, List.getElem?_eq_getElem (h.length ▸ hi), List.getElem?_eq_getElem hi⟩

/-- Where no delete raises, no exception leaves a call. -/
theorem Polling.Planned.not_failed {batch : List Plan} {p : Polling} (h : p.Planned batch)
    (hbatch : ∀ plan ∈ batch, Settles plan.outcomes plan.message → plan.deleteOk = true)
    {call : Handling} (hmem : call ∈ p.calls) : call.failed = false := by
  cases hfailed : call.failed with
  | false => rfl
  | true =>
    obtain rfl := Handling.eq_raised hfailed
    obtain ⟨i, plan, hplan, hcall⟩ := h.exists_plan hmem
    obtain ⟨hsettles, hok⟩ := Plan.settles_of_final (h.eq_final hplan hcall rfl).symm
    exact nomatch hok.symm.trans (hbatch plan (List.mem_of_getElem? hplan) hsettles)

/-- Then `run` goes on as long as `gather` is awaited. -/
theorem Polling.Planned.exists_step {batch : List Plan} {p : Polling} (h : p.Planned batch)
    (hbatch : ∀ plan ∈ batch, Settles plan.outcomes plan.message → plan.deleteOk = true)
    (hloop : p.loop = .gathering) : ∃ turn, (p.step batch turn).isSome := by
  by_cases hall : ∀ call ∈ p.calls, call.over = true
  · have hcollect : (p.calls.all fun call => call.over && !call.failed) = true := by
      refine List.all_eq_true.mpr fun call hmem => ?_
      rw [hall call hmem, h.not_failed hbatch hmem]
      rfl
    exact ⟨.collect, by simp [Polling.step, hloop, hcollect]⟩
  · obtain ⟨call, hmem, hover⟩ : ∃ call ∈ p.calls, call.over = false := by simpa using hall
    obtain ⟨i, plan, hplan, hcall⟩ := h.exists_plan hmem
    obtain ⟨call', hadvance⟩ := Option.isSome_iff_exists.mp (plan.isSome_advance hover)
    exact ⟨.call i, by simp [Polling.step, hloop, hplan, hcall, hadvance]⟩

/-- And no exception leaves `run`. -/
theorem Polling.Planned.loop_ne_ended {batch : List Plan} {p p' : Polling} {turn : Turn}
    (h : p.Planned batch)
    (hbatch : ∀ plan ∈ batch, Settles plan.outcomes plan.message → plan.deleteOk = true)
    (hloop : p.loop ≠ .ended) (hstep : p.step batch turn = some p') : p'.loop ≠ .ended := by
  unfold Polling.step at hstep
  split at hstep
  · exact nomatch hstep
  · cases turn with
    | call i =>
      obtain ⟨plan, -, hstep⟩ := Option.bind_eq_some_iff.mp hstep
      obtain ⟨call, -, hstep⟩ := Option.bind_eq_some_iff.mp hstep
      obtain ⟨call', -, rfl⟩ := Option.map_eq_some_iff.mp hstep
      exact hloop
    | collect =>
      simp only at hstep
      split at hstep
      · exact Option.some.inj hstep ▸ nofun
      · exact nomatch hstep
    | leave =>
      simp only at hstep
      split at hstep
      · rename_i hany
        obtain ⟨hany, -⟩ := Bool.and_eq_true_iff.mp hany
        -- the loop ends by a call that raised, and no call of this batch can
        obtain ⟨call, hmem, hfailed⟩ := List.any_eq_true.mp hany
        exact nomatch hfailed.symm.trans (h.not_failed hbatch hmem)
      · exact nomatch hstep

/-- Once `gather` has returned, what was handled without an exception is deleted. -/
theorem Polling.Planned.isolated {batch : List Plan} {p : Polling} (h : p.Planned batch)
    (hloop : p.loop = .receiving) : Isolated batch p := by
  refine ⟨hloop, fun i plan hplan hsettles hok => ?_⟩
  have hi : i < p.calls.length := h.length ▸ (List.getElem?_eq_some_iff.mp hplan).1
  have hcall : p.calls[i]? = some p.calls[i] := List.getElem?_eq_getElem hi
  obtain ⟨hover, -⟩ := h.collected hloop _ (List.getElem_mem hi)
  rw [hcall, h.eq_final hplan hcall hover, Plan.final_of_settles hsettles, hok]
  rfl

/-- A batch is isolated exactly when no delete that is reached raises. -/
theorem batch_isolated_iff (batch : List Plan) :
    Inevitable (Polling.step batch) (Isolated batch) (.start batch) ↔
      ∀ plan ∈ batch, Settles plan.outcomes plan.message → plan.deleteOk = true := by
  constructor
  · intro hinevitable plan hmem hsettles
    obtain ⟨turns, p, hrun, -, hloop, -⟩ := hinevitable.exists_exec
    have hplanned : p.Planned batch :=
      exec_invariant (fun _ _ _ h hstep => (h.step hstep).1) (Polling.planned_start batch) hrun
    -- the call of the message has ended without an exception
    obtain ⟨i, hi, rfl⟩ := List.getElem_of_mem hmem
    have hi' : i < p.calls.length := hplanned.length ▸ hi
    obtain ⟨hover, hfailed⟩ := hplanned.collected hloop _ (List.getElem_mem hi')
    have hfinal :=
      hplanned.eq_final (List.getElem?_eq_getElem hi) (List.getElem?_eq_getElem hi') hover
    rw [Plan.final_of_settles hsettles] at hfinal
    cases hok : (batch[i]).deleteOk with
    | true => rfl
    | false =>
      rw [hfinal, hok] at hfailed
      exact nomatch hfailed
  · intro hbatch
    refine inevitable_of_measure (I := fun p => p.Planned batch ∧ p.loop ≠ .ended) Polling.fuel
      ?_ ?_ ⟨Polling.planned_start batch, ?_⟩
    · rintro p turn p' ⟨hplanned, hloop⟩ hstep
      obtain ⟨hplanned', hlt⟩ := hplanned.step hstep
      exact ⟨⟨hplanned', hplanned.loop_ne_ended hbatch hloop hstep⟩, hlt⟩
    · rintro p ⟨hplanned, hended⟩ hstuck
      cases hloop : p.loop with
      | gathering =>
        obtain ⟨turn, hturn⟩ := hplanned.exists_step hbatch hloop
        rw [hstuck turn] at hturn
        exact nomatch hturn
      | receiving => exact hplanned.isolated hloop
      | ended => exact absurd hloop hended
    · unfold Polling.start
      split <;> exact nofun

/-- The event S3 sends when a notification is configured, in a message whose delete succeeds or
raises. -/
def testEvent (receiptHandle : Str) (deleteOk : Bool) : Plan where
  message := ⟨Json.dumps (.object [(str "Event", .string (str "s3:TestEvent"))]), receiptHandle⟩
  outcomes := ⟨fun _ _ => some none, fun _ => .started⟩
  deleteOk := deleteOk

def testEvents : List Plan := [testEvent (str "receipt-1") false, testEvent (str "receipt-2") true]

/-- Both calls get to their deletes. The first one raises, and the second call is cut off at its
own. -/
theorem testEvents_not_isolated :
    (∃ turns p, exec (Polling.step testEvents) (.start testEvents) turns = some p ∧
      p.loop = .ended ∧ p.calls[1]?.any Handling.over = false) ∧
    ¬ Inevitable (Polling.step testEvents) (Isolated testEvents) (.start testEvents) := by
  have hany : (exec (Polling.step testEvents) (.start testEvents)
      [.call 0, .call 1, .call 0, .leave]).any
      (fun p => p.loop = .ended ∧ p.calls[1]?.any Handling.over = false) = true := by decide +kernel
  obtain ⟨p, hrun, hp⟩ := (Option.any_eq_true _ _).mp hany
  obtain ⟨hended, hcall⟩ := of_decide_eq_true hp
  refine ⟨⟨_, p, hrun, hended, hcall⟩, fun hinevitable => ?_⟩
  have hstuck : ∀ turn, Polling.step testEvents p turn = none := fun turn => by
    simp [Polling.step, hended]
  exact nomatch hended.symm.trans (hinevitable.of_exec hrun hstuck).1

end VideoProcessing.Shim
