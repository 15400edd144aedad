import Mathlib.Data.List.Basic
import Mathlib.Logic.Basic

/-!
# Scripts: programs that await and hold resources

A `Script` is a program cut at its awaits. Between two awaits it acquires and releases resources;
an awaited operation replies, and the script goes on with the reply. Exceptions and local variables
are monad transformers over scripts, so a resource held by `closing` is closed and released however
its body ends, and an exception of its closing takes the place of the body's end. `Script.wp` folds
what each operation does to an observed state over a script: the weakest precondition of a
postcondition on the script's value and the state it ends in.
-/

namespace Coroutine

inductive Script {Op : Type} (Reply : Op → Type) (Res α : Type) : Type
  | done (a : α)
  | acquire (r : Res) (rest : Script Reply Res α)
  | release (r : Res) (rest : Script Reply Res α)
  | await (op : Op) (rest : Reply op → Script Reply Res α)

variable {Op : Type} {Reply : Op → Type} {Res α β : Type}

def Script.bind : Script Reply Res α → (α → Script Reply Res β) → Script Reply Res β
  | .done a, f => f a
  | .acquire r rest, f => .acquire r (rest.bind f)
  | .release r rest, f => .release r (rest.bind f)
  | .await op rest, f => .await op fun reply => (rest reply).bind f

instance : Monad (Script Reply Res) where
  pure := .done
  bind := .bind

/-! ## Running -/

/-- Go on to the next await, or to the end. -/
def Script.settle [DecidableEq Res] :
    Script Reply Res α → List Res → Script Reply Res α × List Res
  | .acquire r rest, held => rest.settle (r :: held)
  | .release r rest, held => rest.settle (held.erase r)
  | script, held => (script, held)

/-! ## Weakest preconditions -/

/-- What the operations and the resources do to a state that is observed beside the script. -/
structure Effects (Reply : Op → Type) (Res σ : Type) where
  await : (op : Op) → (Reply op → σ → Prop) → σ → Prop
  acquire : Res → (σ → Prop) → σ → Prop
  release : Res → (σ → Prop) → σ → Prop
  await_mono : ∀ {op P Q s}, (∀ reply s, P reply s → Q reply s) → await op P s → await op Q s
  acquire_mono : ∀ {r P Q s}, (∀ s, P s → Q s) → acquire r P s → acquire r Q s
  release_mono : ∀ {r P Q s}, (∀ s, P s → Q s) → release r P s → release r Q s

variable {σ : Type} {E : Effects Reply Res σ} {P Q : α → σ → Prop} {s : σ}
  {script : Script Reply Res α}

/-- The script ends in `Q` whenever it ends. -/
def Script.wp (E : Effects Reply Res σ) (Q : α → σ → Prop) : Script Reply Res α → σ → Prop
  | .done a => Q a
  | .acquire r rest => E.acquire r (rest.wp E Q)
  | .release r rest => E.release r (rest.wp E Q)
  | .await op rest => E.await op fun reply => (rest reply).wp E Q

/-- A stronger postcondition does. -/
theorem Script.wp_mono (h : script.wp E P s) (hle : ∀ a s, P a s → Q a s) : script.wp E Q s := by
  induction script generalizing s with
  | done a => exact hle a s h
  | acquire r rest ih => exact E.acquire_mono (fun _ => ih) h
  | release r rest ih => exact E.release_mono (fun _ => ih) h
  | await op rest ih => exact E.await_mono (fun reply _ => ih reply) h

/-- One script after another. -/
theorem Script.wp_bind {f : α → Script Reply Res β} {Q : β → σ → Prop}
    (h : script.wp E (fun a => (f a).wp E Q) s) : (script.bind f).wp E Q s := by
  induction script generalizing s with
  | done a => exact h
  | acquire r rest ih => exact E.acquire_mono (fun _ => ih) h
  | release r rest ih => exact E.release_mono (fun _ => ih) h
  | await op rest ih => exact E.await_mono (fun reply _ => ih reply) h

/-! ## Exceptions and local variables -/

/-- A script with local variables that may end in an exception. -/
abbrev Routine (ε ρ : Type) {Op : Type} (Reply : Op → Type) (Res α : Type) : Type :=
  ExceptT ε (StateT ρ (Script Reply Res)) α

variable {ε ρ : Type} {x : ρ} {routine : Routine ε ρ Reply Res α}

/-- Hold a resource around a routine and close it whichever way the routine ends. -/
def Routine.closing (r : Res) (close : Routine ε ρ Reply Res Unit)
    (routine : Routine ε ρ Reply Res α) : Routine ε ρ Reply Res α :=
  ExceptT.mk fun x => .acquire r <| (routine x).bind fun (result, x') =>
    (close x').bind fun (closed, x'') =>
      .release r <| .done (closed.bind fun _ => result, x'')

/-- Run a routine, given its local variables, inside of another. -/
def Routine.within {ρ' : Type} (x : ρ) (routine : Routine ε ρ Reply Res α) :
    Routine ε ρ' Reply Res α :=
  ExceptT.mk fun x' => (routine x).bind fun (result, _) => .done (result, x')

/-- One routine after another; an exception ends both. -/
theorem Routine.wp_bind {f : α → Routine ε ρ Reply Res β} {Q : Except ε β × ρ → σ → Prop}
    (h : Script.wp E (fun q => match q with
      | (.ok a, x') => Script.wp E Q (f a x')
      | (.error e, x') => Q (.error e, x')) (routine x) s) :
    Script.wp E Q ((routine >>= f) x) s := by
  refine Script.wp_bind (Script.wp_mono h fun q s hq => ?_)
  obtain ⟨result, x'⟩ := q
  cases result with
  | ok a => exact hq
  | error e => exact hq

/-- A held resource is acquired before the routine, and released once it is closed after it. -/
theorem Routine.wp_closing {r : Res} {close : Routine ε ρ Reply Res Unit}
    {Q : Except ε α × ρ → σ → Prop}
    (h : E.acquire r (Script.wp E (fun q => Script.wp E
      (fun c => E.release r (Q (c.1.bind fun _ => q.1, c.2))) (close q.2)) (routine x)) s) :
    Script.wp E Q ((Routine.closing r close routine) x) s :=
  E.acquire_mono (fun _ hs => Script.wp_bind (Script.wp_mono hs fun _ _ => Script.wp_bind)) h

/-- A routine and the handler of its exceptions. -/
theorem Routine.wp_tryCatch {handler : ε → Routine ε ρ Reply Res α}
    {Q : Except ε α × ρ → σ → Prop}
    (h : Script.wp E (fun q => match q with
      | (.ok a, x') => Q (.ok a, x')
      | (.error e, x') => Script.wp E Q (handler e x')) (routine x) s) :
    Script.wp E Q ((tryCatch routine handler : Routine ε ρ Reply Res α) x) s := by
  refine Script.wp_bind (Script.wp_mono h fun q s hq => ?_)
  obtain ⟨result, x'⟩ := q
  cases result with
  | ok a => exact hq
  | error e => exact hq

end Coroutine
