/-
Runs of a state machine whose steps carry a guard: every step is taken in a state that allows it.
The rule of invariants, for a run of any length, and the two ways a run is put together.
-/
import Mathlib.Logic.Basic

namespace Netrek.Lib

variable {σ α : Type}

/-- `Run ok step s ops s'`: the operations `ops`, each allowed by `ok` in the state it is executed
in, lead from `s` to `s'`. -/
inductive Run (ok : σ → α → Prop) (step : σ → α → σ) : σ → List α → σ → Prop
  | nil (s : σ) : Run ok step s [] s
  | cons {s s' : σ} {a : α} {ops : List α} :
      ok s a → Run ok step (step s a) ops s' → Run ok step s (a :: ops) s'

namespace Run

variable {ok : σ → α → Prop} {step : σ → α → σ}

/-- What every allowed step preserves holds at the end of every run. -/
theorem inv {I : σ → Prop} (hstep : ∀ s a, ok s a → I s → I (step s a)) :
    ∀ {s s' : σ} {ops : List α}, Run ok step s ops s' → I s → I s'
  | _, _, _, .nil _, hi => hi
  | _, _, _, .cons hok h, hi => inv hstep h (hstep _ _ hok hi)

/-- A preorder that every allowed step follows relates the ends of every run. -/
theorem rel {R : σ → σ → Prop} (hrefl : ∀ s, R s s) (htrans : ∀ {s t u}, R s t → R t u → R s u)
    (hstep : ∀ s a, ok s a → R s (step s a)) :
    ∀ {s s' : σ} {ops : List α}, Run ok step s ops s' → R s s'
  | _, _, _, .nil s => hrefl s
  | _, _, _, .cons hok h => htrans (hstep _ _ hok) (rel hrefl htrans hstep h)

/-- A run goes on with another. -/
theorem append : ∀ {s t u : σ} {ops ops' : List α}, Run ok step s ops t → Run ok step t ops' u →
    Run ok step s (ops ++ ops') u
  | _, _, _, _, _, .nil _, h' => h'
  | _, _, _, _, _, .cons ha h, h' => .cons ha (append h h')

/-- A guard may be weakened. -/
theorem mono {ok' : σ → α → Prop} (hok : ∀ s a, ok s a → ok' s a) :
    ∀ {s s' : σ} {ops : List α}, Run ok step s ops s' → Run ok' step s ops s'
  | _, _, _, .nil s => .nil s
  | _, _, _, .cons ha h => .cons (hok _ _ ha) (mono hok h)

/-- Without a guard, any operations are a run. -/
theorem all : ∀ (s : σ) (ops : List α), Run (fun _ _ => True) step s ops (ops.foldl step s)
  | s, [] => .nil s
  | s, a :: ops => .cons trivial (all (step s a) ops)

/-- Every operation is allowed where it is executed. -/
def allowedAll (ok : σ → α → Prop) [∀ s a, Decidable (ok s a)] (step : σ → α → σ) : σ → List α → Bool
  | _, [] => true
  | s, a :: ops => decide (ok s a) && allowedAll ok step (step s a) ops

/-- A run that can be checked. -/
theorem of_allowedAll [∀ s a, Decidable (ok s a)] : ∀ (s : σ) (ops : List α), allowedAll ok step s ops = true →
    Run ok step s ops (ops.foldl step s)
  | s, [], _ => .nil s
  | s, a :: ops, h => by
    unfold allowedAll at h
    rw [Bool.and_eq_true, decide_eq_true_iff] at h
    exact .cons h.1 (of_allowedAll (step s a) ops h.2)

end Run

end Netrek.Lib
