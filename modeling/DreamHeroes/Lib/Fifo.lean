/-
A channel that hands on what was sent: in order, each message once, as far as it has come.

- `Step`: something is sent, the next message is handed on, or neither.
- `Refines`: what a machine does is that, seen through `view`.
- `prefix_run`: after any run of such a machine, what was handed on is a prefix of what was sent.
-/
import Mathlib.Tactic
import DreamHeroes.Lib.Machine

namespace DreamHeroes.Lib

structure Fifo (μ : Type*) where
  sent : List μ := []
  delivered : List μ := []

namespace Fifo

variable {μ S O : Type*}

inductive Step : Fifo μ → Fifo μ → Prop
  | stay (c : Fifo μ) : Step c c
  | send (c : Fifo μ) (m : μ) : Step c ⟨c.sent ++ [m], c.delivered⟩
  | deliver (c : Fifo μ) (m : μ) (next : c.delivered ++ [m] <+: c.sent) : Step c ⟨c.sent, c.delivered ++ [m]⟩

/-- what was handed on is what was sent first -/
def Ok (c : Fifo μ) : Prop := c.delivered <+: c.sent

theorem Step.ok {c d : Fifo μ} (h : Step c d) (hc : Ok c) : Ok d := by
  cases h with
  | stay => exact hc
  | send m => exact hc.trans (List.prefix_append _ _)
  | deliver m next => exact next

/-- every step of a machine, from the states that `I` admits, is a step of a channel -/
structure Refines (step : S → O → S) (I : S → Prop) (view : S → Fifo μ) : Prop where
  inv : ∀ s o, I s → I (step s o)
  step : ∀ s o, I s → Step (view s) (view (step s o))

variable {step : S → O → S} {I : S → Prop} {view : S → Fifo μ} {s : S}

theorem prefix_run (h : Refines step I view) (ops : List O) (hs : I s) (hok : Ok (view s)) :
    Ok (view (run step s ops)) := by
  have hboth (s : S) (o : O) (hs : I s ∧ Ok (view s)) : I (step s o) ∧ Ok (view (step s o)) :=
    ⟨h.inv s o hs.1, (h.step s o hs.1).ok hs.2⟩
  exact (inv_run_all hboth ops ⟨hs, hok⟩).2

end Fifo

end DreamHeroes.Lib
