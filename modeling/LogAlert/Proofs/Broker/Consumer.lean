/-
# LogAlert.Proofs.Broker.Consumer -- what handling jobs preserves

A consumer changes the state of its handler only by handling jobs.  So whatever handling one job
preserves, whatever the job and the connection, consuming a queue preserves (`consume_preserves`).
-/
import LogAlert.Broker.Consumer
import Mathlib.Tactic.Common

set_option autoImplicit false

namespace LogAlert.Queue

variable {σ : Type} {handle : Broker.Job → Link → σ → Bool × Link × σ} {P : σ → Prop}

theorem handleAll_preserves
    (step : ∀ job link state, P state → P (handle job link state).2.2) (fuel : Nat)
    (queue : Queue) (link : Link) (state : σ) (start : P state) :
    P (handleAll handle fuel queue link state).2.2.2 := by
  induction fuel generalizing queue link state with
  | zero => exact start
  | succ fuel ih =>
      unfold handleAll
      split
      · exact ih _ _ _ start
      · exact start
      · exact start
      · exact ih _ _ _ start
      · rename_i job queue link reserved
        have handled := step job link state start
        dsimp only
        split
        · exact handled
        · exact ih _ _ _ handled

theorem consume_preserves
    (step : ∀ job link state, P state → P (handle job link state).2.2) (queue : Queue)
    (link : Link) (state : σ) (start : P state) : P (consume handle queue link state).2.2.2 := by
  unfold consume
  split
  · exact start
  · exact handleAll_preserves step _ _ _ _ start

end LogAlert.Queue
