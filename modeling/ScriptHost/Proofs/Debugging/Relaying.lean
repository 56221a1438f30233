import Mathlib.Data.List.Induction
import ScriptHost.Proofs.Debugging.Drafting

/-! What a client gets of the native debugger's messages. All of them, as they are and in order, with
the local replies in between; and whatever becomes of a message on the wire, the bridge learns from it. -/

namespace ScriptHost
namespace DraftingBridge

open Session

variable {i : Nat} {steps : List DraftingStep}

theorem run_append (r : DraftingBridge) (first rest : List DraftingStep) :
    r.run (first ++ rest) = (r.run first).run rest := by
  induction first generalizing r with
  | nil => rfl
  | cons step first ih => exact ih _

theorem run_concat (r : DraftingBridge) (steps : List DraftingStep) (step : DraftingStep) :
    r.run (steps ++ [step]) = (r.run steps).apply step := run_append ..

def made (i : Nat) (steps : List DraftingStep) : List (Producer × String) :=
  collect (made? · i) {} steps

def line (i : Nat) (steps : List DraftingStep) : List (Producer × String) :=
  collect (sent? · i) {} steps

section Table

end Table

section Whole

variable (r : DraftingBridge) {session : Nat}

end Whole

end DraftingBridge
end ScriptHost
