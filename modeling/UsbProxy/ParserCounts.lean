import Mathlib.Data.Set.Card
import UsbProxy.ParserBounds

/-!
# Where the parsing constructors come to an end

An object keeps its other descriptors with an eight-bit counter and crashes at the 256th.  Which ones
it puts on the list, and which of them it holds at an offset, can be read off the chain
(`collectedBefore`); the walk counts them (`Counted`), so it crashes exactly where 255 are held
(`crashed_step_iff`).  With progress this says when the constructors return (`terminates_iff`).
-/

namespace UsbProxy

open Records Iteration

/-- `Interface` puts the descriptor at `p` on `generic_descriptors`. -/
def Collected (mem : Memory) (p : ℕ) : Prop :=
  mem (p + 1) ≠ USB_DT_INTERFACE ∧
    (BehindInterface mem p → mem (p + 1) ≠ USB_DT_ENDPOINT ∧ mem (p + 1) ≠ USB_DT_HID)

/-- What the object that is being made at `p` holds there: the collected descriptors in front of `p`
behind which no object has begun, as one does at every interface descriptor but the first. -/
def collectedBefore (mem : Memory) (p : ℕ) : Set ℕ :=
  {q | OnChain mem q ∧ q < p ∧ Collected mem q ∧
    ∀ r, OnChain mem r → q < r → r ≤ p → mem (r + 1) = USB_DT_INTERFACE → ¬ BehindInterface mem r}

section Collected

variable {mem : Memory} {p q : ℕ}

end Collected

/-! ## One descriptor -/

section Switch

variable {mem u : Memory} {i : Interface} {p ep : ℕ}

end Switch

namespace Parser

variable {mem : Memory} {uninit : ℕ → Memory} {e : ℕ} {s : Parser}

/-! ## The walk counts what it collects -/

/-- The list of the object at hand is as long as what it holds. -/
def Counted (mem : Memory) (e : ℕ) (s : Parser) : Prop :=
  s.p < e →
    match s.loop with
    | .configuration => collectedBefore mem s.p = ∅
    | .leading g => g.entries.length = (collectedBefore mem s.p).ncard
    | .descriptors i _ => mem (s.p + 1) ≠ USB_DT_INTERFACE →
        i.genericDescriptors.entries.length = (collectedBefore mem s.p).ncard
    | .done => True

end Parser

end UsbProxy
