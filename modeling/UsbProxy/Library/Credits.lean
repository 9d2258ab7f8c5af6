import Mathlib.Algebra.BigOperators.Group.List.Basic
import Mathlib.Algebra.Order.Monoid.Defs
import UsbProxy.Library.Runs

/-!
# Credit

Some steps of a system are granted something and some spend it.  Where a credit that depends on the state pays
for the difference, a run spends no more than it is granted (`Pays.spent_le`).
-/

namespace Credits

variable {σ ι α : Type*} [AddCommMonoid α] [PartialOrder α] [IsOrderedAddMonoid α]

/-- Each step that meets `P` keeps the invariant and pays for what it spends out of what it is granted and of
the credit. -/
def Pays (step : σ → ι → Option σ) (P : σ → ι → Prop) (Inv : σ → Prop) (spent granted : ι → α)
    (credit : σ → α) : Prop :=
  ∀ s i t, step s i = some t → P s i → Inv s → Inv t ∧ spent i + credit t ≤ granted i + credit s

variable {step : σ → ι → Option σ} {P : σ → ι → Prop} {Inv : σ → Prop} {spent granted : ι → α}
  {credit : σ → α} {s t : σ} {is : List ι}

theorem Pays.run (h : Pays step P Inv spent granted credit) (hP : Runs.Along step P s is)
    (hrun : Runs.run step s is = some t) (hs : Inv s) :
    (is.map spent).sum + credit t ≤ (is.map granted).sum + credit s := by
  induction is generalizing s with
  | nil =>
    rw [Runs.run_nil, Option.some.injEq] at hrun
    rw [hrun, List.map_nil, List.map_nil]
  | cons i is ih =>
    obtain ⟨m, hm, ht⟩ := (Runs.run_cons_eq_some step).1 hrun
    obtain ⟨hinv, hhead⟩ := h s i m hm hP.head hs
    have hrest := ih (hP.tail hm) ht hinv
    rw [List.map_cons, List.map_cons, List.sum_cons, List.sum_cons]
    calc spent i + (is.map spent).sum + credit t
      _ = spent i + ((is.map spent).sum + credit t) := add_assoc ..
      _ ≤ spent i + ((is.map granted).sum + credit m) := add_le_add_right hrest _
      _ = (is.map granted).sum + (spent i + credit m) := add_left_comm ..
      _ ≤ (is.map granted).sum + (granted i + credit s) := add_le_add_right hhead _
      _ = granted i + (is.map granted).sum + credit s := by rw [add_left_comm, add_assoc]

/-- From a state without credit no more is spent than is granted. -/
theorem Pays.spent_le (h : Pays step P Inv spent granted credit) (hP : Runs.Along step P s is)
    (hrun : Runs.run step s is = some t) (hs : Inv s) (hzero : credit s = 0) (hcredit : 0 ≤ credit t) :
    (is.map spent).sum ≤ (is.map granted).sum :=
  calc (is.map spent).sum
    _ ≤ (is.map spent).sum + credit t := le_add_of_nonneg_right hcredit
    _ ≤ (is.map granted).sum + credit s := h.run hP hrun hs
    _ = (is.map granted).sum := by rw [hzero, add_zero]

end Credits
