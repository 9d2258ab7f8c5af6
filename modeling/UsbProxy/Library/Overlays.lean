import Mathlib.Data.List.GetD
import Mathlib.Logic.Function.Basic

/-!
# Messages over old contents

A receive buffer is used again and again: a message overwrites the first cells of the memory and
leaves what was behind them.  `copy_overlay`: what is copied out of the message itself does not
depend on the old contents.  `exists_getElem?_copy`: a longer copy has something that is not of the
message.
-/

namespace Overlays

variable {α : Type*} {d : List α} {m : ℕ → α} {i off len : ℕ}

/-- The memory after a message was received. -/
def overlay (d : List α) (m : ℕ → α) (i : ℕ) : α := d.getD i (m i)

/-- `len` cells from an offset on. -/
def copy (m : ℕ → α) (off len : ℕ) : List α := (List.range len).map fun i => m (off + i)

theorem length_copy (m : ℕ → α) (off len : ℕ) : (copy m off len).length = len := by
  rw [copy, List.length_map, List.length_range]

theorem getElem?_copy (h : i < len) : (copy m off len)[i]? = some (m (off + i)) := by
  rw [copy, List.getElem?_map, List.getElem?_range h]
  rfl

theorem overlay_of_lt (h : i < d.length) (m : ℕ → α) (b : α) : overlay d m i = d.getD i b := by
  unfold overlay
  rw [List.getD_eq_getElem _ _ h, List.getD_eq_getElem _ _ h]

theorem overlay_of_le (h : d.length ≤ i) (m : ℕ → α) : overlay d m i = m i :=
  List.getD_eq_default _ _ h

theorem copy_overlay (h : off + len ≤ d.length) (m : ℕ → α) :
    copy (overlay d m) off len = (d.drop off).take len := by
  apply List.ext_getElem?
  intro i
  by_cases hi : i < len
  · rw [getElem?_copy hi, List.getElem?_take_of_lt hi, List.getElem?_drop, overlay,
      List.getD_eq_getElem _ _ (by omega), List.getElem?_eq_getElem]
  · rw [List.getElem?_eq_none (by rw [length_copy]; omega),
      List.getElem?_eq_none (by rw [List.length_take]; omega)]

/-- What a copy out of the message has at an index, the message has behind the offset. -/
theorem getElem?_of_copy_overlay {v : α} (h : off + len ≤ d.length)
    (hv : (copy (overlay d m) off len)[i]? = some v) : d[off + i]? = some v := by
  rw [copy_overlay h] at hv
  have hi : i < len := by
    by_contra hno
    rw [List.getElem?_eq_none (by rw [List.length_take]; omega)] at hv
    cases hv
  rwa [List.getElem?_take_of_lt hi, List.getElem?_drop] at hv

/-- A copy that goes on behind the message has something there that the message has not. -/
theorem exists_getElem?_copy (hoff : off ≤ d.length) (h : ¬ off + len ≤ d.length) (m : ℕ → α) :
    ∃ i v, (copy m off len)[i]? = some v ∧ d[off + i]? = none :=
  ⟨d.length - off, _, getElem?_copy (by omega), List.getElem?_eq_none (by omega)⟩

end Overlays
