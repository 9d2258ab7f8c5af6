import Mathlib.Logic.Function.Basic
import Mathlib.Data.List.Range

/-!
# Ring buffers with a flag

A ring of `n` slots with the index of its first used slot, the index of its first free one, and a
flag that tells a full ring from an empty one when the two are equal.  After a `pop` the flag is set
whenever they differ; no operation looks at it then.

`contents` is the list a ring stands for; `contents_push` and `contents_pop` are what the operations
do to it.
-/

namespace Rings

structure Ring where
  head : ℕ
  tail : ℕ
  full : Bool
  deriving DecidableEq, Repr

/-- One slot more. -/
def push (n : ℕ) (r : Ring) : Ring :=
  let tail := (r.tail + 1) % n
  { r with tail, full := r.head == tail }

/-- One slot less. -/
def pop (n : ℕ) (r : Ring) : Ring :=
  let head := (r.head + 1) % n
  { r with head, full := !(head == r.tail) }

def stored (n : ℕ) (r : Ring) : ℕ :=
  if r.head = r.tail then if r.full then n else 0
  else if r.head < r.tail then r.tail - r.head else n - r.head + r.tail

def contents {α : Type*} (n : ℕ) (r : Ring) (slots : ℕ → α) : List α :=
  (List.range (stored n r)).map fun i => slots ((r.head + i) % n)

/-- The indices are those of slots. -/
structure Fits (n : ℕ) (r : Ring) : Prop where
  head_lt : r.head < n
  tail_lt : r.tail < n

variable {α : Type*} {n i k : ℕ} {r : Ring}

/-! ## Counting -/

theorem wrap_eq (hk : k < n) (hi : i ≤ n) : (k + i) % n = if k + i < n then k + i else k + i - n := by
  split_ifs with h
  · exact Nat.mod_eq_of_lt h
  · rw [Nat.mod_eq_sub_mod (by omega), Nat.mod_eq_of_lt (by omega)]

theorem Fits.stored_le (h : Fits n r) : stored n r ≤ n := by
  have := h.head_lt
  have := h.tail_lt
  unfold stored
  split_ifs <;> omega

/-- The flag says whether the ring is full where the indices are equal. -/
theorem Fits.stored_eq_iff (h : Fits n r) : stored n r = n ↔ r.head = r.tail ∧ r.full = true := by
  have := h.head_lt
  have := h.tail_lt
  unfold stored
  split_ifs with heq hfull
  · exact iff_of_true rfl ⟨heq, hfull⟩
  · exact iff_of_false (by omega) fun hand => hfull hand.2
  · exact iff_of_false (by omega) fun hand => heq hand.1
  · exact iff_of_false (by omega) fun hand => heq hand.1

theorem Fits.stored_eq_zero_iff (h : Fits n r) :
    stored n r = 0 ↔ r.head = r.tail ∧ r.full = false := by
  have := h.head_lt
  have := h.tail_lt
  unfold stored
  split_ifs with heq hfull
  · exact iff_of_false (by omega) fun hand => by rw [hfull] at hand; exact Bool.noConfusion hand.2
  · exact iff_of_true rfl ⟨heq, Bool.eq_false_iff.2 hfull⟩
  · exact iff_of_false (by omega) fun hand => heq hand.1
  · exact iff_of_false (by omega) fun hand => heq hand.1

theorem Fits.tail_eq (h : Fits n r) : r.tail = (r.head + stored n r) % n := by
  have := h.head_lt
  have := h.tail_lt
  rw [wrap_eq h.head_lt h.stored_le]
  unfold stored
  split_ifs <;> omega

theorem Fits.push (h : Fits n r) : Fits n (push n r) :=
  ⟨h.head_lt, Nat.mod_lt _ (Nat.zero_lt_of_lt h.head_lt)⟩

theorem Fits.pop (h : Fits n r) : Fits n (pop n r) :=
  ⟨Nat.mod_lt _ (Nat.zero_lt_of_lt h.head_lt), h.tail_lt⟩

theorem Fits.stored_push (h : Fits n r) (hroom : stored n r < n) :
    stored n (Rings.push n r) = stored n r + 1 := by
  have hhead := h.head_lt
  have htail := h.tail_lt
  have hnext : (r.tail + 1) % n = if r.tail + 1 < n then r.tail + 1 else r.tail + 1 - n :=
    wrap_eq htail (by omega)
  unfold stored at hroom ⊢
  unfold Rings.push
  dsimp only
  rw [hnext]
  simp only [beq_iff_eq]
  split_ifs at hroom ⊢ <;> omega

theorem Fits.stored_pop (h : Fits n r) (hsome : stored n r ≠ 0) :
    stored n r = stored n (Rings.pop n r) + 1 := by
  have hhead := h.head_lt
  have htail := h.tail_lt
  have hnext : (r.head + 1) % n = if r.head + 1 < n then r.head + 1 else r.head + 1 - n :=
    wrap_eq hhead (by omega)
  unfold stored at hsome ⊢
  unfold Rings.pop
  dsimp only
  rw [hnext]
  simp only [Bool.not_eq_true', beq_eq_false_iff_ne, ne_eq]
  split_ifs at hsome ⊢ <;> omega

/-! ## Contents -/

theorem length_contents (slots : ℕ → α) : (contents n r slots).length = stored n r := by
  rw [contents, List.length_map, List.length_range]

theorem Fits.contents_push (h : Fits n r) (hroom : stored n r < n) (slots : ℕ → α) (x : α) :
    contents n (Rings.push n r) (Function.update slots r.tail x) = contents n r slots ++ [x] := by
  unfold contents
  rw [h.stored_push hroom, List.range_succ, List.map_append, List.map_singleton]
  congr 1
  · apply List.map_congr_left
    intro i hi
    rw [List.mem_range] at hi
    apply Function.update_of_ne
    rw [h.tail_eq]
    show (r.head + i) % n ≠ _
    have := h.head_lt
    rw [wrap_eq h.head_lt (by omega), wrap_eq h.head_lt (by omega)]
    split_ifs <;> omega
  · show [Function.update slots r.tail x ((r.head + stored n r) % n)] = [x]
    rw [← h.tail_eq, Function.update_self]

theorem Fits.contents_pop (h : Fits n r) (hsome : stored n r ≠ 0) (slots : ℕ → α) :
    contents n r slots = slots r.head :: contents n (Rings.pop n r) slots := by
  unfold contents
  rw [h.stored_pop hsome, List.range_succ_eq_map, List.map_cons, List.map_map, Nat.add_zero,
    Nat.mod_eq_of_lt h.head_lt]
  refine congrArg (slots r.head :: ·) (List.map_congr_left fun i _ => ?_)
  show slots ((r.head + (i + 1)) % n) = slots (((r.head + 1) % n + i) % n)
  rw [Nat.mod_add_mod, Nat.add_right_comm, Nat.add_assoc]

end Rings
