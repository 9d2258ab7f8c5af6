import Mathlib.Data.List.TakeDrop

/-!
# Arrays of pointers with a byte for their length

A growing array as C code keeps it: a pointer that is null as long as the array is empty, and a
count of eight bits.  An element is added by reallocating the block to the incremented count and a
store at its last index; it is removed by moving the elements behind it down and reallocating to the
decremented count.  An operation that reads or stores outside of the block has no result.

`Holds a xs` says that the array is the list `xs`; the lemmas are what the operations do to that
list.
-/

namespace PtrArrays

structure PtrArray (α : Type*) where
  block : Option (List (Option α))
  count : UInt8

namespace PtrArray

variable {α : Type*}

def empty : PtrArray α := ⟨none, 0⟩

/-- `block = realloc(block, ++count); block[count - 1] = x`, or a block of one element. -/
def add (a : PtrArray α) (x : Option α) : Option (PtrArray α) :=
  match a.block with
  | none => some ⟨some [x], 1⟩
  | some xs =>
    let count := a.count + 1
    -- A count that wraps stores in front of the block.
    if count = 0 then none
    else some ⟨some ((xs.takeD count.toNat none).set (count.toNat - 1) x), count⟩

/-- `block[i - 1] = block[i]` for `n` indices from `i` on. -/
def moveDown : ℕ → ℕ → List (Option α) → List (Option α)
  | 0, _, xs => xs
  | n + 1, i, xs => moveDown n (i + 1) (xs.set (i - 1) (xs.getD i none))

/-- The element at the index if it is to be freed. -/
def freed (a : PtrArray α) (index : UInt8) (freeMemory : Bool) : Option (Option α) :=
  if freeMemory then a.block.bind fun xs => xs[index.toNat]? else some none

/-- The array without the element at an index; an empty one becomes a block for 255 elements. -/
def drop (a : PtrArray α) (index : UInt8) : PtrArray α :=
  if a.count = 1 then empty
  else
    { block := some ((moveDown (a.count.toNat - (index.toNat + 1)) (index.toNat + 1)
        (a.block.getD [])).takeD (a.count - 1).toNat none)
      count := a.count - 1 }

/-- Without a check of the index.  The second component is the element that was freed. -/
def remove (a : PtrArray α) (index : UInt8) (freeMemory : Bool) : Option (PtrArray α × Option α) :=
  (a.freed index freeMemory).map fun p => (a.drop index, p)

def get (a : PtrArray α) (index : UInt8) : Option α :=
  if a.count ≤ index then none else a.block.bind fun xs => (xs[index.toNat]?).join

/-- The array is the list. -/
structure Holds (a : PtrArray α) (xs : List (Option α)) : Prop where
  block_eq : a.block = if xs = [] then none else some xs
  count_eq : a.count.toNat = xs.length

/-! ## The operations on lists -/

variable {a b : PtrArray α} {xs : List (Option α)} {x p : Option α} {index : UInt8} {freeMemory : Bool}

theorem holds_empty : Holds (empty : PtrArray α) [] := ⟨rfl, rfl⟩

theorem Holds.block_of_ne (h : Holds a xs) (hne : xs ≠ []) : a.block = some xs := by
  rw [h.block_eq, if_neg hne]

theorem Holds.length_lt (h : Holds a xs) : xs.length < 256 := by
  rw [← h.count_eq]
  exact a.count.toNat_lt

theorem Holds.count_pred {n : ℕ} (h : Holds a xs) (hlen : xs.length = n + 1) :
    a.count ≠ 0 ∧ (a.count - 1).toNat = n := by
  have hcount := h.count_eq.trans hlen
  constructor
  · intro hzero
    rw [hzero] at hcount
    exact Nat.succ_ne_zero _ hcount.symm
  · have hle : 1 ≤ a.count := UInt8.le_iff_toNat_le.2 (by rw [hcount]; exact Nat.succ_pos _)
    rw [UInt8.toNat_sub_of_le _ _ hle, hcount]
    rfl

theorem Holds.unique {ys : List (Option α)} (h : Holds a xs) (h' : Holds a ys) : xs = ys := by
  have hlen : xs.length = ys.length := by rw [← h.count_eq, ← h'.count_eq]
  by_cases hne : xs = []
  · rw [hne, List.length_nil] at hlen
    rw [hne, List.eq_nil_of_length_eq_zero hlen.symm]
  · have hne' : ys ≠ [] := by
      rintro rfl
      exact hne (List.eq_nil_of_length_eq_zero hlen)
    exact Option.some.inj ((h.block_of_ne hne).symm.trans (h'.block_of_ne hne'))

theorem Holds.get_eq (h : Holds a xs) (index : UInt8) : a.get index = (xs[index.toNat]?).join := by
  have hcount := h.count_eq
  unfold get
  by_cases hlt : a.count ≤ index
  · rw [UInt8.le_iff_toNat_le, hcount] at hlt
    rw [if_pos (UInt8.le_iff_toNat_le.2 (by omega)), List.getElem?_eq_none hlt]
    rfl
  · have hne : xs ≠ [] := by
      rintro rfl
      exact hlt (UInt8.le_iff_toNat_le.2 (by rw [hcount]; exact Nat.zero_le _))
    rw [if_neg hlt, h.block_of_ne hne]
    rfl

theorem takeD_set_length (xs : List (Option α)) (x : Option α) :
    (xs.takeD (xs.length + 1) none).set xs.length x = xs ++ [x] := by
  induction xs with
  | nil => rfl
  | cons y ys ih => exact congrArg (y :: ·) ih

/-- An element is appended as long as the count does not wrap. -/
theorem Holds.add_of_lt (h : Holds a xs) (hlt : xs.length < 255) (x : Option α) :
    ∃ b, a.add x = some b ∧ Holds b (xs ++ [x]) := by
  have hcount := h.count_eq
  unfold add
  by_cases hne : xs = []
  · rw [h.block_eq, if_pos hne, hne]
    exact ⟨_, rfl, rfl, rfl⟩
  · have hnext : (a.count + 1).toNat = xs.length + 1 := by
      rw [UInt8.toNat_add, show (1 : UInt8).toNat = 1 from rfl]
      omega
    have hwrap : ¬ a.count + 1 = 0 := by
      intro h0
      rw [h0] at hnext
      exact Nat.succ_ne_zero _ hnext.symm
    rw [h.block_of_ne hne]
    dsimp only
    rw [if_neg hwrap, hnext]
    refine ⟨_, rfl, ?_, by rw [hnext, List.length_append, List.length_singleton]⟩
    rw [Nat.add_sub_cancel, takeD_set_length, if_neg (by simp)]

/-- The 256th element is stored in front of the block. -/
theorem Holds.add_of_full (h : Holds a xs) (hfull : ¬ xs.length < 255) (x : Option α) :
    a.add x = none := by
  have hlen := h.length_lt
  have hcount : a.count = 255 := UInt8.toNat_inj.1 (by rw [h.count_eq]; show _ = 255; omega)
  have hne : xs ≠ [] := by
    rintro rfl
    exact hfull (Nat.zero_lt_succ _)
  unfold add
  rw [h.block_of_ne hne, hcount]
  rfl

theorem Holds.count_add (h : Holds a xs) (hb : a.add x = some b) : b.count = a.count + 1 := by
  unfold add at hb
  by_cases hne : xs = []
  · have hzero : a.count = 0 := UInt8.toNat_inj.1 (by rw [h.count_eq, hne]; rfl)
    rw [h.block_eq, if_pos hne] at hb
    rw [← Option.some.inj hb, hzero]
    rfl
  · rw [h.block_of_ne hne] at hb
    dsimp only at hb
    split_ifs at hb
    rw [← Option.some.inj hb]

/-! ## Removing -/

theorem moveDown_spec (n i : ℕ) (xs : List (Option α)) (hi : 0 < i) (hn : i + n = xs.length) :
    (moveDown n i xs).length = xs.length ∧
      (moveDown n i xs).take (xs.length - 1) = xs.take (i - 1) ++ xs.drop i := by
  induction n generalizing i xs with
  | zero =>
    rw [Nat.add_zero] at hn
    rw [moveDown, ← hn, hn, List.drop_length, List.append_nil]
    exact ⟨rfl, rfl⟩
  | succ n ih =>
    have hlt : i < xs.length := by omega
    obtain ⟨hlen, htake⟩ := ih (i + 1) (xs.set (i - 1) (xs.getD i none)) (by omega)
      (by rw [List.length_set]; omega)
    rw [List.length_set] at hlen htake
    refine ⟨hlen, ?_⟩
    rw [moveDown, htake, Nat.add_sub_cancel]
    have hset : (xs.set (i - 1) (xs.getD i none)).take i = xs.take (i - 1) ++ [xs[i]] := by
      cases i with
      | zero => exact absurd hi (Nat.lt_irrefl 0)
      | succ k =>
        rw [Nat.add_sub_cancel, List.take_succ_eq_append_getElem (by rw [List.length_set]; omega),
          List.take_set_of_le (Nat.le_refl k), List.getElem_set_self, List.getD_eq_getElem?_getD,
          List.getElem?_eq_getElem hlt, Option.getD_some]
    have hdrop : (xs.set (i - 1) (xs.getD i none)).drop (i + 1) = xs.drop (i + 1) :=
      List.drop_set_of_lt (by omega)
    rw [hset, hdrop, List.append_assoc, List.singleton_append, List.getElem_cons_drop]

theorem Holds.drop_of_lt (h : Holds a xs) (hlt : index.toNat < xs.length) :
    Holds (a.drop index) (xs.eraseIdx index.toNat) := by
  have hcount := h.count_eq
  have hne : xs ≠ [] := by
    rintro rfl
    exact Nat.not_lt_zero _ hlt
  unfold drop
  by_cases h1 : a.count = 1
  · have hone : xs.length = 1 := by rw [← hcount, h1]; rfl
    rw [if_pos h1, List.eq_nil_of_length_eq_zero (l := xs.eraseIdx index.toNat)
      (by rw [List.length_eraseIdx_of_lt hlt, hone])]
    exact holds_empty
  · have hmany : 1 < xs.length := by
      by_contra hcon
      apply h1
      apply UInt8.toNat_inj.1
      rw [hcount]
      show xs.length = 1
      omega
    have hprev : (a.count - 1).toNat = xs.length - 1 := (h.count_pred (by omega)).2
    obtain ⟨hlen, htake⟩ := moveDown_spec (xs.length - (index.toNat + 1)) (index.toNat + 1) xs
      (Nat.succ_pos _) (by omega)
    rw [if_neg h1, h.block_of_ne hne, Option.getD_some, hcount, hprev,
      List.takeD_eq_take _ (by omega), htake, Nat.add_sub_cancel, ← List.eraseIdx_eq_take_drop_succ]
    have hrest := List.length_eraseIdx_of_lt hlt
    refine ⟨?_, by rw [hprev, hrest]⟩
    rw [if_neg]
    intro hnil
    rw [hnil, List.length_nil] at hrest
    omega

theorem Holds.remove_of_lt (h : Holds a xs) (hlt : index.toNat < xs.length) (freeMemory : Bool) :
    ∃ b, a.remove index freeMemory =
        some (b, if freeMemory then (xs[index.toNat]?).join else none) ∧
      Holds b (xs.eraseIdx index.toNat) := by
  have hne : xs ≠ [] := by
    rintro rfl
    exact Nat.not_lt_zero _ hlt
  refine ⟨a.drop index, ?_, h.drop_of_lt hlt⟩
  unfold remove freed
  rw [h.block_of_ne hne]
  cases freeMemory with
  | true =>
    rw [if_pos rfl, if_pos rfl, Option.bind_some, List.getElem?_eq_getElem hlt]
    rfl
  | false => rfl

/-- An operation that removes changes the count, whatever the index. -/
theorem count_remove (hb : a.remove index freeMemory = some (b, p)) :
    b.count = a.count - 1 := by
  obtain ⟨_, -, heq⟩ := Option.map_eq_some_iff.1 hb
  obtain rfl : a.drop index = b := congrArg Prod.fst heq
  unfold drop
  split_ifs with h1
  · rw [h1]
    rfl
  · rfl

end PtrArray

end PtrArrays
