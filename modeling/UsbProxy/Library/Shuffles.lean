import Mathlib.Data.List.Basic

/-!
# Two streams merged into one

`Shuffle xs ys zs`: one consumer takes items from two streams, each from its front, and `zs` is the order
in which it took them.  The relation grows at the end, as a log does.
-/

namespace Shuffles

variable {α : Type*}

inductive Shuffle : List α → List α → List α → Prop
  | nil : Shuffle [] [] []
  | left {xs ys zs : List α} (h : Shuffle xs ys zs) (x : α) : Shuffle (xs ++ [x]) ys (zs ++ [x])
  | right {xs ys zs : List α} (h : Shuffle xs ys zs) (y : α) : Shuffle xs (ys ++ [y]) (zs ++ [y])

variable {xs ys zs : List α}

theorem Shuffle.left_option (h : Shuffle xs ys zs) (item : Option α) :
    Shuffle (xs ++ item.toList) ys (zs ++ item.toList) := by
  cases item with
  | none => simpa using h
  | some x => exact h.left x

theorem Shuffle.right_option (h : Shuffle xs ys zs) (item : Option α) :
    Shuffle xs (ys ++ item.toList) (zs ++ item.toList) := by
  cases item with
  | none => simpa using h
  | some y => exact h.right y

theorem Shuffle.left_sublist (h : Shuffle xs ys zs) : xs.Sublist zs := by
  induction h with
  | nil => exact List.Sublist.refl []
  | left _ x ih => exact ih.append (List.Sublist.refl [x])
  | right _ y ih => exact ih.trans (List.sublist_append_left _ [y])

theorem Shuffle.length_eq (h : Shuffle xs ys zs) : zs.length = xs.length + ys.length := by
  induction h with
  | nil => rfl
  | left _ x ih =>
    simp only [List.length_append, List.length_singleton, ih]
    omega
  | right _ y ih =>
    simp only [List.length_append, List.length_singleton, ih]
    omega

theorem Shuffle.mem (h : Shuffle xs ys zs) {a : α} (ha : a ∈ zs) : a ∈ xs ∨ a ∈ ys := by
  induction h with
  | nil => exact absurd ha List.not_mem_nil
  | left _ x ih =>
    rcases List.mem_append.1 ha with ha | ha
    · exact (ih ha).imp (List.mem_append_left [x]) id
    · exact .inl (List.mem_append_right _ ha)
  | right _ y ih =>
    rcases List.mem_append.1 ha with ha | ha
    · exact (ih ha).imp id (List.mem_append_left [y])
    · exact .inr (List.mem_append_right _ ha)

theorem Shuffle.eq_of_nil_right (h : Shuffle xs [] zs) : zs = xs := by
  apply Eq.symm
  apply h.left_sublist.eq_of_length
  rw [h.length_eq, List.length_nil, Nat.add_zero]

end Shuffles
