import Mathlib.Algebra.Group.Units.Basic
import Mathlib.Data.List.ReduceOption

/-!
# Bounded first-in first-out lanes

A lane of capacity `cap` appends an offered item unless it is full, and then drops it without a
word.  A lane may hold null entries, which carry no item (`filled` are the items).  Relative to the
items offered so far and the items taken so far, a lane is `InOrder` when taken and waiting items
together are a subsequence of the offered ones, and `Lossless` when they are all of them.  Offering
and taking keep both, the second as long as no offer meets a full lane.
-/

namespace Lane

variable {α : Type*}

/-- Append to a lane that holds fewer than `cap` entries. -/
def offer (cap : ℕ) (lane : List α) (x : α) : List α :=
  if lane.length < cap then lane ++ [x] else lane

/-- The items of a lane with null entries. -/
abbrev filled (lane : List (Option α)) : List α := lane.reduceOption

/-- Nothing was reordered, duplicated or invented. -/
def InOrder (offered taken waiting : List α) : Prop := (taken ++ waiting).Sublist offered

/-- Nothing was lost either. -/
def Lossless (offered taken waiting : List α) : Prop := taken ++ waiting = offered

section Offer

variable {cap : ℕ} {lane : List α} {x : α}

theorem offer_of_lt (h : lane.length < cap) : offer cap lane x = lane ++ [x] := if_pos h

theorem offer_of_le (h : cap ≤ lane.length) : offer cap lane x = lane := if_neg (by omega)

theorem mem_offer {y : α} (h : y ∈ offer cap lane x) : y ∈ lane ∨ y = x := by
  unfold offer at h
  split_ifs at h
  · simpa using h
  · exact .inl h

/-- Offering to a lane of positive capacity leaves something on it, also when it drops the item. -/
theorem offer_ne_nil (hc : 0 < cap) : offer cap lane x ≠ [] := by
  by_cases h : lane.length < cap
  · rw [offer_of_lt h]
    exact List.append_ne_nil_of_right_ne_nil lane (List.cons_ne_nil x [])
  · rw [offer_of_le (Nat.not_lt.1 h)]
    exact List.ne_nil_of_length_pos (by omega)

end Offer

section Weight

variable {M : Type*} [AddCommMonoid M] (f : α → M)

/-- What the entries of a lane weigh together. -/
def weight : List α → M
  | [] => 0
  | x :: lane => f x + weight lane

variable {f} {cap : ℕ} {lane : List α} {x : α}

@[simp] theorem weight_nil : weight f [] = 0 := rfl

@[simp] theorem weight_cons : weight f (x :: lane) = f x + weight f lane := rfl

theorem weight_append_singleton : weight f (lane ++ [x]) = weight f lane + f x := by
  induction lane with
  | nil => simp
  | cons y lane ih => rw [List.cons_append, weight_cons, ih, weight_cons, add_assoc]

theorem weight_offer (f : α → M) (cap : ℕ) (lane : List α) (x : α) :
    lane.length < cap ∧ weight f (offer cap lane x) = weight f lane + f x ∨
      cap ≤ lane.length ∧ weight f (offer cap lane x) = weight f lane := by
  rcases Nat.lt_or_ge lane.length cap with h | h
  · rw [offer_of_lt h, weight_append_singleton]
    exact .inl ⟨h, rfl⟩
  · rw [offer_of_le h]
    exact .inr ⟨h, rfl⟩

/-- Where nothing outweighs anything, a lane without weight has only entries without weight. -/
theorem eq_zero_of_weight [Subsingleton (AddUnits M)] {f : α → M} (h : weight f lane = 0) :
    ∀ x ∈ lane, f x = 0 := by
  induction lane with
  | nil => exact List.forall_mem_nil _
  | cons y lane ih =>
    obtain ⟨hy, hlane⟩ := add_eq_zero.1 h
    exact List.forall_mem_cons.2 ⟨hy, ih hlane⟩

end Weight

variable {cap : ℕ} {offered taken : List α} {lane : List (Option α)} {x : α} {item : Option α}

theorem filled_append_some : filled (lane ++ [some x]) = filled lane ++ [x] := by
  simp [List.reduceOption_append]

theorem filled_offer_none : filled (offer cap lane none) = filled lane := by
  unfold offer
  split_ifs <;> simp [List.reduceOption_append]

theorem filled_cons : filled (item :: lane) = item.toList ++ filled lane := by
  cases item <;> simp

theorem InOrder.taken_sublist {waiting : List α} (h : InOrder offered taken waiting) :
    taken.Sublist offered :=
  (List.sublist_append_left taken waiting).trans h

theorem InOrder.offer_item {lane : List α} (h : InOrder offered taken lane) (x : α) :
    InOrder (offered ++ [x]) taken (Lane.offer cap lane x) := by
  unfold InOrder at *
  by_cases hc : lane.length < cap
  · rw [offer_of_lt hc, ← List.append_assoc]
    exact h.append_right [x]
  · rw [offer_of_le (by omega)]
    exact h.trans (List.sublist_append_left offered [x])

theorem InOrder.take_item {lane : List α} (h : InOrder offered taken (x :: lane)) :
    InOrder offered (taken ++ [x]) lane := by
  unfold InOrder at *
  rwa [List.append_assoc]

theorem InOrder.offer (h : InOrder offered taken (filled lane)) :
    InOrder (offered ++ [x]) taken (filled (Lane.offer cap lane (some x))) := by
  unfold InOrder at *
  by_cases hc : lane.length < cap
  · rw [offer_of_lt hc, filled_append_some, ← List.append_assoc]
    exact h.append_right [x]
  · rw [offer_of_le (by omega)]
    exact h.trans (List.sublist_append_left offered [x])

theorem InOrder.take (h : InOrder offered taken (filled (item :: lane))) :
    InOrder offered (taken ++ item.toList) (filled lane) := by
  unfold InOrder at *
  rwa [filled_cons, ← List.append_assoc] at h

theorem Lossless.taken_prefix {waiting : List α} (h : Lossless offered taken waiting) :
    taken <+: offered :=
  ⟨waiting, h⟩

theorem Lossless.offer (h : Lossless offered taken (filled lane)) (hc : lane.length < cap) :
    Lossless (offered ++ [x]) taken (filled (Lane.offer cap lane (some x))) := by
  unfold Lossless at *
  rw [offer_of_lt hc, filled_append_some, ← List.append_assoc, h]

theorem Lossless.take (h : Lossless offered taken (filled (item :: lane))) :
    Lossless offered (taken ++ item.toList) (filled lane) := by
  unfold Lossless at *
  rwa [filled_cons, ← List.append_assoc] at h

end Lane
