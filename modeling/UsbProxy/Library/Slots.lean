import Mathlib.Data.List.Forall2
import Mathlib.Data.List.ReduceOption
import UsbProxy.Library.Upserts

/-!
# Tables of slots

An array of nullable entries that grows to the index of a store: `slot` reads it, `put` stores into it.
`foldl_put_last` is the rule for storing one entry after another, for any kind of table with a lookup.
-/

namespace Slots

variable {α : Type*}

/-- The entry at an index, null behind the end. -/
def slot (l : List (Option α)) (k : ℕ) : Option α := (l[k]?).join

/-- Store at an index; the array grows to it if it has to. -/
def put (l : List (Option α)) (k : ℕ) (a : α) : List (Option α) :=
  if k < l.length then l.set k (some a) else l ++ List.replicate (k - l.length) none ++ [some a]

variable {l : List (Option α)} {j k : ℕ} {a : α}

theorem slot_eq_none_of_le (h : l.length ≤ k) : slot l k = none := by
  unfold slot
  rw [List.getElem?_eq_none h]
  rfl

theorem slot_append_replicate (l : List (Option α)) (n k : ℕ) :
    slot (l ++ List.replicate n none) k = slot l k := by
  rcases Nat.lt_or_ge k l.length with h | h
  · unfold slot
    rw [List.getElem?_append_left h]
  · rw [slot_eq_none_of_le h]
    unfold slot
    rw [List.getElem?_append_right h, List.getElem?_replicate]
    by_cases hk : k - l.length < n
    · rw [if_pos hk]
      rfl
    · rw [if_neg hk]
      rfl

theorem slot_set_self (h : k < l.length) (x : Option α) : slot (l.set k x) k = x := by
  unfold slot
  rw [List.getElem?_set_self h]
  rfl

theorem slot_set_ne (h : j ≠ k) (x : Option α) : slot (l.set k x) j = slot l j := by
  unfold slot
  rw [List.getElem?_set_ne h.symm]

/-- A store is read back, and every other entry stays, also when the array grows. -/
theorem slot_put (l : List (Option α)) (k : ℕ) (a : α) (j : ℕ) :
    slot (put l k a) j = if j = k then some a else slot l j := by
  unfold put
  by_cases hk : k < l.length
  · rw [if_pos hk]
    by_cases hj : j = k
    · rw [if_pos hj, hj, slot_set_self hk]
    · rw [if_neg hj, slot_set_ne hj]
  · rw [if_neg hk]
    have hlen : (l ++ List.replicate (k - l.length) none).length = k := by
      rw [List.length_append, List.length_replicate]
      omega
    rcases Nat.lt_trichotomy j k with hj | rfl | hj
    · rw [if_neg (by omega), ← slot_append_replicate l (k - l.length)]
      unfold slot
      rw [List.getElem?_append_left (by omega)]
    · rw [if_pos rfl]
      unfold slot
      rw [List.getElem?_append_right (by omega), hlen, Nat.sub_self]
      rfl
    · have hend : (l ++ List.replicate (k - l.length) none ++ [some a]).length ≤ j := by
        rw [List.length_append, hlen, List.length_singleton]
        omega
      rw [if_neg (by omega), slot_eq_none_of_le hend, slot_eq_none_of_le (by omega)]

theorem length_put (l : List (Option α)) (k : ℕ) (a : α) :
    (put l k a).length = max l.length (k + 1) := by
  unfold put
  by_cases hk : k < l.length
  · rw [if_pos hk, List.length_set]
    omega
  · rw [if_neg hk, List.length_append, List.length_append, List.length_replicate,
      List.length_singleton]
    omega

/-! ## All entries -/

theorem mem_iff_exists_slot : some a ∈ l ↔ ∃ k, slot l k = some a := by
  rw [List.mem_iff_getElem?]
  exact exists_congr fun k => Option.join_eq_some_iff.symm

theorem reduceOption_eq_slots {n : ℕ} (h : l.length ≤ n) :
    l.reduceOption = (List.range n).filterMap (slot l) := by
  obtain ⟨m, rfl⟩ := Nat.exists_eq_add_of_le h
  have hentries : l = (List.range l.length).map fun k => slot l k := by
    refine List.ext_getElem (by rw [List.length_map, List.length_range]) fun k hk _ => ?_
    rw [List.getElem_map, List.getElem_range, slot, List.getElem?_eq_getElem hk]
    rfl
  have hbehind : ((List.range m).map (l.length + ·)).filterMap (slot l) = [] := by
    rw [List.filterMap_eq_nil_iff]
    intro k hk
    obtain ⟨j, -, rfl⟩ := List.mem_map.1 hk
    exact slot_eq_none_of_le (Nat.le_add_right ..)
  rw [List.range_add, List.filterMap_append, hbehind, List.append_nil]
  nth_rewrite 1 [hentries]
  rw [List.reduceOption, List.filterMap_map]
  rfl

/-! ## One entry after another -/

section Fold

open Upserts

variable {σ V K : Type*} {get : σ → K → Option V} {add : σ → V → σ} {key : V → K} {Inv : σ → Prop}
  {Fits : V → Prop} {s : σ} {vs : List V}

/-- The lookup finds what was stored last under a key, else what was there. -/
theorem foldl_put_last [DecidableEq K] (hinv : ∀ s v, Inv s → Fits v → Inv (add s v))
    (hget : ∀ s v k, Inv s → Fits v → get (add s v) k = if k = key v then some v else get s k)
    (hs : Inv s) (hvs : ∀ v ∈ vs, Fits v) (k : K) :
    get (vs.foldl add s) k = (last key vs k).or (get s k) := by
  induction vs generalizing s with
  | nil => rfl
  | cons v vs ih =>
    obtain ⟨hv, hvs⟩ := List.forall_mem_cons.1 hvs
    rw [List.foldl_cons, ih (hinv s v hs hv) hvs, hget s v k hs hv, last_cons, Option.or_assoc]
    refine congrArg ((last key vs k).or ·) ?_
    by_cases hk : k = key v
    · rw [if_pos hk, if_pos hk.symm, Option.some_or]
    · rw [if_neg hk, if_neg (Ne.symm hk), Option.none_or]

end Fold

end Slots
