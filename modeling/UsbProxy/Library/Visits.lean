import Mathlib.Data.List.Basic
import Mathlib.Logic.Function.Basic

/-!
# Visits to a table

A loop over a list visits a key of a table at each position, changes the entry there by what the
environment answers at that position, and counts some of the visits.  A key may be visited more than
once; where it is not, `visitEach_apply` and `visitEach_count` give the table and the number.
-/

namespace Visits

variable {K A V : Type*}

/-- The positions of a list with their answers. -/
def answered (answers : ℕ → A) (keys : List K) : List (K × A) :=
  keys.mapIdx fun i k => (k, answers i)

theorem map_fst_answered (answers : ℕ → A) (keys : List K) :
    (answered answers keys).map Prod.fst = keys := by
  refine List.ext_getElem? fun i => ?_
  simp only [answered, List.getElem?_map, List.getElem?_mapIdx, Option.map_map]
  exact congrFun Option.map_id _

theorem answered_update (a b : A) (keys later : List K) (k : K) :
    answered (Function.update (fun _ => a) keys.length b) (keys ++ k :: later) =
      keys.map (·, a) ++ (k, b) :: later.map (·, a) := by
  unfold answered
  refine List.mapIdx_eq_iff.2 fun i => ?_
  rcases Nat.lt_trichotomy i keys.length with h | rfl | h
  · rw [List.getElem?_append_left (by simpa using h), List.getElem?_append_left h]
    simp [Nat.ne_of_lt h]
  · simp
  · obtain ⟨j, rfl⟩ := Nat.exists_eq_add_of_lt h
    rw [List.getElem?_append_right (by simp; omega), List.getElem?_append_right (by omega)]
    simp [Nat.add_assoc, show keys.length + (j + 1) - keys.length = j + 1 by omega]

variable [DecidableEq K] (f : V → A → V × Bool)

/-- The table after the visits, and how many of them count. -/
def visitEach : List (K × A) → (K → V) → (K → V) × ℕ
  | [], t => (t, 0)
  | (k, a) :: visits, t =>
    let v := f (t k) a
    let r := visitEach visits (Function.update t k v.1)
    (r.1, r.2 + v.2.toNat)

variable {f} {visits : List (K × A)} {t : K → V} {k : K}

theorem visitEach_append (xs ys : List (K × A)) (t : K → V) :
    visitEach f (xs ++ ys) t =
      ((visitEach f ys (visitEach f xs t).1).1,
        (visitEach f xs t).2 + (visitEach f ys (visitEach f xs t).1).2) := by
  induction xs generalizing t with
  | nil => simp [visitEach]
  | cons x xs ih =>
    simp only [List.cons_append, visitEach, ih]
    rw [Nat.add_right_comm]

theorem visitEach_of_not_mem (h : k ∉ visits.map Prod.fst) : (visitEach f visits t).1 k = t k := by
  induction visits generalizing t with
  | nil => rfl
  | cons x visits ih =>
    rw [List.map_cons, List.mem_cons, not_or] at h
    rw [visitEach, ih h.2, Function.update_of_ne h.1]

/-! ## What every visit keeps -/

variable {I Q : V → Prop}

theorem visitEach_invariant (hf : ∀ x ∈ visits, ∀ v, I v → I (f v x.2).1) (ht : I (t k)) :
    I ((visitEach f visits t).1 k) := by
  induction visits generalizing t with
  | nil => exact ht
  | cons x visits ih =>
    refine ih (fun y hy => hf y (List.mem_cons_of_mem x hy)) ?_
    by_cases hk : k = x.1
    · rw [hk, Function.update_self]
      exact hf x List.mem_cons_self _ (hk ▸ ht)
    · rwa [Function.update_of_ne hk]

theorem visitEach_established (hf : ∀ x ∈ visits, ∀ v, I v → Q (f v x.2).1) (hQ : ∀ v, Q v → I v)
    (hk : k ∈ visits.map Prod.fst) (ht : I (t k)) : Q ((visitEach f visits t).1 k) := by
  induction visits generalizing t with
  | nil => cases hk
  | cons x visits ih =>
    have hlater : ∀ y ∈ visits, ∀ v, I v → Q (f v y.2).1 :=
      fun y hy => hf y (List.mem_cons_of_mem x hy)
    by_cases hx : k = x.1
    · show Q ((visitEach f visits _).1 k)
      refine visitEach_invariant (fun y hy v hv => hlater y hy v (hQ v hv)) ?_
      rw [hx, Function.update_self]
      exact hf x List.mem_cons_self _ (hx ▸ ht)
    · refine ih hlater ((List.mem_cons.1 hk).resolve_left hx) ?_
      rwa [Function.update_of_ne hx]

/-- Where an invariant makes every visit count, the number is that of the visits. -/
theorem visitEach_count_all (hf : ∀ x ∈ visits, ∀ v, I v → I (f v x.2).1 ∧ (f v x.2).2 = true)
    (ht : ∀ k ∈ visits.map Prod.fst, I (t k)) : (visitEach f visits t).2 = visits.length := by
  induction visits generalizing t with
  | nil => rfl
  | cons x visits ih =>
    obtain ⟨hI, hcount⟩ := hf x List.mem_cons_self _ (ht x.1 List.mem_cons_self)
    rw [visitEach, hcount, ih (fun y hy => hf y (List.mem_cons_of_mem x hy)) ?_]
    · rfl
    · intro j hj
      by_cases hx : j = x.1
      · rwa [hx, Function.update_self]
      · rw [Function.update_of_ne hx]
        exact ht j (List.mem_cons_of_mem _ hj)

/-! ## Visits that do nothing -/

/-- Visits to entries that they neither change nor count can be left out. -/
theorem visitEach_filter (p : K → Bool)
    (hfixed : ∀ x ∈ visits, p x.1 = false → ∀ a, f (t x.1) a = (t x.1, false)) :
    visitEach f visits t = visitEach f (visits.filter fun x => p x.1) t := by
  induction visits generalizing t with
  | nil => rfl
  | cons x visits ih =>
    cases hp : p x.1 with
    | false =>
      rw [visitEach, hfixed x List.mem_cons_self hp]
      simp only [List.filter_cons, hp, Bool.false_eq_true, if_false, Function.update_eq_self,
        Bool.toNat_false, Nat.add_zero]
      exact ih fun y hy => hfixed y (List.mem_cons_of_mem x hy)
    | true =>
      simp only [List.filter_cons, hp, if_true]
      rw [visitEach, visitEach, ih]
      intro y hy hpy
      have hne : y.1 ≠ x.1 := fun h => by rw [h, hp] at hpy; cases hpy
      rw [Function.update_of_ne hne]
      exact hfixed y (List.mem_cons_of_mem x hy) hpy

/-! ## Different keys -/

theorem visitEach_apply (hnd : (visits.map Prod.fst).Nodup) {x : K × A} (hx : x ∈ visits) :
    (visitEach f visits t).1 x.1 = (f (t x.1) x.2).1 := by
  induction visits generalizing t with
  | nil => cases hx
  | cons y visits ih =>
    obtain ⟨hy, hnd⟩ := List.nodup_cons.1 hnd
    rw [visitEach]
    rcases List.mem_cons.1 hx with rfl | hx
    · rw [visitEach_of_not_mem hy, Function.update_self]
    · have hne : x.1 ≠ y.1 := fun h => hy (h ▸ List.mem_map_of_mem hx)
      rw [ih hnd hx, Function.update_of_ne hne]

/-- Where a visit counts by what it makes of the entry, the number is that of such entries. -/
theorem visitEach_count (hnd : (visits.map Prod.fst).Nodup) (p : V → Bool)
    (hp : ∀ x ∈ visits, (f (t x.1) x.2).2 = p (f (t x.1) x.2).1) :
    (visitEach f visits t).2 =
      (visits.map Prod.fst).countP fun k => p ((visitEach f visits t).1 k) := by
  induction visits generalizing t with
  | nil => rfl
  | cons y visits ih =>
    obtain ⟨hy, hnd⟩ := List.nodup_cons.1 hnd
    have hlater : ∀ x ∈ visits, Function.update t y.1 (f (t y.1) y.2).1 x.1 = t x.1 := by
      intro x hx
      have hne : x.1 ≠ y.1 := fun h => hy (h ▸ List.mem_map_of_mem hx)
      exact Function.update_of_ne hne _ t
    have hcount := ih (t := Function.update t y.1 (f (t y.1) y.2).1) hnd fun x hx => by
      rw [hlater x hx]
      exact hp x (List.mem_cons_of_mem y hx)
    rw [List.map_cons, List.countP_cons, visitEach]
    simp only [visitEach_of_not_mem hy, Function.update_self, ← hcount,
      hp y List.mem_cons_self]
    cases p (f (t y.1) y.2).1 <;> rfl

end Visits
