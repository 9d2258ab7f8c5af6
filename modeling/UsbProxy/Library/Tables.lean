import Mathlib.Data.List.Nodup
import Mathlib.Logic.Function.Basic

/-!
# Passes over a table

A table is a function of its keys.  A pass changes the entries of the keys of a list, one after the
other, each by what stood there, and may fail at one of them.  On a list without repetitions the order
does not matter.
-/

namespace Tables

variable {K V W : Type*} [DecidableEq K]

/-- `f` at every key of the list, in order; `none` when it fails at one of them. -/
def updateEach (f : K → V → Option V) : List K → (K → V) → Option (K → V)
  | [], t => some t
  | k :: ks, t => (f k (t k)).bind fun v => updateEach f ks (Function.update t k v)

theorem updateEach_eq {f : K → V → Option V} {g : K → V} {ks : List K} {t : K → V} (hnd : ks.Nodup)
    (h : ∀ k ∈ ks, f k (t k) = some (g k)) :
    updateEach f ks t = some fun k => if k ∈ ks then g k else t k := by
  induction ks generalizing t with
  | nil => rfl
  | cons k ks ih =>
    obtain ⟨hk, hnd⟩ := List.nodup_cons.1 hnd
    have hrest : ∀ j ∈ ks, f j (Function.update t k (g k) j) = some (g j) := by
      intro j hj
      have hne : j ≠ k := fun e => hk (e ▸ hj)
      rw [Function.update_of_ne hne]
      exact h j (List.mem_cons_of_mem k hj)
    rw [updateEach, h k (List.mem_cons_self ..), Option.bind_some, ih hnd hrest]
    congr 1
    funext j
    by_cases hj : j ∈ ks
    · rw [if_pos hj, if_pos (List.mem_cons_of_mem k hj)]
    · by_cases hjk : j = k
      · subst hjk
        rw [if_neg hj, Function.update_self, if_pos (List.mem_cons_self ..)]
      · have hnot : j ∉ k :: ks := fun hmem => (List.mem_cons.1 hmem).elim hjk hj
        rw [if_neg hj, if_neg hnot, Function.update_of_ne hjk]

/-- What `f` finds at the keys of the list, in order; `none` when it fails at one of them. -/
def readEach (f : K → V → Option (List W)) (t : K → V) : List K → Option (List W)
  | [] => some []
  | k :: ks => (f k (t k)).bind fun found => (readEach f t ks).map (found ++ ·)

omit [DecidableEq K] in
theorem readEach_eq {f : K → V → Option (List W)} {g : K → List W} {ks : List K} {t : K → V}
    (h : ∀ k ∈ ks, f k (t k) = some (g k)) : readEach f t ks = some (ks.flatMap g) := by
  induction ks with
  | nil => rfl
  | cons k ks ih =>
    rw [readEach, h k (List.mem_cons_self ..), Option.bind_some,
      ih fun j hj => h j (List.mem_cons_of_mem k hj), Option.map_some, List.flatMap_cons]

end Tables
