import Mathlib.Data.Int.Notation
import Mathlib.Data.List.Basic
import Mathlib.Logic.Function.Basic

/-!
# Strings written into a block

A block of memory begins with unknown contents and takes stores at integer offsets.  `IsString m s` says
that the memory holds the text `s` up to its first zero.  What a text stored in one piece with a zero
behind it leaves is that text (`isString_stored`); a zero one place too far leaves whatever the gap had
(`isString_gap`).
-/

namespace CStrings

variable {α : Type*} {p k : ℤ} {a : α} {xs ys : List α} {u m : ℤ → α}

/-- The stores of a text at an offset. -/
def store : ℤ → List α → List (ℤ × α)
  | _, [] => []
  | p, a :: xs => (p, a) :: store (p + 1) xs

def contents (u : ℤ → α) (ws : List (ℤ × α)) : ℤ → α :=
  ws.foldl (fun m w => Function.update m w.1 w.2) u

def Written (ws : List (ℤ × α)) (k : ℤ) : Prop := ∃ w ∈ ws, w.1 = k

theorem store_append (p : ℤ) (xs ys : List α) :
    store p (xs ++ ys) = store p xs ++ store (p + xs.length) ys := by
  induction xs generalizing p with
  | nil => simp [store]
  | cons a xs ih =>
    have hp : p + 1 + (xs.length : ℤ) = p + ((a :: xs).length : ℤ) := by
      rw [List.length_cons]
      omega
    rw [List.cons_append, store, ih, hp]
    rfl

theorem mem_store {w : ℤ × α} : w ∈ store p xs → p ≤ w.1 ∧ w.1 < p + xs.length := by
  induction xs generalizing p with
  | nil => rintro ⟨⟩
  | cons a xs ih =>
    rw [store, List.mem_cons, List.length_cons]
    rintro (rfl | hw)
    · dsimp only
      omega
    · have := ih hw
      omega

theorem written_store (hp : p ≤ k) (hk : k < p + xs.length) : Written (store p xs) k := by
  induction xs generalizing p with
  | nil =>
    rw [List.length_nil] at hk
    omega
  | cons a xs ih =>
    rcases Int.lt_or_eq_of_le hp with hlt | rfl
    · rw [List.length_cons] at hk
      obtain ⟨w, hw, rfl⟩ := ih (p := p + 1) (by omega) (by omega)
      exact ⟨w, List.mem_cons_of_mem _ hw, rfl⟩
    · exact ⟨_, List.mem_cons_self, rfl⟩

theorem contents_cons (u : ℤ → α) (w : ℤ × α) (ws : List (ℤ × α)) :
    contents u (w :: ws) = contents (Function.update u w.1 w.2) ws := rfl

theorem contents_store_of_not (h : ¬ (p ≤ k ∧ k < p + xs.length)) :
    contents u (store p xs) k = u k := by
  induction xs generalizing p u with
  | nil => rfl
  | cons a xs ih =>
    rw [List.length_cons] at h
    rw [store, contents_cons, ih (by omega), Function.update_of_ne (by dsimp only; omega)]

theorem contents_store {i : ℕ} (h : i < xs.length) :
    contents u (store p xs) (p + i) = xs.get ⟨i, h⟩ := by
  induction xs generalizing p u i with
  | nil => exact absurd h (Nat.not_lt_zero i)
  | cons a xs ih =>
    rw [store, contents_cons]
    cases i with
    | zero =>
      rw [contents_store_of_not (by omega)]
      simp
    | succ i =>
      have hp : p + ((i + 1 : ℕ) : ℤ) = p + 1 + (i : ℤ) := by omega
      rw [hp]
      exact ih (Nat.lt_of_succ_lt_succ h)

/-! ## Strings -/

section Strings

variable [Zero α] {s t : List α}

/-- The memory holds the text from offset 0 on, up to its first zero. -/
def IsString (m : ℤ → α) (s : List α) : Prop :=
  (∀ (i : ℕ) (h : i < s.length), m i = s.get ⟨i, h⟩) ∧ (0 : α) ∉ s ∧ m s.length = 0

theorem IsString.length_le (hs : IsString m s) (ht : IsString m t) : s.length ≤ t.length := by
  by_contra hlt
  have hlt : t.length < s.length := Nat.lt_of_not_le hlt
  exact hs.2.1 (((hs.1 _ hlt).symm.trans ht.2.2) ▸ List.get_mem s ⟨t.length, hlt⟩)

theorem IsString.unique (hs : IsString m s) (ht : IsString m t) : s = t := by
  refine List.ext_get (Nat.le_antisymm (hs.length_le ht) (ht.length_le hs)) fun i hi hi' => ?_
  rw [← hs.1 i hi, ← ht.1 i hi']

/-- A text with a zero right behind it. -/
theorem isString_stored (h0 : (0 : α) ∉ xs) (u : ℤ → α) :
    IsString (contents u (((xs.length : ℤ), 0) :: store 0 xs)) xs := by
  refine ⟨fun i hi => ?_, h0, ?_⟩
  · have := contents_store (u := Function.update u (xs.length : ℤ) 0) (p := 0) hi
    rwa [Int.zero_add] at this
  · rw [contents_cons, contents_store_of_not (by omega), Function.update_self]

/-- A text with a gap of one and the zero behind that: what was in the gap becomes part of it. -/
theorem isString_gap (h0 : (0 : α) ∉ xs) (hu : u xs.length ≠ 0) :
    IsString (contents u (((xs.length + 1 : ℤ), 0) :: store 0 xs)) (xs ++ [u xs.length]) := by
  have hgap : contents u (((xs.length + 1 : ℤ), 0) :: store 0 xs) xs.length = u xs.length := by
    rw [contents_cons, contents_store_of_not (by omega), Function.update_of_ne (by dsimp only; omega)]
  refine ⟨fun i hi => ?_, ?_, ?_⟩
  · rw [List.length_append, List.length_singleton] at hi
    rcases Nat.lt_or_eq_of_le (Nat.le_of_lt_succ hi) with hlt | rfl
    · have := contents_store (u := Function.update u (xs.length + 1 : ℤ) 0) (p := 0) hlt
      rw [Int.zero_add] at this
      refine this.trans ?_
      simp [List.getElem_append_left hlt]
    · rw [hgap]
      simp
  · rw [List.mem_append, List.mem_singleton]
    rintro (h | h)
    · exact h0 h
    · exact hu h.symm
  · have hlen : ((xs ++ [u xs.length]).length : ℤ) = xs.length + 1 := by simp
    rw [hlen, contents_cons, contents_store_of_not (by omega), Function.update_self]

end Strings

end CStrings
