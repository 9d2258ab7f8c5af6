import Mathlib.Data.List.Infix

/-!
# Searching without going back

A search that runs over a text once, with a pointer into the pattern: an element that fits advances
the pointer, one that does not sets it back to the start and is not looked at again.  `r a b` says
that `a` of the text fits `b` of the pattern.

An attempt begins at the start of the text and right behind every element that did not fit; these
are the positions of `Restart`.  `scan_iff`: the search finds exactly the occurrences at them.
-/

namespace Scanning

variable {α β : Type*} (r : α → β → Bool)

/-- How many elements of a text fit a pattern from the start on. -/
def common : List α → List β → ℕ
  | a :: as, b :: bs => if r a b then common as bs + 1 else 0
  | _, _ => 0

/-- The search for `p`, with the part of it that has not been found yet. -/
def scan (p : List β) : List β → List α → Bool
  | b :: q, a :: as => if r a b then if q = [] then true else scan p q as else scan p p as
  | _, _ => false

/-- Where an attempt begins. -/
inductive Restart (p : List β) (t : List α) : ℕ → Prop
  | start : Restart p t 0
  | again {s : ℕ} : Restart p t s → common r (t.drop s) p ≠ p.length →
      Restart p t (s + common r (t.drop s) p + 1)

variable {r} {p q : List β} {t : List α} {n s : ℕ}

@[simp] theorem scan_nil (p q : List β) : scan r p q [] = false := by
  cases q <;> rfl

theorem common_nil (q : List β) : common r [] q = 0 := rfl

/-- One attempt on the first `n` elements of a text. -/
theorem scan_attempt (hq : q ≠ []) (t : List α) (n : ℕ) :
    scan r p q (t.take n) =
      if common r t q = q.length then decide (q.length ≤ n)
      else scan r p p ((t.drop (common r t q + 1)).take (n - (common r t q + 1))) := by
  induction t generalizing q n with
  | nil =>
    rw [List.take_nil, scan_nil, List.drop_nil, List.take_nil, scan_nil, common_nil, if_neg]
    exact fun h => hq (List.eq_nil_of_length_eq_zero h.symm)
  | cons a t ih =>
    cases q with
    | nil => exact absurd rfl hq
    | cons b q =>
      cases n with
      | zero =>
        rw [List.take_zero, scan_nil, Nat.zero_sub, List.take_zero, scan_nil]
        split_ifs <;> rfl
      | succ n =>
        rw [List.take_succ_cons, scan, common, List.length_cons]
        by_cases hr : r a b = true
        · rw [if_pos hr, if_pos hr]
          by_cases hnil : q = []
          · subst hnil
            rw [if_pos rfl, show common r t ([] : List β) = 0 by cases t <;> rfl]
            rfl
          · rw [if_neg hnil, ih hnil, List.drop_succ_cons]
            simp only [Nat.add_right_cancel_iff, Nat.add_le_add_iff_right, Nat.add_sub_add_right]
        · rw [if_neg hr, if_neg hr, if_neg (Nat.succ_ne_zero _).symm]
          rfl

/-- After a first attempt that failed, the attempts are those in the rest of the text. -/
theorem restart_iff (h : common r t p ≠ p.length) :
    Restart r p t s ↔
      s = 0 ∨ ∃ s', s = common r t p + 1 + s' ∧ Restart r p (t.drop (common r t p + 1)) s' := by
  constructor
  · intro hs
    induction hs with
    | start => exact .inl rfl
    | again _ hne ih =>
      obtain rfl | ⟨s', rfl, hs'⟩ := ih
      · exact .inr ⟨0, by rw [List.drop_zero, Nat.zero_add, Nat.add_zero], .start⟩
      · rw [← List.drop_drop] at hne ⊢
        exact .inr ⟨_, by omega, .again hs' hne⟩
  · rintro (rfl | ⟨s', rfl, hs'⟩)
    · exact .start
    · induction hs' with
      | start =>
        have := Restart.again (Restart.start (r := r) (p := p) (t := t)) h
        rwa [List.drop_zero, Nat.zero_add] at this
      | again _ hne ih =>
        rw [List.drop_drop] at hne ⊢
        have := Restart.again ih hne
        rwa [Nat.add_assoc, Nat.add_assoc, ← Nat.add_assoc _ _ 1] at this

/-- **The search.**  In the first `n` elements of a text it finds the occurrences where an attempt
begins. -/
theorem scan_iff (hp : p ≠ []) (t : List α) (n : ℕ) :
    scan r p p (t.take n) = true ↔
      ∃ s, Restart r p t s ∧ s + p.length ≤ n ∧ common r (t.drop s) p = p.length := by
  have hpos : 0 < p.length := List.length_pos_of_ne_nil hp
  induction n using Nat.strongRecOn generalizing t with
  | ind n ih =>
    rw [scan_attempt hp]
    by_cases h : common r t p = p.length
    · rw [if_pos h, decide_eq_true_eq]
      constructor
      · intro hn
        exact ⟨0, .start, by rwa [Nat.zero_add], h⟩
      · rintro ⟨s, -, hn, -⟩
        exact Nat.le_trans (Nat.le_add_left _ _) hn
    · rw [if_neg h]
      by_cases hlt : n < common r t p + 1
      · rw [Nat.sub_eq_zero_of_le (Nat.le_of_lt hlt), List.take_zero, scan_nil]
        refine iff_of_false Bool.false_ne_true ?_
        rintro ⟨s, hs, hn, hfit⟩
        obtain rfl | ⟨s', rfl, -⟩ := (restart_iff h).1 hs
        · exact h hfit
        · omega
      · refine (ih (n - (common r t p + 1)) (by omega) (t.drop (common r t p + 1))).trans ?_
        constructor
        · rintro ⟨s', hs', hn, hfit⟩
          rw [List.drop_drop] at hfit
          exact ⟨_, (restart_iff h).2 (.inr ⟨s', rfl, hs'⟩), by omega, hfit⟩
        · rintro ⟨s, hs, hn, hfit⟩
          obtain rfl | ⟨s', rfl, hs'⟩ := (restart_iff h).1 hs
          · exact absurd hfit h
          · exact ⟨s', hs', by omega, by rwa [List.drop_drop]⟩

/-- Where only equal elements fit, what fits is there. -/
theorem prefix_of_common {r : α → α → Bool} (hr : ∀ a b, r a b = true → a = b) {p t : List α}
    (h : common r t p = p.length) : p <+: t := by
  induction p generalizing t with
  | nil => exact List.nil_prefix
  | cons b p ih =>
    cases t with
    | nil => exact absurd h.symm (Nat.succ_ne_zero _)
    | cons a t =>
      rw [common] at h
      split_ifs at h with hfit
      exact List.cons_prefix_cons.2 ⟨(hr a b hfit).symm, ih (Nat.succ.inj h)⟩

end Scanning
