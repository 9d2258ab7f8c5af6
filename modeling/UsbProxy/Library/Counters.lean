import Mathlib.Data.Nat.Notation
import Mathlib.Data.Option.Basic

/-!
# Loops with a counter of limited width

`for (; j < n && go; j++) body` over a state, where `j` counts modulo `m`.  As long as `m` is larger than
`n` the counter does not wrap and the loop is a pass over the entries from `j` on (`loop_eq_pass`);
otherwise a loop that nothing stops goes on for ever (`loop_eq_none`).
-/

namespace Counters

/-! ## Fuel -/

section Stable

variable {α β : Type*} {g : ℕ → Option α} {f : α → ℕ → Option β} {a : α} {k : ℕ}

/-- A computation with fuel: a result stays when there is more of it. -/
def Stable (g : ℕ → Option α) : Prop := ∀ i r, g i = some r → g (i + 1) = some r

theorem Stable.le (hg : Stable g) {i : ℕ} (hle : k ≤ i) (h : g k = some a) : g i = some a := by
  induction hle with
  | refl => exact h
  | step _ ih => exact hg _ _ ih

theorem Stable.unique (hg : Stable g) {i : ℕ} {b : α} (ha : g k = some a) (hb : g i = some b) :
    a = b := by
  rcases Nat.le_total k i with hle | hle
  · exact Option.some.inj ((hg.le hle ha).symm.trans hb)
  · exact Option.some.inj (ha.symm.trans (hg.le hle hb))

theorem stable_const (o : Option α) : Stable fun _ => o := fun _ _ h => h

theorem Stable.map (hg : Stable g) (f : α → β) : Stable fun i => (g i).map f := by
  intro i r h
  obtain ⟨a, ha, rfl⟩ := Option.map_eq_some_iff.1 h
  exact Option.map_eq_some_iff.2 ⟨a, hg i a ha, rfl⟩

theorem Stable.bind (hg : Stable g) (hf : ∀ a, Stable (f a)) :
    Stable fun i => (g i).bind fun a => f a i := by
  intro i r h
  obtain ⟨a, ha, hr⟩ := Option.bind_eq_some_iff.1 h
  exact Option.bind_eq_some_iff.2 ⟨a, hg i a ha, hf a i r hr⟩

theorem Stable.exists_bind_iff (hg : Stable g) (hf : ∀ a, Stable (f a)) (h : g k = some a)
    {Q : β → Prop} :
    (∃ i r, ((g i).bind fun a => f a i) = some r ∧ Q r) ↔ ∃ i r, f a i = some r ∧ Q r := by
  constructor
  · rintro ⟨i, r, hr, hQ⟩
    obtain ⟨b, hb, hr⟩ := Option.bind_eq_some_iff.1 hr
    exact ⟨i, r, hg.unique h hb ▸ hr, hQ⟩
  · rintro ⟨i, r, hr, hQ⟩
    have ha : g (max k i) = some a := hg.le (Nat.le_max_left k i) h
    have hr' : f a (max k i) = some r := (hf a).le (Nat.le_max_right k i) hr
    exact ⟨max k i, r, Option.bind_eq_some_iff.2 ⟨a, ha, hr'⟩, hQ⟩

theorem Stable.exists_iff (hg : Stable g) (h : g k = some a) {Q : α → Prop} :
    (∃ i r, g i = some r ∧ Q r) ↔ Q a := by
  constructor
  · rintro ⟨i, r, hr, hQ⟩
    exact hg.unique h hr ▸ hQ
  · exact fun hQ => ⟨k, a, h, hQ⟩

end Stable

/-! ## Loops -/

variable {σ : Type*} (m n : ℕ) (go : σ → Bool) (body : ℕ → σ → σ)

/-- At most `fuel` tests of the guard: the counter and the state where it fails. -/
def loop : ℕ → ℕ → σ → Option (ℕ × σ)
  | 0, _, _ => none
  | fuel + 1, j, s =>
    if j < n ∧ go s = true then loop fuel ((j + 1) % m) (body j s) else some (j, s)

/-- The same for a counter without a width that has `k` entries to go. -/
def pass : ℕ → ℕ → σ → ℕ × σ
  | 0, j, s => (j, s)
  | k + 1, j, s => if go s = true then pass k (j + 1) (body j s) else (j, s)

variable {m n go body} {fuel j k : ℕ} {s : σ}

theorem loop_succ (fuel j : ℕ) (s : σ) : loop m n go body (fuel + 1) j s =
    if j < n ∧ go s = true then loop m n go body fuel ((j + 1) % m) (body j s) else some (j, s) :=
  rfl

theorem pass_succ (k j : ℕ) (s : σ) : pass go body (k + 1) j s =
    if go s = true then pass go body k (j + 1) (body j s) else (j, s) := rfl

theorem stable_loop (j : ℕ) (s : σ) : Stable fun fuel => loop m n go body fuel j s := by
  intro fuel
  dsimp only
  induction fuel generalizing j s with
  | zero => rintro r ⟨⟩
  | succ fuel ih =>
    intro r h
    rw [loop_succ] at h ⊢
    by_cases hgo : j < n ∧ go s = true
    · rw [if_pos hgo] at h ⊢
      exact ih _ _ r h
    · rwa [if_neg hgo] at h ⊢

/-- **Without a wrap.** -/
theorem loop_eq_pass (h : n < m) (hj : j ≤ n) (hfuel : n - j < fuel) :
    loop m n go body fuel j s = some (pass go body (n - j) j s) := by
  induction fuel generalizing j s with
  | zero => exact absurd hfuel (Nat.not_lt_zero _)
  | succ fuel ih =>
    rw [loop_succ]
    rcases Nat.lt_or_eq_of_le hj with hlt | rfl
    · obtain ⟨k, hk⟩ : ∃ k, n - j = k + 1 := ⟨n - j - 1, by omega⟩
      rw [hk, pass_succ]
      by_cases hgo : go s = true
      · have hmod : (j + 1) % m = j + 1 := Nat.mod_eq_of_lt (by omega)
        have hrest : n - (j + 1) = k := by omega
        rw [if_pos ⟨hlt, hgo⟩, if_pos hgo, hmod, ih (by omega) (by omega), hrest]
      · rw [if_neg fun hc => hgo hc.2, if_neg hgo]
    · rw [if_neg fun hc => Nat.lt_irrefl _ hc.1, Nat.sub_self]
      rfl

/-- **With a wrap.**  The guard never fails. -/
theorem loop_eq_none (h : m ≤ n) (hj : j < m) (Inv : σ → Prop) (hgo : ∀ s, Inv s → go s = true)
    (hbody : ∀ j s, Inv s → Inv (body j s)) (hs : Inv s) (fuel : ℕ) :
    loop m n go body fuel j s = none := by
  induction fuel generalizing j s with
  | zero => rfl
  | succ fuel ih =>
    rw [loop_succ, if_pos ⟨by omega, hgo s hs⟩]
    exact ih (Nat.mod_lt _ (by omega)) (hbody j s hs)

end Counters
