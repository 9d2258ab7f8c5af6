import Mathlib.Data.List.Nodup
import Mathlib.Logic.Function.Basic

/-!
# Numbers that are given out again

A table says who has a number open.  A number is free as soon as it is closed and may then be given to
anybody, so that a party which closes one twice closes somebody else's.  One party keeps its numbers at the
places of an `owner` table, and those it has no place for any more are `lost`.  `Held` says that the numbers
it has open are exactly these, each kept once; then it closes only what is its own, and what stays open is
what it still keeps and what is lost.
-/

namespace Handles

variable {ω κ : Type*}

/-- Who has a number open. -/
abbrev Table (ω : Type*) := ℕ → Option ω

structure Held (mine : ω) (t : Table ω) (owner : κ → Option ℕ) (lost : List ℕ) : Prop where
  mine_iff : ∀ n, t n = some mine ↔ (∃ k, owner k = some n) ∨ n ∈ lost
  inj : ∀ k l n, owner k = some n → owner l = some n → k = l
  apart : ∀ k n, owner k = some n → n ∉ lost
  nodup : lost.Nodup

namespace Held

variable {mine w : ω} {t : Table ω} {owner : κ → Option ℕ} {lost : List ℕ} {n : ℕ} {k : κ}

theorem is_mine (h : Held mine t owner lost) (hk : owner k = some n) : t n = some mine :=
  (h.mine_iff n).2 (.inl ⟨k, hk⟩)

/-- What somebody else does with a number that is not kept. -/
theorem elsewhere (h : Held mine t owner lost) (hn : t n ≠ some mine) {who : Option ω}
    (hwho : who ≠ some mine) : Held mine (Function.update t n who) owner lost where
  mine_iff m := by
    by_cases hm : m = n
    · subst hm
      rw [Function.update_self, ← h.mine_iff]
      exact iff_of_false hwho hn
    · rw [Function.update_of_ne hm]
      exact h.mine_iff m
  inj := h.inj
  apart := h.apart
  nodup := h.nodup

/-- A free number opened and kept nowhere. -/
theorem leaked (h : Held mine t owner lost) (hn : t n = none) :
    Held mine (Function.update t n (some mine)) owner (lost ++ [n]) where
  mine_iff m := by
    rw [List.mem_append, List.mem_singleton, ← or_assoc]
    by_cases hm : m = n
    · subst hm
      rw [Function.update_self]
      exact iff_of_true rfl (.inr rfl)
    · rw [Function.update_of_ne hm, h.mine_iff]
      exact (or_iff_left hm).symm
  inj := h.inj
  apart l m hl hm := by
    rcases List.mem_append.1 hm with hm | hm
    · exact h.apart l m hl hm
    · have hmine := h.is_mine hl
      rw [List.mem_singleton.1 hm, hn] at hmine
      cases hmine
  nodup := by
    refine h.nodup.append (List.nodup_singleton n) fun m hm hm' => ?_
    have hmine := (h.mine_iff m).2 (.inr hm)
    rw [List.mem_singleton.1 hm', hn] at hmine
    cases hmine

variable [DecidableEq κ]

theorem update_none_eq_some {l : κ} :
    Function.update owner k none l = some n ↔ l ≠ k ∧ owner l = some n := by
  by_cases hlk : l = k
  · subst hlk
    rw [Function.update_self]
    exact iff_of_false (fun h => nomatch h) fun h => h.1 rfl
  · rw [Function.update_of_ne hlk]
    exact (and_iff_right hlk).symm

theorem forgotten (h : Held mine t owner lost) (k : κ) :
    Held mine t (Function.update owner k none) (lost ++ (owner k).toList) where
  mine_iff m := by
    rw [h.mine_iff, List.mem_append, Option.mem_toList]
    simp only [update_none_eq_some]
    constructor
    · rintro (⟨l, hl⟩ | hm)
      · by_cases hlk : l = k
        · exact .inr (.inr (hlk ▸ hl))
        · exact .inl ⟨l, hlk, hl⟩
      · exact .inr (.inl hm)
    · rintro (⟨l, -, hl⟩ | hm | hm)
      · exact .inl ⟨l, hl⟩
      · exact .inr hm
      · exact .inl ⟨k, hm⟩
  inj l m a hl hm := h.inj l m a (update_none_eq_some.1 hl).2 (update_none_eq_some.1 hm).2
  apart l a hl ha := by
    obtain ⟨hlk, hl⟩ := update_none_eq_some.1 hl
    rw [List.mem_append, Option.mem_toList] at ha
    rcases ha with ha | ha
    · exact h.apart l a hl ha
    · exact hlk (h.inj l k a hl ha)
  nodup := by
    refine h.nodup.append (Option.toList_nodup _) fun a ha ha' => ?_
    exact h.apart k a (Option.mem_toList.1 ha') ha

theorem closed (h : Held mine t owner lost) (hk : owner k = some n) :
    Held mine (Function.update t n none) (Function.update owner k none) lost where
  mine_iff m := by
    simp only [update_none_eq_some]
    by_cases hm : m = n
    · subst hm
      rw [Function.update_self]
      refine iff_of_false (fun h => nomatch h) ?_
      rintro (⟨l, hlk, hl⟩ | hlost)
      · exact hlk (h.inj l k m hl hk)
      · exact h.apart k m hk hlost
    · rw [Function.update_of_ne hm, h.mine_iff]
      refine or_congr_left (exists_congr fun l => (and_iff_right_of_imp fun hl hlk => ?_).symm)
      rw [hlk, hk] at hl
      exact hm (Option.some.inj hl).symm
  inj l m a hl hm := h.inj l m a (update_none_eq_some.1 hl).2 (update_none_eq_some.1 hm).2
  apart l a hl := h.apart l a (update_none_eq_some.1 hl).2
  nodup := h.nodup

/-- A free number opened for a place; what was kept there is lost. -/
theorem opened (h : Held mine t owner lost) (hn : t n = none) (k : κ) :
    Held mine (Function.update t n (some mine)) (Function.update owner k (some n))
      (lost ++ (owner k).toList) := by
  have hforgot := h.forgotten k
  have hkept : ∀ l m, Function.update owner k (some n) l = some m ↔
      (l = k ∧ m = n) ∨ Function.update owner k none l = some m := by
    intro l m
    by_cases hlk : l = k
    · subst hlk
      rw [Function.update_self, Function.update_self, Option.some.injEq]
      simp [eq_comm]
    · rw [Function.update_of_ne hlk, Function.update_of_ne hlk]
      simp [hlk]
  have hnew : ∀ l, Function.update owner k none l ≠ some n := by
    intro l hl
    have hmine := hforgot.is_mine hl
    rw [hn] at hmine
    cases hmine
  constructor
  · intro m
    by_cases hm : m = n
    · subst hm
      rw [Function.update_self]
      exact iff_of_true rfl (.inl ⟨k, Function.update_self ..⟩)
    · rw [Function.update_of_ne hm, hforgot.mine_iff]
      simp only [hkept, hm, and_false, false_or]
  · intro l m a hl hm
    rcases (hkept l a).1 hl with ⟨rfl, rfl⟩ | hold
    · rcases (hkept m a).1 hm with ⟨rfl, -⟩ | hold
      · rfl
      · exact absurd hold (hnew m)
    · rcases (hkept m a).1 hm with ⟨-, rfl⟩ | hold'
      · exact absurd hold (hnew l)
      · exact hforgot.inj l m a hold hold'
  · intro l a hl ha
    rcases (hkept l a).1 hl with ⟨-, rfl⟩ | hold
    · have hmine := (hforgot.mine_iff a).2 (.inr ha)
      rw [hn] at hmine
      cases hmine
    · exact hforgot.apart l a hold ha
  · exact hforgot.nodup

end Held

end Handles
