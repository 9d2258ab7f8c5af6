import Mathlib.Data.List.Nodup
import Mathlib.Logic.Function.Basic

/-!
# Blocks and who frees them

`malloc` gives blocks numbers that count up, so a number is never given twice; a block is live from then
until it is freed.  An `owner` table holds a pointer at some places, each to a block of its own, and the
blocks no pointer leads to any more are `lost`.  `Ledger` says that the live blocks are exactly those,
each counted once: then nothing is freed twice through the table, and what leaks is what is lost.
-/

namespace Blocks

variable {α κ : Type*}

structure Store (α : Type*) where
  contents : ℕ → Option α
  next : ℕ

namespace Store

def empty : Store α := ⟨fun _ => none, 0⟩

/-- The new block is `s.next`. -/
def malloc (s : Store α) (a : α) : Store α :=
  ⟨Function.update s.contents s.next (some a), s.next + 1⟩

def free (s : Store α) (b : ℕ) : Store α := { s with contents := Function.update s.contents b none }

def Live (s : Store α) (b : ℕ) : Prop := s.contents b ≠ none

variable {s : Store α} {a : α} {b c : ℕ}

theorem contents_malloc_next : (s.malloc a).contents s.next = some a := Function.update_self ..

theorem contents_malloc_of_ne (h : c ≠ s.next) : (s.malloc a).contents c = s.contents c :=
  Function.update_of_ne h ..

theorem contents_free_self : (s.free b).contents b = none := Function.update_self ..

theorem contents_free_of_ne (h : c ≠ b) : (s.free b).contents c = s.contents c :=
  Function.update_of_ne h ..

theorem live_malloc_iff : (s.malloc a).Live c ↔ c = s.next ∨ s.Live c := by
  unfold Live
  by_cases h : c = s.next
  · subst h
    simp [contents_malloc_next]
  · rw [contents_malloc_of_ne h]
    exact (or_iff_right h).symm

theorem live_free_iff : (s.free b).Live c ↔ c ≠ b ∧ s.Live c := by
  unfold Live
  by_cases h : c = b
  · subst h
    simp [contents_free_self]
  · rw [contents_free_of_ne h]
    exact (and_iff_right h).symm

end Store

/-- Every live block is behind one pointer of the table or lost, and there once. -/
structure Ledger (s : Store α) (owner : κ → Option ℕ) (lost : List ℕ) : Prop where
  fresh : ∀ b, s.next ≤ b → s.contents b = none
  live_iff : ∀ b, s.Live b ↔ (∃ k, owner k = some b) ∨ b ∈ lost
  inj : ∀ k l b, owner k = some b → owner l = some b → k = l
  apart : ∀ k b, owner k = some b → b ∉ lost
  nodup : lost.Nodup

namespace Ledger

variable {s : Store α} {owner : κ → Option ℕ} {lost : List ℕ} {a : α} {b : ℕ} {k : κ}

theorem empty : Ledger (Store.empty : Store α) (fun _ : κ => none) [] where
  fresh _ _ := rfl
  live_iff b := by simp [Store.Live, Store.empty]
  inj _ _ _ h := nomatch h
  apart _ _ h := nomatch h
  nodup := List.nodup_nil

theorem live (h : Ledger s owner lost) (hk : owner k = some b) : s.Live b :=
  (h.live_iff b).2 (.inl ⟨k, hk⟩)

theorem lt_next (h : Ledger s owner lost) (hb : s.Live b) : b < s.next := by
  by_contra hle
  exact hb (h.fresh b (Nat.not_lt.1 hle))

theorem not_live (h : Ledger s owner []) (hnone : ∀ k, owner k = none) (b : ℕ) : ¬ s.Live b := by
  rw [h.live_iff]
  rintro (⟨k, hk⟩ | hb)
  · rw [hnone] at hk
    cases hk
  · exact List.not_mem_nil hb

variable [DecidableEq κ]

/-- A new block behind the pointer at `k`; the one that was behind it is lost. -/
theorem malloc (h : Ledger s owner lost) (k : κ) (a : α) :
    Ledger (s.malloc a) (Function.update owner k (some s.next)) (lost ++ (owner k).toList) := by
  have hnew : ¬ s.Live s.next := fun hlive => Nat.lt_irrefl _ (h.lt_next hlive)
  have howner : ∀ l b, Function.update owner k (some s.next) l = some b →
      (l = k ∧ b = s.next) ∨ (l ≠ k ∧ owner l = some b) := by
    intro l b hl
    by_cases hlk : l = k
    · subst hlk
      rw [Function.update_self] at hl
      exact .inl ⟨rfl, (Option.some.inj hl).symm⟩
    · rw [Function.update_of_ne hlk] at hl
      exact .inr ⟨hlk, hl⟩
  constructor
  · intro b hb
    have hb' : s.next + 1 ≤ b := hb
    rw [Store.contents_malloc_of_ne (by omega)]
    exact h.fresh b (by omega)
  · intro b
    rw [Store.live_malloc_iff, h.live_iff, List.mem_append, Option.mem_toList]
    constructor
    · rintro (rfl | ⟨l, hl⟩ | hb)
      · exact .inl ⟨k, Function.update_self ..⟩
      · by_cases hlk : l = k
        · exact .inr (.inr (hlk ▸ hl))
        · exact .inl ⟨l, by rw [Function.update_of_ne hlk]; exact hl⟩
      · exact .inr (.inl hb)
    · rintro (⟨l, hl⟩ | hb | hb)
      · rcases howner l b hl with ⟨-, rfl⟩ | ⟨-, hl⟩
        · exact .inl rfl
        · exact .inr (.inl ⟨l, hl⟩)
      · exact .inr (.inr hb)
      · exact .inr (.inl ⟨k, hb⟩)
  · intro l m b hl hm
    rcases howner l b hl with ⟨hl, hb⟩ | ⟨-, hl⟩ <;> rcases howner m b hm with ⟨hm, hb'⟩ | ⟨-, hm⟩
    · exact hl.trans hm.symm
    · exact absurd (hb ▸ h.live hm) hnew
    · exact absurd (hb' ▸ h.live hl) hnew
    · exact h.inj l m b hl hm
  · intro l b hl hb
    rw [List.mem_append, Option.mem_toList] at hb
    rcases howner l b hl with ⟨-, rfl⟩ | ⟨hlk, hl⟩
    · exact hnew ((h.live_iff _).2 (hb.elim .inr fun hb => .inl ⟨k, hb⟩))
    · rcases hb with hb | hb
      · exact h.apart l b hl hb
      · exact hlk (h.inj l k b hl hb)
  · refine List.Nodup.append h.nodup ?_ fun b hb hb' => ?_
    · cases owner k <;> simp
    · exact h.apart k b (Option.mem_toList.1 hb') hb

theorem free (h : Ledger s owner lost) (hk : owner k = some b) :
    Ledger (s.free b) (Function.update owner k none) lost := by
  have howner : ∀ l c, Function.update owner k none l = some c → l ≠ k ∧ owner l = some c := by
    intro l c hl
    by_cases hlk : l = k
    · subst hlk
      rw [Function.update_self] at hl
      cases hl
    · rw [Function.update_of_ne hlk] at hl
      exact ⟨hlk, hl⟩
  constructor
  · intro c hc
    have hlt : b < s.next := h.lt_next (h.live hk)
    have hc' : s.next ≤ c := hc
    rw [Store.contents_free_of_ne (by omega)]
    exact h.fresh c hc'
  · intro c
    rw [Store.live_free_iff, h.live_iff]
    constructor
    · rintro ⟨hcb, ⟨l, hl⟩ | hc⟩
      · have hlk : l ≠ k := fun hlk => hcb (Option.some.inj (hl.symm.trans (hlk ▸ hk)))
        exact .inl ⟨l, by rw [Function.update_of_ne hlk]; exact hl⟩
      · exact .inr hc
    · rintro (⟨l, hl⟩ | hc)
      · obtain ⟨hlk, hl⟩ := howner l c hl
        refine ⟨fun hcb => hlk (h.inj l k b (hcb ▸ hl) hk), .inl ⟨l, hl⟩⟩
      · exact ⟨fun hcb => h.apart k b hk (hcb ▸ hc), .inr hc⟩
  · intro l m c hl hm
    exact h.inj l m c (howner l c hl).2 (howner m c hm).2
  · intro l c hl
    exact h.apart l c (howner l c hl).2
  · exact h.nodup

end Ledger

end Blocks
