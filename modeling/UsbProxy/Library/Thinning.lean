import Mathlib.Data.List.Chain

/-!
# Thinning out a stream

A stream in which some items count as fillers.  `Thinned` is a selection that may leave out a filler
only directly behind another one; `Spaced` is a list without two fillers side by side, which `Closed`
says may not be followed by one.
-/

namespace Thinning

variable {α : Type*} (filler : α → Prop)

/-- No two fillers side by side. -/
def Spaced (l : List α) : Prop := l.IsChain fun a b => ¬ (filler a ∧ filler b)

/-- The last item is a filler. -/
def Closed (l : List α) : Prop := ∃ a, l.getLast? = some a ∧ filler a

/-- `Thinned filler all kept`: every item of `all` is kept, in order, but for fillers directly behind a
filler, each of which may be left out. -/
inductive Thinned : List α → List α → Prop
  | nil : Thinned [] []
  | keep {all kept : List α} (h : Thinned all kept) (a : α) : Thinned (all ++ [a]) (kept ++ [a])
  | drop {all kept : List α} (h : Thinned all kept) (a : α) (ha : filler a)
      (hclosed : Closed filler all) : Thinned (all ++ [a]) kept

variable {filler} {l front : List α} {a : α}

theorem spaced_nil : Spaced filler [] := List.IsChain.nil

theorem not_closed_nil : ¬ Closed filler [] := fun ⟨_, h, _⟩ => nomatch h

theorem closed_append_singleton : Closed filler (l ++ [a]) ↔ filler a := by
  unfold Closed
  rw [List.getLast?_concat]
  exact ⟨fun ⟨_, hb, h⟩ => Option.some.inj hb ▸ h, fun h => ⟨a, rfl, h⟩⟩

theorem Closed.of_append (h : Closed filler l) (front : List α) : Closed filler (front ++ l) := by
  obtain ⟨a, hlast, ha⟩ := h
  refine ⟨a, ?_, ha⟩
  rw [List.getLast?_append, hlast, Option.some_or]

theorem Thinned.sublist {all kept : List α} (h : Thinned filler all kept) : kept.Sublist all := by
  induction h with
  | nil => exact List.Sublist.refl []
  | keep _ a ih => exact ih.append (List.Sublist.refl [a])
  | drop _ a _ _ ih => exact ih.trans (List.sublist_append_left _ [a])

theorem Thinned.map {β : Type*} {filler' : β → Prop} (f : α → β)
    (hf : ∀ a, filler a → filler' (f a)) {all kept : List α} (h : Thinned filler all kept) :
    Thinned filler' (all.map f) (kept.map f) := by
  induction h with
  | nil => exact .nil
  | keep _ a ih =>
    rw [List.map_append, List.map_append]
    exact ih.keep (f a)
  | drop _ a ha hclosed ih =>
    rw [List.map_append]
    obtain ⟨b, hlast, hb⟩ := hclosed
    exact ih.drop (f a) (hf a ha) ⟨f b, by rw [List.getLast?_map, hlast, Option.map_some], hf b hb⟩

/-- Leaving out empty pieces changes nothing in the whole. -/
theorem Thinned.flatten {all kept : List (List α)} (h : Thinned (· = []) all kept) :
    kept.flatten = all.flatten := by
  induction h with
  | nil => rfl
  | keep _ a ih => rw [List.flatten_append, List.flatten_append, ih]
  | drop _ a ha _ ih => simp [ih, ha]

theorem Spaced.append_singleton (h : Spaced filler l) (hopen : filler a → ¬ Closed filler l) :
    Spaced filler (l ++ [a]) := by
  refine List.IsChain.append h (List.IsChain.singleton a) fun b hb c hc => ?_
  rintro ⟨hb', hc'⟩
  obtain rfl : a = c := Option.some.inj hc
  exact hopen hc' ⟨b, hb, hb'⟩

theorem Spaced.of_append (h : Spaced filler (front ++ l)) : Spaced filler l :=
  List.IsChain.right_of_append h

/-- The fillers of a spaced list outnumber the other items by one at most, and only from the front. -/
theorem Spaced.countP_le_cons [DecidablePred filler] (h : Spaced filler (a :: l)) :
    (a :: l).countP (fun b => filler b) ≤
      (a :: l).countP (fun b => ¬ filler b) + if filler a then 1 else 0 := by
  induction l generalizing a with
  | nil => by_cases ha : filler a <;> simp [ha]
  | cons b l ih =>
    obtain ⟨hab, h⟩ := List.isChain_cons_cons.1 h
    have hrest := ih h
    rw [List.countP_cons, List.countP_cons (l := b :: l)]
    by_cases ha : filler a <;> by_cases hb : filler b
    · exact absurd ⟨ha, hb⟩ hab
    all_goals
      simp only [ha, hb, not_true, not_false_eq_true, decide_true, decide_false, if_true, if_false,
        Bool.false_eq_true] at hrest ⊢
      omega

theorem Spaced.countP_le [DecidablePred filler] (h : Spaced filler l) :
    l.countP (fun b => filler b) ≤ l.countP (fun b => ¬ filler b) + 1 := by
  cases l with
  | nil => exact Nat.zero_le _
  | cons a l =>
    refine h.countP_le_cons.trans (Nat.add_le_add_left ?_ _)
    split_ifs
    · exact Nat.le_refl 1
    · exact Nat.zero_le 1

end Thinning
