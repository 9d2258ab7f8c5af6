import Mathlib.Data.List.DropRight

/-!
# Trimming

`trim p s` takes the elements with `p` off both ends of a list.  What is left begins and ends with an
element without `p`; `trim_eq_of_ends` says that this, and that only elements with `p` were taken off,
is all there is to it.
-/

namespace Trimming

variable {α : Type*} {p : α → Bool} {s pre mid post : List α} {a b : α}

def trim (p : α → Bool) (s : List α) : List α := (s.dropWhile p).rdropWhile p

theorem trim_sublist (p : α → Bool) (s : List α) : List.Sublist (trim p s) s :=
  (List.rdropWhile_prefix p _).sublist.trans (List.dropWhile_sublist p)

theorem exists_first (h : ¬ ∀ c ∈ s, p c = true) :
    ∃ pre c rest, s = pre ++ c :: rest ∧ (∀ x ∈ pre, p x = true) ∧ p c = false := by
  induction s with
  | nil => exact absurd (fun c hc => absurd hc List.not_mem_nil) h
  | cons c s ih =>
    by_cases hc : p c = true
    · have hs : ¬ ∀ x ∈ s, p x = true := fun hs => h fun x hx => by
        rcases List.mem_cons.1 hx with rfl | hx
        · exact hc
        · exact hs x hx
      obtain ⟨pre, d, rest, rfl, hpre, hd⟩ := ih hs
      refine ⟨c :: pre, d, rest, rfl, fun x hx => ?_, hd⟩
      rcases List.mem_cons.1 hx with rfl | hx
      · exact hc
      · exact hpre x hx
    · exact ⟨[], c, s, rfl, fun x hx => absurd hx List.not_mem_nil, Bool.eq_false_iff.2 hc⟩

theorem exists_last (h : ¬ ∀ c ∈ s, p c = true) :
    ∃ rest c post, s = rest ++ c :: post ∧ p c = false ∧ ∀ x ∈ post, p x = true := by
  have hrev : ¬ ∀ c ∈ s.reverse, p c = true := fun hr => h fun c hc => hr c (List.mem_reverse.2 hc)
  obtain ⟨pre, c, rest, hs, hpre, hc⟩ := exists_first hrev
  refine ⟨rest.reverse, c, pre.reverse, ?_, hc, fun x hx => hpre x (List.mem_reverse.1 hx)⟩
  rw [← List.reverse_reverse s, hs]
  simp

theorem rdropWhile_append_of_all (h : ∀ x ∈ post, p x = true) (s : List α) :
    (s ++ post).rdropWhile p = s.rdropWhile p := by
  unfold List.rdropWhile
  rw [List.reverse_append, List.dropWhile_append_of_pos fun x hx => h x (List.mem_reverse.1 hx)]

/-- A list between two elements without `p`, and what was taken off in front of and behind it. -/
theorem trim_eq_of_ends (hpre : ∀ x ∈ pre, p x = true) (hpost : ∀ x ∈ post, p x = true)
    (ha : mid.head? = some a) (hpa : p a = false) (hb : mid.getLast? = some b) (hpb : p b = false) :
    trim p (pre ++ (mid ++ post)) = mid := by
  obtain ⟨ys, rfl⟩ := List.getLast?_eq_some_iff.1 hb
  have hfront : (ys ++ [b] ++ post).dropWhile p = ys ++ [b] ++ post := by
    obtain ⟨xs, hxs⟩ := List.head?_eq_some_iff.1 ha
    rw [hxs, List.cons_append, List.dropWhile_cons_of_neg (by rw [hpa]; decide)]
  rw [trim, List.dropWhile_append_of_pos hpre, hfront, rdropWhile_append_of_all hpost,
    List.rdropWhile_concat_neg _ _ _ (by rw [hpb]; decide)]

theorem trim_of_all (h : ∀ x ∈ s, p x = true) : trim p s = [] := by
  rw [trim, ← List.append_nil s, List.dropWhile_append_of_pos h]
  rfl

theorem trim_cases (p : α → Bool) (s : List α) :
    ((∀ x ∈ s, p x = true) ∧ trim p s = []) ∨
      ∃ pre post a b, s = pre ++ (trim p s ++ post) ∧ (∀ x ∈ pre, p x = true) ∧
        (∀ x ∈ post, p x = true) ∧ (trim p s).head? = some a ∧ p a = false ∧
        (trim p s).getLast? = some b ∧ p b = false := by
  by_cases hall : ∀ x ∈ s, p x = true
  · exact .inl ⟨hall, trim_of_all hall⟩
  obtain ⟨pre, a, rest, rfl, hpre, ha⟩ := exists_first hall
  have hrest : ¬ ∀ x ∈ a :: rest, p x = true := fun h => by
    rw [h a List.mem_cons_self] at ha
    cases ha
  obtain ⟨mid, b, post, hmid, hb, hpost⟩ := exists_last hrest
  have hhead : (mid ++ [b]).head? = some a := by
    have := congrArg List.head? hmid
    cases mid with
    | nil => exact this.symm
    | cons c mid => exact this.symm
  have hcut : a :: rest = mid ++ [b] ++ post := by rw [hmid, List.append_assoc]; rfl
  have htrim : trim p (pre ++ (mid ++ [b] ++ post)) = mid ++ [b] :=
    trim_eq_of_ends hpre hpost hhead ha List.getLast?_concat hb
  rw [hcut, htrim]
  exact .inr ⟨pre, post, a, b, rfl, hpre, hpost, hhead, ha, List.getLast?_concat, hb⟩

theorem head?_trim (h : (trim p s).head? = some a) : p a = false := by
  rcases trim_cases p s with ⟨-, hnil⟩ | ⟨_, _, a', _, -, -, -, ha, hpa, -⟩
  · rw [hnil] at h
    cases h
  · rw [h, Option.some.injEq] at ha
    rw [ha, hpa]

end Trimming
