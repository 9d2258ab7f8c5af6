import Mathlib.Data.List.Infix
import Mathlib.Data.List.Pairwise

/-!
# Sending again from the start

A sender that repeats an incomplete transfer from the beginning of its data: the receiver takes a prefix
of the data at every attempt.  What it has taken altogether is a prefix of the data only where at most
one attempt got something across.
-/

namespace Resending

variable {α : Type*}

/-- What the receiver has, when the attempts got `counts` elements across. -/
def taken (data : List α) (counts : List ℕ) : List α := counts.flatMap data.take

/-- At most one attempt got something across. -/
def Single (counts : List ℕ) : Prop := counts.Pairwise fun a b => a = 0 ∨ b = 0

variable {data : List α} {counts : List ℕ} {a : ℕ}

@[simp] theorem taken_nil : taken data [] = [] := rfl

@[simp] theorem taken_cons : taken data (a :: counts) = data.take a ++ taken data counts := rfl

theorem taken_append (counts' : List ℕ) :
    taken data (counts ++ counts') = taken data counts ++ taken data counts' :=
  List.flatMap_append

theorem taken_eq_nil (h : ∀ b ∈ counts, b = 0) : taken data counts = [] := by
  rw [taken, List.flatMap_eq_nil_iff]
  intro b hb
  rw [h b hb, List.take_zero]

/-- An attempt behind the first that got something across brings the first element again. -/
theorem head_mem_taken {x : α} {rest : List α} {b : ℕ} (hb : b ∈ counts) (hne : b ≠ 0) :
    x ∈ taken (x :: rest) counts := by
  refine List.mem_flatMap.2 ⟨b, hb, ?_⟩
  obtain ⟨b, rfl⟩ := Nat.exists_eq_succ_of_ne_zero hne
  exact List.mem_cons_self

theorem Single.taken_isPrefix (h : Single counts) (data : List α) : taken data counts <+: data := by
  induction counts with
  | nil => exact List.nil_prefix
  | cons a counts ih =>
    obtain ⟨ha, h⟩ := List.pairwise_cons.1 h
    rw [taken_cons]
    by_cases h0 : a = 0
    · rw [h0, List.take_zero, List.nil_append]
      exact ih h
    · rw [taken_eq_nil fun b hb => (ha b hb).resolve_left h0, List.append_nil]
      exact List.take_prefix a data

/-- Data whose first element does not come again tells the second attempt from the first. -/
theorem single_of_taken_isPrefix {x : α} {rest : List α} (hx : x ∉ rest)
    (h : taken (x :: rest) counts <+: x :: rest) : Single counts := by
  induction counts with
  | nil => exact List.Pairwise.nil
  | cons a counts ih =>
    rw [taken_cons] at h
    cases a with
    | zero => exact List.pairwise_cons.2 ⟨fun _ _ => .inl rfl, ih h⟩
    | succ a =>
      have hzero : ∀ b ∈ counts, b = 0 := by
        intro b hb
        by_contra hne
        rw [List.take_succ_cons, List.cons_append, List.cons_prefix_cons] at h
        exact hx (h.2.subset (List.mem_append_right _ (head_mem_taken hb hne)))
      exact List.pairwise_cons.2 ⟨fun b hb => .inr (hzero b hb),
        List.pairwise_of_forall_mem_list fun b hb _ _ => .inl (hzero b hb)⟩

/-- **The receiver has a prefix of whatever is sent exactly when at most one attempt got something
across.** -/
theorem taken_isPrefix_iff [Nontrivial α] {n : ℕ} (hcounts : ∀ b ∈ counts, b ≤ n) :
    (∀ data : List α, data.length = n → taken data counts <+: data) ↔ Single counts := by
  constructor
  · intro h
    cases n with
    | zero =>
      exact List.pairwise_of_forall_mem_list fun b hb _ _ => .inl (Nat.le_zero.1 (hcounts b hb))
    | succ n =>
      obtain ⟨x, y, hxy⟩ := exists_pair_ne α
      exact single_of_taken_isPrefix (fun hx => hxy (List.eq_of_mem_replicate hx))
        (h (x :: List.replicate n y) (by rw [List.length_cons, List.length_replicate]))
  · exact fun h data _ => h.taken_isPrefix data

/-- What has been taken as a prefix, a complete last attempt included, is all of the data. -/
theorem taken_eq_of_isPrefix (h : taken data counts <+: data) (hlast : data.length ∈ counts) :
    taken data counts = data := by
  obtain ⟨before, behind, rfl⟩ := List.append_of_mem hlast
  refine h.eq_of_length_le ?_
  rw [taken_append, taken_cons, List.take_length]
  simp only [List.length_append]
  omega

end Resending
