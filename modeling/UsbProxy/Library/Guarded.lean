import Mathlib.Algebra.GroupWithZero.Nat
import Mathlib.Data.List.Basic

/-!
# Checks that may fault

Programs that follow pointers and index arrays: a null pointer or an index behind the array ends
them in a fault.  A check gives a result that may be a failure; `andThen` and `scan` are the early
returns of such checks, one behind the other and in a loop.  What passes and what comes to a result
at all is put together from the parts by `succeeds_andThen`, `returns_andThen`, `succeeds_scan` and
`returns_scan`; nested loops are one list of checks in a row.
-/

namespace Guarded

/-- What ends a program that goes where it may not. -/
inductive Fault
  | nullDereference
  | outOfRange
  deriving DecidableEq, Repr

variable {α ρ : Type*}

/-- Follow a pointer. -/
def deref : Option α → Except Fault α
  | none => .error .nullDereference
  | some a => .ok a

/-- Read an array. -/
def load (l : List α) (i : ℕ) : Except Fault α :=
  match l[i]? with
  | none => .error .outOfRange
  | some a => .ok a

theorem load_of_lt {l : List α} {i : ℕ} (h : i < l.length) : load l i = .ok l[i] := by
  unfold load
  rw [List.getElem?_eq_getElem h]

theorem load_of_le {l : List α} {i : ℕ} (h : l.length ≤ i) : load l i = .error .outOfRange := by
  unfold load
  rw [List.getElem?_eq_none h]

theorem ite_eq_ok {p : Prop} [Decidable p] {a b : α} {x : Except Fault α} (h : x = .ok b) :
    (if p then .ok a else x) = .ok (if p then a else b) := by
  rw [h]
  split_ifs <;> rfl

/-- A loop that adds up what `f` gives at `n` indices from `i` on. -/
def sum (f : ℕ → Except Fault ℕ) : (n i total : ℕ) → Except Fault ℕ
  | 0, _, total => .ok total
  | n + 1, i, total => (f i).bind fun x => sum f n (i + 1) (total + x)

theorem sum_load {l : List α} {f : α → Except Fault ℕ} (g : α → ℕ) (hf : ∀ a, f a = .ok (g a))
    (n i total : ℕ) (h : i + n ≤ l.length) :
    sum (fun j => (load l j).bind f) n i total = .ok (total + (((l.drop i).take n).map g).sum) := by
  induction n generalizing i total with
  | zero => rfl
  | succ n ih =>
    have hi : i < l.length := by omega
    rw [sum, load_of_lt hi]
    show (f l[i]).bind _ = _
    rw [hf]
    show sum _ n (i + 1) (total + g l[i]) = _
    rw [ih (i + 1) _ (by omega), List.drop_eq_getElem_cons hi, List.take_succ_cons, List.map_cons,
      List.sum_cons, Nat.add_assoc]

theorem sum_load_all {l : List α} {f : α → Except Fault ℕ} (g : α → ℕ) (hf : ∀ a, f a = .ok (g a))
    (total : ℕ) : sum (fun j => (load l j).bind f) l.length 0 total = .ok (total + (l.map g).sum) := by
  rw [sum_load g hf l.length 0 total (Nat.le_of_eq (Nat.zero_add _)), List.drop_zero, List.take_length]

section Checks

variable (fails : ρ → Bool)

/-- `rc=x; if (rc.error) {return rc;}` and the rest. -/
def andThen (x rest : Except Fault ρ) : Except Fault ρ :=
  x.bind fun rc => if fails rc then .ok rc else rest

/-- The same in a loop over `n` indices from `i` on. -/
def scan (done : ρ) (body : ℕ → Except Fault ρ) : (n i : ℕ) → Except Fault ρ
  | 0, _ => .ok done
  | n + 1, i => andThen fails (body i) (scan done body n (i + 1))

def Succeeds (x : Except Fault ρ) : Prop := ∃ rc, x = .ok rc ∧ fails rc = false

def Returns (x : Except Fault ρ) : Prop := ∃ rc, x = .ok rc

variable {fails} {x rest : Except Fault ρ} {done : ρ} {body : ℕ → Except Fault ρ}

theorem Succeeds.returns (h : Succeeds fails x) : Returns x := ⟨h.choose, h.choose_spec.1⟩

theorem succeeds_ok {rc : ρ} : Succeeds fails (.ok rc) ↔ fails rc = false := by
  constructor
  · rintro ⟨rc', h, hf⟩
    rwa [Except.ok.inj h]
  · exact fun h => ⟨rc, rfl, h⟩

theorem returns_ok (rc : ρ) : Returns (.ok rc) := ⟨rc, rfl⟩

theorem not_returns_error (f : Fault) : ¬ Returns (.error f : Except Fault ρ) :=
  fun ⟨_, h⟩ => nomatch h

theorem not_succeeds_error (f : Fault) : ¬ Succeeds fails (.error f) :=
  fun h => not_returns_error f h.returns

theorem andThen_of_succeeds (h : Succeeds fails x) : andThen fails x rest = rest := by
  obtain ⟨rc, rfl, hf⟩ := h
  unfold andThen
  simp [Except.bind, hf]

theorem andThen_of_not_succeeds (h : ¬ Succeeds fails x) : andThen fails x rest = x := by
  cases x with
  | error f => rfl
  | ok rc =>
    rw [succeeds_ok, Bool.not_eq_false] at h
    unfold andThen
    simp [Except.bind, h]

theorem succeeds_andThen :
    Succeeds fails (andThen fails x rest) ↔ Succeeds fails x ∧ Succeeds fails rest := by
  by_cases h : Succeeds fails x
  · rw [andThen_of_succeeds h, and_iff_right h]
  · rw [andThen_of_not_succeeds h]
    exact ⟨fun h' => absurd h' h, And.left⟩

theorem returns_andThen :
    Returns (andThen fails x rest) ↔ Returns x ∧ (Succeeds fails x → Returns rest) := by
  by_cases h : Succeeds fails x
  · rw [andThen_of_succeeds h, and_iff_right h.returns]
    exact ⟨fun hr _ => hr, fun hr => hr h⟩
  · rw [andThen_of_not_succeeds h]
    exact ⟨fun hr => ⟨hr, fun h' => absurd h' h⟩, And.left⟩

theorem succeeds_scan (hdone : fails done = false) (n i : ℕ) :
    Succeeds fails (scan fails done body n i) ↔ ∀ j < n, Succeeds fails (body (i + j)) := by
  induction n generalizing i with
  | zero => exact iff_of_true (succeeds_ok.2 hdone) fun j hj => absurd hj (Nat.not_lt_zero j)
  | succ n ih =>
    rw [scan, succeeds_andThen, ih, Nat.forall_lt_succ_left]
    simp only [Nat.add_zero, Nat.add_assoc, Nat.add_comm 1]

/-- A loop comes to a result when every round does that all before it let come. -/
theorem returns_scan (n i : ℕ) :
    Returns (scan fails done body n i) ↔
      ∀ j < n, (∀ k < j, Succeeds fails (body (i + k))) → Returns (body (i + j)) := by
  induction n generalizing i with
  | zero => exact iff_of_true (returns_ok done) fun j hj => absurd hj (Nat.not_lt_zero j)
  | succ n ih =>
    rw [scan, returns_andThen, ih, Nat.forall_lt_succ_left]
    simp only [Nat.forall_lt_succ_left, Nat.add_zero, Nat.add_assoc, Nat.add_comm 1]
    constructor
    · rintro ⟨h, hrest⟩
      exact ⟨fun _ => h, fun j hj hp => hrest hp.1 j hj hp.2⟩
    · rintro ⟨h, hrest⟩
      exact ⟨h fun k hk => absurd hk (Nat.not_lt_zero k), fun hp j hj hpass => hrest j hj ⟨hp, hpass⟩⟩

/-! ### Checks in a row -/

/-- The checks one behind the other. -/
def inOrder (fails : ρ → Bool) (done : ρ) : List (Except Fault ρ) → Except Fault ρ
  | [] => .ok done
  | x :: xs => andThen fails x (inOrder fails done xs)

theorem andThen_assoc (x y z : Except Fault ρ) :
    andThen fails (andThen fails x y) z = andThen fails x (andThen fails y z) := by
  by_cases h : Succeeds fails x
  · rw [andThen_of_succeeds h, andThen_of_succeeds h]
  · rw [andThen_of_not_succeeds h, andThen_of_not_succeeds h, andThen_of_not_succeeds h]

theorem inOrder_append (hdone : fails done = false) (xs ys : List (Except Fault ρ)) :
    inOrder fails done (xs ++ ys) = andThen fails (inOrder fails done xs) (inOrder fails done ys) := by
  induction xs with
  | nil => exact (andThen_of_succeeds (succeeds_ok.2 hdone)).symm
  | cons x xs ih => rw [List.cons_append, inOrder, ih, inOrder, andThen_assoc]

theorem scan_eq_inOrder (n i : ℕ) :
    scan fails done body n i = inOrder fails done ((List.range' i n).map body) := by
  induction n generalizing i with
  | zero => rfl
  | succ n ih => rw [scan, ih, List.range'_succ, List.map_cons, inOrder]

theorem scan_eq_map {β : Type*} {f : β → Except Fault ρ} (l : List β)
    (h : ∀ i (hi : i < l.length), body i = f l[i]) :
    scan fails done body l.length 0 = inOrder fails done (l.map f) := by
  rw [scan_eq_inOrder]
  congr 1
  refine List.ext_getElem (by simp) fun i hi hi' => ?_
  rw [List.getElem_map, List.getElem_map, List.getElem_range', Nat.one_mul, Nat.zero_add]
  exact h i (by simpa using hi')

theorem inOrder_flatMap {β : Type*} (hdone : fails done = false) (f : β → List (Except Fault ρ))
    (bs : List β) :
    inOrder fails done (bs.map fun b => inOrder fails done (f b)) =
      inOrder fails done (bs.flatMap f) := by
  induction bs with
  | nil => rfl
  | cons b bs ih => rw [List.map_cons, inOrder, ih, List.flatMap_cons, inOrder_append hdone]

theorem succeeds_inOrder (hdone : fails done = false) (xs : List (Except Fault ρ)) :
    Succeeds fails (inOrder fails done xs) ↔ ∀ x ∈ xs, Succeeds fails x := by
  induction xs with
  | nil => exact iff_of_true (succeeds_ok.2 hdone) fun x hx => absurd hx List.not_mem_nil
  | cons x xs ih => rw [inOrder, succeeds_andThen, ih, List.forall_mem_cons]

/-- Checks in a row come to a result when each does that all before it let come. -/
theorem returns_inOrder (xs : List (Except Fault ρ)) :
    Returns (inOrder fails done xs) ↔
      ∀ before x behind, xs = before ++ x :: behind → (∀ y ∈ before, Succeeds fails y) → Returns x := by
  induction xs with
  | nil =>
    refine iff_of_true (returns_ok done) fun before x behind h => ?_
    exact absurd h.symm (List.append_ne_nil_of_right_ne_nil before (List.cons_ne_nil x behind))
  | cons x xs ih =>
    rw [inOrder, returns_andThen, ih]
    constructor
    · rintro ⟨hx, hrest⟩ before y behind h hpass
      cases before with
      | nil => exact (List.cons.inj h).1 ▸ hx
      | cons b before =>
        rw [List.cons_append] at h
        obtain ⟨rfl, hxs⟩ := List.cons.inj h
        rw [List.forall_mem_cons] at hpass
        exact hrest hpass.1 before y behind hxs hpass.2
    · intro h
      refine ⟨h [] x xs rfl fun y hy => absurd hy List.not_mem_nil, ?_⟩
      intro hx before y behind hxs hpass
      exact h (x :: before) y behind (by rw [hxs, List.cons_append])
        (List.forall_mem_cons.2 ⟨hx, hpass⟩)

end Checks

end Guarded
