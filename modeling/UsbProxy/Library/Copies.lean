import Mathlib.Data.List.Basic
import Mathlib.Data.Int.Notation

/-!
# Copies one behind the other

A writer fills a buffer by copies at a cursor, each followed by moving the cursor.  The length of a copy
is a signed number; the copy itself takes it as an unsigned one, so that a negative length copies nearly
everything.  `inside_iff` says when all copies are inside of the buffer.

Behind that stand the contents: `take_writeAll` is what such copies leave in a buffer they fit in, and
`walk` takes the blocks apart again if every block announces its own length.
-/

namespace Copies

/-- Where a copy goes and how much it writes. -/
structure Copy where
  offset : ℤ
  size : ℕ
  deriving DecidableEq, Repr

def Copy.Inside (capacity : ℕ) (c : Copy) : Prop := 0 ≤ c.offset ∧ c.offset + c.size ≤ capacity

instance (capacity : ℕ) (c : Copy) : Decidable (c.Inside capacity) :=
  inferInstanceAs (Decidable (0 ≤ c.offset ∧ c.offset + c.size ≤ capacity))

/-- The copies of the given lengths from a cursor on; lengths are converted modulo `m`. -/
def copiesFrom (m : ℕ) : ℤ → List ℤ → List Copy
  | _, [] => []
  | p, n :: ns => ⟨p, (n % m).toNat⟩ :: copiesFrom m (p + n) ns

/-- The cursor behind them. -/
def cursor : ℤ → List ℤ → ℤ
  | p, [] => p
  | p, n :: ns => cursor (p + n) ns

section Lengths

variable {m capacity : ℕ} {p n : ℤ} {ns : List ℤ}

theorem le_cursor (h : ∀ n ∈ ns, 0 ≤ n) : p ≤ cursor p ns := by
  induction ns generalizing p with
  | nil => exact Int.le_refl p
  | cons n ns ih =>
    obtain ⟨hn, hns⟩ := List.forall_mem_cons.1 h
    have := ih (p := p + n) hns
    rw [cursor]
    omega

theorem cursor_append (ns ns' : List ℤ) : cursor p (ns ++ ns') = cursor (cursor p ns) ns' := by
  induction ns generalizing p with
  | nil => rfl
  | cons n ns ih => exact ih

theorem copy_inside_iff (hp : 0 ≤ p) (hcap : 2 * capacity < m) (hn : -m ≤ 2 * n ∧ 2 * n < m) :
    Copy.Inside capacity ⟨p, (n % m).toNat⟩ ↔ 0 ≤ n ∧ p + n ≤ capacity := by
  show 0 ≤ p ∧ p + ((n % m).toNat : ℤ) ≤ capacity ↔ _
  have hm : (0 : ℤ) < m := by omega
  have hmod : (((n % m).toNat : ℕ) : ℤ) = n % m := Int.toNat_of_nonneg (Int.emod_nonneg n (by omega))
  rw [hmod]
  by_cases hneg : 0 ≤ n
  · rw [Int.emod_eq_of_lt hneg (by omega)]
    omega
  · -- A negative length copies at least half of what there is.
    have hwrap : n % m = n + m := by
      rw [← Int.add_emod_right, Int.emod_eq_of_lt (by omega) (by omega)]
    rw [hwrap]
    omega

/-- **Inside the buffer.**  All copies are inside exactly when no length is negative and the last one
ends inside. -/
theorem inside_iff (hp : 0 ≤ p) (hle : p ≤ capacity) (hcap : 2 * capacity < m)
    (hns : ∀ n ∈ ns, -m ≤ 2 * n ∧ 2 * n < m) :
    (∀ c ∈ copiesFrom m p ns, c.Inside capacity) ↔
      (∀ n ∈ ns, 0 ≤ n) ∧ cursor p ns ≤ capacity := by
  induction ns generalizing p with
  | nil => simp [copiesFrom, cursor, hle]
  | cons n ns ih =>
    obtain ⟨hn, hns⟩ := List.forall_mem_cons.1 hns
    rw [copiesFrom, cursor, List.forall_mem_cons, List.forall_mem_cons, copy_inside_iff hp hcap hn]
    constructor
    · rintro ⟨⟨hpos, hend⟩, hrest⟩
      obtain ⟨hall, hlast⟩ := (ih (by omega) hend hns).1 hrest
      exact ⟨⟨hpos, hall⟩, hlast⟩
    · rintro ⟨⟨hpos, hall⟩, hlast⟩
      have := le_cursor (p := p + n) hall
      exact ⟨⟨hpos, by omega⟩, (ih (by omega) (by omega) hns).2 ⟨hall, hlast⟩⟩

end Lengths

/-! ## Contents -/

section Contents

variable {α : Type*} {buf tail : List α} {blocks : List (List α)} {p : ℕ}

/-- The buffer after a copy that fits. -/
def write (buf : List α) (p : ℕ) (block : List α) : List α :=
  buf.take p ++ block ++ buf.drop (p + block.length)

def writeAll (buf : List α) : ℕ → List (List α) → List α
  | _, [] => buf
  | p, block :: blocks => writeAll (write buf p block) (p + block.length) blocks

theorem take_write (block : List α) (h : p ≤ buf.length) :
    (write buf p block).take (p + block.length) = buf.take p ++ block := by
  have hlen : (buf.take p ++ block).length = p + block.length := by
    rw [List.length_append, List.length_take, Nat.min_eq_left h]
  unfold write
  rw [← hlen, List.take_left]

theorem length_write (block : List α) (h : p + block.length ≤ buf.length) :
    (write buf p block).length = buf.length := by
  unfold write
  rw [List.length_append, List.length_append, List.length_take, List.length_drop]
  omega

/-- Copies that fit leave their blocks in a row. -/
theorem take_writeAll (buf : List α) (p : ℕ) (blocks : List (List α))
    (h : p + blocks.flatten.length ≤ buf.length) :
    (writeAll buf p blocks).take (p + blocks.flatten.length) = buf.take p ++ blocks.flatten := by
  induction blocks generalizing buf p with
  | nil => rw [writeAll, List.flatten_nil, List.append_nil, List.length_nil, Nat.add_zero]
  | cons block blocks ih =>
    rw [List.flatten_cons, List.length_append] at h ⊢
    have hrest : p + block.length + blocks.flatten.length ≤ (write buf p block).length := by
      rw [length_write block (by omega)]
      omega
    rw [writeAll, ← Nat.add_assoc, ih _ _ hrest, take_write block (by omega), List.append_assoc]

/-! ## Blocks that announce their length -/

/-- Takes blocks off the front until `last` entries are left; `none` when a block announces nothing
or more than there is.  The first argument bounds the number of blocks. -/
def walkFrom (announced : List α → ℕ) (last : ℕ) : ℕ → List α → Option (List (List α) × List α)
  | 0, xs => some ([], xs)
  | k + 1, xs =>
    if xs.length ≤ last then some ([], xs)
    else if announced xs = 0 ∨ xs.length < announced xs then none
    else (walkFrom announced last k (xs.drop (announced xs))).map fun r =>
      (xs.take (announced xs) :: r.1, r.2)

def walk (announced : List α → ℕ) (last : ℕ) (xs : List α) : Option (List (List α) × List α) :=
  walkFrom announced last xs.length xs

theorem walkFrom_flatten {announced : List α → ℕ}
    (hblocks : ∀ b ∈ blocks, b ≠ [] ∧ ∀ rest, announced (b ++ rest) = b.length) {k : ℕ}
    (hk : blocks.flatten.length ≤ k) :
    walkFrom announced tail.length k (blocks.flatten ++ tail) = some (blocks, tail) := by
  induction blocks generalizing k with
  | nil =>
    cases k with
    | zero => rfl
    | succ k => exact if_pos (Nat.le_refl _)
  | cons b blocks ih =>
    obtain ⟨⟨hne, hann⟩, hblocks⟩ := List.forall_mem_cons.1 hblocks
    have hpos := List.length_pos_iff.2 hne
    rw [List.flatten_cons, List.length_append] at hk
    cases k with
    | zero => omega
    | succ k =>
      rw [List.flatten_cons, List.append_assoc, walkFrom, hann, List.drop_left, List.take_left,
        ih hblocks (by omega), if_neg (by simp; omega), if_neg (by simp; omega)]
      rfl

/-- Walking over blocks that each announce their own length recovers them. -/
theorem walk_flatten {announced : List α → ℕ}
    (hblocks : ∀ b ∈ blocks, b ≠ [] ∧ ∀ rest, announced (b ++ rest) = b.length) :
    walk announced tail.length (blocks.flatten ++ tail) = some (blocks, tail) :=
  walkFrom_flatten hblocks (by rw [List.length_append]; omega)

end Contents

end Copies
