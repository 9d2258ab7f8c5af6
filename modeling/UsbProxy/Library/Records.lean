import Mathlib.Data.List.Basic

/-!
# Records that begin with their own length

A record is a block of bytes whose first byte is its length, as a tag-length format lays its items
out one after another.  `Holds mem p bs` says that a memory holds the bytes `bs` from `p` on; a
reader that copies `mem p` bytes at the position of a record then gets the record back.
-/

namespace Records

abbrev Memory := ℕ → UInt8

/-- The memory with a buffer at its start and anything behind it. -/
def Memory.ofBuffer (buf : List UInt8) (beyond : Memory) : Memory :=
  fun i => (buf[i]?).getD (beyond i)

/-- The `n` bytes from `p` on. -/
def copy (mem : Memory) (p n : ℕ) : List UInt8 := (List.range n).map fun i => mem (p + i)

def Holds (mem : Memory) (p : ℕ) (bs : List UInt8) : Prop :=
  ∀ i (h : i < bs.length), mem (p + i) = bs[i]

structure Record where
  bytes : List UInt8
  length_eq : bytes.length = (bytes.headD 0).toNat
  deriving DecidableEq

variable {mem : Memory} {p q : ℕ} {bs cs : List UInt8}

@[simp] theorem length_copy (n : ℕ) : (copy mem p n).length = n := by simp [copy]

theorem headD_copy (n : ℕ) (hn : n = 0 → mem p = 0) : (copy mem p n).headD 0 = mem p := by
  cases n with
  | zero => simp [copy, hn]
  | succ n => simp [copy, List.range_succ_eq_map]

theorem Record.ext {r s : Record} (h : r.bytes = s.bytes) : r = s := by
  cases r; cases s; cases h; rfl

namespace Record

/-- The record a reader takes from `p`: as many bytes as the byte at `p` says. -/
def ofMemory (mem : Memory) (p : ℕ) : Record where
  bytes := copy mem p (mem p).toNat
  length_eq := by
    rw [length_copy, headD_copy]
    intro h
    exact UInt8.toNat_inj.1 h

/-- The length byte. -/
def size (r : Record) : UInt8 := r.bytes.headD 0

/-- The byte after it. -/
def tag (r : Record) : UInt8 := r.bytes.getD 1 0

theorem length_bytes (r : Record) : r.bytes.length = r.size.toNat := r.length_eq

end Record

theorem holds_ofBuffer (buf : List UInt8) (beyond : Memory) :
    Holds (Memory.ofBuffer buf beyond) 0 buf := by
  intro i h
  simp [Memory.ofBuffer, h]

theorem holds_append : Holds mem p (bs ++ cs) ↔ Holds mem p bs ∧ Holds mem (p + bs.length) cs := by
  constructor
  · intro h
    refine ⟨fun i hi => ?_, fun i hi => ?_⟩
    · rw [h i (by simp; omega), List.getElem_append_left hi]
    · rw [Nat.add_assoc, h (bs.length + i) (by simp; omega),
        List.getElem_append_right (by omega)]
      simp
  · rintro ⟨hb, hc⟩ i hi
    by_cases hlt : i < bs.length
    · rw [hb i hlt, List.getElem_append_left hlt]
    · rw [List.getElem_append_right (by omega), ← hc (i - bs.length) (by simp at hi; omega)]
      congr 1
      omega

theorem copy_of_holds (h : Holds mem p bs) : copy mem p bs.length = bs := by
  refine List.ext_getElem (by simp) fun i hi hi' => ?_
  simp only [copy, List.getElem_map, List.getElem_range]
  exact h i hi'

theorem Holds.getD {i : ℕ} (h : Holds mem p bs) (hi : i < bs.length) :
    mem (p + i) = bs.getD i 0 := by
  rw [h i hi]
  simp [hi]

theorem Holds.size {r : Record} (h : Holds mem p r.bytes) (hr : 0 < r.size.toNat) :
    mem p = r.size := by
  have hlen : 0 < r.bytes.length := by rw [r.length_bytes]; exact hr
  have := h.getD hlen
  rw [Nat.add_zero] at this
  rw [this, Record.size]
  cases hb : r.bytes <;> simp

theorem Holds.tag {r : Record} (h : Holds mem p r.bytes) (hr : 2 ≤ r.size.toNat) :
    mem (p + 1) = r.tag :=
  h.getD (by rw [r.length_bytes]; omega)

theorem ofMemory_of_holds {r : Record} (h : Holds mem p r.bytes) (hr : 0 < r.size.toNat) :
    Record.ofMemory mem p = r := by
  apply Record.ext
  show copy mem p (mem p).toNat = r.bytes
  rw [h.size hr, ← r.length_bytes]
  exact copy_of_holds h

/-! ## Lists of records -/

def layout (rs : List Record) : List UInt8 := rs.flatMap Record.bytes

@[simp] theorem layout_nil : layout [] = [] := rfl

theorem layout_cons (r : Record) (rs : List Record) : layout (r :: rs) = r.bytes ++ layout rs := rfl

theorem layout_append (rs ss : List Record) : layout (rs ++ ss) = layout rs ++ layout ss :=
  List.flatMap_append

/-- Records of positive length can be told apart in a row: the layout determines them. -/
theorem layout_injective {rs ss : List Record} (hr : ∀ r ∈ rs, 0 < r.size.toNat)
    (hs : ∀ s ∈ ss, 0 < s.size.toNat) (h : layout rs = layout ss) : rs = ss := by
  have hne : ∀ r : Record, 0 < r.size.toNat → ∃ b bs, r.bytes = b :: bs := by
    intro r hpos
    apply List.exists_cons_of_ne_nil
    intro h0
    have hlen := r.length_bytes
    rw [h0, List.length_nil] at hlen
    omega
  induction rs generalizing ss with
  | nil =>
    cases ss with
    | nil => rfl
    | cons s ss =>
      obtain ⟨b, bs, hb⟩ := hne s (hs s (List.mem_cons_self ..))
      rw [layout_nil, layout_cons, hb] at h
      cases h
  | cons r rs ih =>
    obtain ⟨b, bs, hb⟩ := hne r (hr r (List.mem_cons_self ..))
    cases ss with
    | nil =>
      rw [layout_nil, layout_cons, hb] at h
      cases h
    | cons s ss =>
      obtain ⟨c, cs, hc⟩ := hne s (hs s (List.mem_cons_self ..))
      rw [layout_cons, layout_cons] at h
      -- Both begin with the same byte, which is the length of both first records.
      have hbc : b = c := by
        rw [hb, hc] at h
        exact (List.cons.inj h).1
      have hlen : r.bytes.length = s.bytes.length := by
        rw [r.length_eq, s.length_eq, hb, hc, hbc]
        rfl
      obtain ⟨hrs, hrest⟩ := List.append_inj h hlen
      rw [Record.ext hrs, ih (fun r hr' => hr r (List.mem_cons_of_mem _ hr'))
        (fun s hs' => hs s (List.mem_cons_of_mem _ hs')) hrest]

end Records
