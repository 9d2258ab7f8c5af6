import Mathlib.Data.Nat.Basic
import Mathlib.Data.UInt
import UsbProxy.Library.CStrings
import UsbProxy.Packet

/-!
# Hexadecimal dumps

`hex_string_wide` writes the digits of a buffer in lines of `width` bytes.  The block and the place of
the terminator come from `length/width + 1`, the places of the digits from a running count of the lines;
the two differ when the last line is full.  Stores are kept with their offsets in the block, and the
offsets the source computes as an `int` wrap as one.
-/

namespace UsbProxy

open CStrings

/-- A block with the stores made to it; `malloc` has none for a negative size. -/
structure HexBlock where
  size : ℤ
  writes : List (ℤ × Byte)
  deriving DecidableEq, Repr

def hexDigit (n : ℕ) : Byte := if n < 10 then UInt8.ofNat (0x30 + n) else UInt8.ofNat (0x57 + n)

/-- The two bytes of `hexAscii[b]` in memory. -/
def hexAscii (b : Byte) : List Byte := [hexDigit (b.toNat / 16), hexDigit (b.toNat % 16)]

/-- One round of the loop of `hex_string_wide`: its stores, and `curLine` afterwards. -/
def wideByte (width i curLine : ℕ) (b : Byte) : List (ℤ × Byte) × ℕ :=
  if i % width ≠ 0 then
    ((asInt (i * 3 + curLine), 0x20) :: store (asInt (i * 3) + curLine + 1) (hexAscii b), curLine)
  else
    ([(asInt (i * 3 + curLine), 0x0a), (asInt (i * 3 + curLine + 1), 0x09)] ++
      store (asInt (i * 3) + (curLine + 1) + 1) (hexAscii b), curLine + 1)

/-- The loop from `i` on. -/
def wideLoop (width : ℕ) : ℕ → ℕ → List Byte → List (ℤ × Byte)
  | _, _, [] => []
  | i, curLine, b :: bs =>
    (wideByte width i curLine b).1 ++ wideLoop width (i + 1) (wideByte width i curLine b).2 bs

def hexStringWide (buf : List Byte) (width : ℕ) : HexBlock :=
  match buf with
  | [] => { size := 1, writes := [(0, 0)] }
  | b :: bs =>
    let lines := buf.length / width + 1
    { size := asInt (buf.length * 3 + lines + 1)
      writes := (asInt (buf.length * 3 + lines), 0) :: [(0, 0x0a), (1, 0x09)] ++
        store 2 (hexAscii b) ++ wideLoop width 1 1 bs }

/-- The loop of `hex_string` from `i` on. -/
def narrowLoop : ℕ → List Byte → List (ℤ × Byte)
  | _, [] => []
  | i, b :: bs => ((i : ℤ) * 3 - 1, 0x20) :: store (i * 3) (hexAscii b) ++ narrowLoop (i + 1) bs

def hexString (buf : List Byte) : HexBlock :=
  match buf with
  | [] => { size := 1, writes := [(0, 0)] }
  | b :: bs =>
    if 32 < buf.length then hexStringWide buf 32
    else
      { size := buf.length * 3
        writes := ((buf.length : ℤ) * 3 - 1, 0) :: store 0 (hexAscii b) ++ narrowLoop 1 bs }

/-! ## Reading a dump -/

def isSpace (b : Byte) : Bool := b == 0x20 || (0x09 ≤ b && b ≤ 0x0d)

def hexVal (b : Byte) : Option ℕ :=
  if 0x30 ≤ b ∧ b ≤ 0x39 then some (b.toNat - 0x30)
  else if 0x61 ≤ b ∧ b ≤ 0x66 then some (b.toNat - 0x57)
  else if 0x41 ≤ b ∧ b ≤ 0x46 then some (b.toNat - 0x37)
  else none

/-- The bytes that pairs of digits stand for. -/
def decodePairs : List Byte → Option (List Byte)
  | [] => some []
  | [_] => none
  | a :: b :: rest =>
    (hexVal a).bind fun hi => (hexVal b).bind fun lo =>
      (decodePairs rest).map fun bytes => UInt8.ofNat (16 * hi + lo) :: bytes

/-- The stores are inside of the block, and it holds a string that was written up to its terminator
and reads as the buffer; `u` is what the block had before. -/
structure HexBlock.Dumps (block : HexBlock) (buf : List Byte) (u : ℤ → Byte) : Prop where
  inside : ∀ w ∈ block.writes, 0 ≤ w.1 ∧ w.1 < block.size
  text : ∃ s, IsString (contents u block.writes) s ∧
    (∀ k : ℤ, 0 ≤ k → k ≤ s.length → Written block.writes k) ∧
    decodePairs (s.filter fun b => !isSpace b) = some buf

/-! ## Digits -/

theorem hexVal_hexDigit : ∀ n < 16, hexVal (hexDigit n) = some n := by decide

theorem plain_hexDigit : ∀ n < 16, hexDigit n ≠ 0 ∧ isSpace (hexDigit n) = false := by decide

theorem plain_hexAscii (b : Byte) : ∀ c ∈ hexAscii b, c ≠ 0 ∧ isSpace c = false := by
  have hlt := b.toNat_lt
  rintro c (_ | ⟨_, _ | ⟨_, ⟨⟩⟩⟩)
  · exact plain_hexDigit _ (by omega)
  · exact plain_hexDigit _ (by omega)

theorem filter_hexAscii (b : Byte) : ((hexAscii b).filter fun c => !isSpace c) = hexAscii b :=
  List.filter_eq_self.2 fun c hc => by rw [(plain_hexAscii b c hc).2]; rfl

theorem decodePairs_hexAscii (b : Byte) (rest : List Byte) :
    decodePairs (hexAscii b ++ rest) = (decodePairs rest).map fun bytes => b :: bytes := by
  have hlt := b.toNat_lt
  have hb : UInt8.ofNat (16 * (b.toNat / 16) + b.toNat % 16) = b := by
    rw [Nat.div_add_mod, UInt8.ofNat_toNat]
  show (hexVal _).bind _ = _
  rw [hexVal_hexDigit _ (by omega), Option.bind_some, hexVal_hexDigit _ (by omega),
    Option.bind_some, hb]
  rfl

theorem decodePairs_flatMap (buf : List Byte) : decodePairs (buf.flatMap hexAscii) = some buf := by
  induction buf with
  | nil => rfl
  | cons b bs ih =>
    rw [List.flatMap_cons, decodePairs_hexAscii, ih]
    rfl

/-! ## The text of a dump -/

/-- The bytes from `i` on, each behind what separates it from the one before. -/
def separated (sep : ℕ → List Byte) : ℕ → List Byte → List Byte
  | _, [] => []
  | i, b :: bs => sep i ++ hexAscii b ++ separated sep (i + 1) bs

/-- What `hex_string_wide` puts in front of byte `i`. -/
def wideSep (width i : ℕ) : List Byte := if i % width ≠ 0 then [0x20] else [0x0a, 0x09]

/-- What `hex_string` puts in front of byte `i`. -/
def narrowSep (i : ℕ) : List Byte := if i = 0 then [] else [0x20]

section Separated

variable {sep : ℕ → List Byte} {width : ℕ}

theorem filter_separated (hsep : ∀ i, ∀ c ∈ sep i, isSpace c = true) (i : ℕ) (buf : List Byte) :
    ((separated sep i buf).filter fun c => !isSpace c) = buf.flatMap hexAscii := by
  induction buf generalizing i with
  | nil => rfl
  | cons b bs ih =>
    have hnil : ((sep i).filter fun c => !isSpace c) = [] :=
      List.filter_eq_nil_iff.2 fun c hc => by rw [hsep i c hc]; decide
    rw [separated, List.filter_append, List.filter_append, hnil, filter_hexAscii, ih,
      List.flatMap_cons, List.nil_append]

theorem zero_notMem_separated (hsep : ∀ i, (0 : Byte) ∉ sep i) (i : ℕ) (buf : List Byte) :
    (0 : Byte) ∉ separated sep i buf := by
  induction buf generalizing i with
  | nil => exact List.not_mem_nil
  | cons b bs ih =>
    rw [separated, List.mem_append, List.mem_append]
    rintro ((h | h) | h)
    · exact hsep i h
    · exact (plain_hexAscii b 0 h).1 rfl
    · exact ih _ h

theorem space_wideSep (width i : ℕ) : ∀ c ∈ wideSep width i, isSpace c = true := by
  unfold wideSep
  split_ifs
  · simp [isSpace]
  · simp [isSpace]

theorem space_narrowSep (i : ℕ) : ∀ c ∈ narrowSep i, isSpace c = true := by
  unfold narrowSep
  split_ifs
  · simp
  · simp [isSpace]

theorem zero_notMem_of_space {xs : List Byte} (h : ∀ c ∈ xs, isSpace c = true) : (0 : Byte) ∉ xs :=
  fun h0 => absurd (h 0 h0) (by decide)

end Separated

/-! ## Lines -/

/-- The lines the first `i` bytes take. -/
def lineCount (width i : ℕ) : ℕ := (i + width - 1) / width

section Lines

variable {width i n : ℕ}

theorem lineCount_add_one (hw : 1 ≤ width) (i : ℕ) : lineCount width (i + 1) = i / width + 1 := by
  have hi : i + 1 + width - 1 = i + width := by omega
  rw [lineCount, hi, Nat.add_div_right _ hw]

theorem lineCount_succ (hw : 1 ≤ width) (i : ℕ) :
    lineCount width (i + 1) = lineCount width i + if i % width ≠ 0 then 0 else 1 := by
  have hi : i + 1 + width - 1 = (i + width - 1) + 1 := by omega
  have hdvd : width ∣ (i + width - 1) + 1 ↔ ¬ i % width ≠ 0 := by
    have hi : (i + width - 1) + 1 = i + width := by omega
    rw [hi, Nat.dvd_add_left (Nat.dvd_refl width), Nat.dvd_iff_mod_eq_zero, not_not]
  rw [lineCount, hi, Nat.succ_div, lineCount]
  simp only [hdvd, ite_not]

/-- The number of lines the source allocates for is the number it writes, and one more if the last
line is full. -/
theorem lineCount_self (hw : 1 ≤ width) (n : ℕ) :
    n / width + 1 = lineCount width n + if width ∣ n then 1 else 0 := by
  rw [← lineCount_add_one hw, lineCount_succ hw]
  simp only [ne_eq, ite_not, Nat.dvd_iff_mod_eq_zero]

theorem lineCount_le (hw : 1 ≤ width) (n : ℕ) : lineCount width n ≤ n := by
  induction n with
  | zero =>
    rw [lineCount, Nat.div_eq_of_lt (by omega)]
  | succ n ih =>
    rw [lineCount_succ hw]
    split_ifs <;> omega

theorem length_separated_wide (hw : 1 ≤ width) (i : ℕ) (buf : List Byte) :
    3 * i + lineCount width i + (separated (wideSep width) i buf).length =
      3 * (i + buf.length) + lineCount width (i + buf.length) := by
  induction buf generalizing i with
  | nil => rfl
  | cons b bs ih =>
    have hrest := ih (i + 1)
    have hlen : (hexAscii b).length = 2 := rfl
    have hi : i + 1 + bs.length = i + (b :: bs).length := by
      rw [List.length_cons]
      omega
    rw [hi, lineCount_succ hw] at hrest
    rw [← hrest, separated, List.length_append, List.length_append, hlen, wideSep]
    split_ifs <;> simp only [List.length_cons, List.length_nil] <;> omega

/-- As long as no offset leaves the range of an `int` a round stores its text in one piece. -/
theorem wideByte_eq (hw : 1 ≤ width) {i : ℕ} (b : Byte) (h : 3 * i + lineCount width i + 1 < 2 ^ 31) :
    wideByte width i (lineCount width i) b =
      (store (3 * i + lineCount width i) (wideSep width i ++ hexAscii b), lineCount width (i + 1)) := by
  have hstart : asInt (i * 3 + lineCount width i) = 3 * i + lineCount width i := by
    rw [asInt_of_lt] <;> omega
  have hnext : asInt (i * 3 + lineCount width i + 1) = 3 * i + lineCount width i + 1 := by
    rw [asInt_of_lt] <;> omega
  have hdigits : asInt (i * 3) = 3 * i := by rw [asInt_of_lt] <;> omega
  unfold wideByte wideSep
  rw [hstart, hnext, hdigits, lineCount_succ hw]
  split_ifs with hmod
  · rfl
  · have hplace : (3 * i + (lineCount width i + 1) + 1 : ℤ) = 3 * i + lineCount width i + 1 + 1 := by
      omega
    rw [hplace]
    rfl

theorem wideLoop_eq (hw : 1 ≤ width) (i : ℕ) (buf : List Byte)
    (h : 3 * (i + buf.length) + lineCount width (i + buf.length) < 2 ^ 31) :
    wideLoop width i (lineCount width i) buf =
      store (3 * i + lineCount width i) (separated (wideSep width) i buf) := by
  induction buf generalizing i with
  | nil => rfl
  | cons b bs ih =>
    have hi : i + 1 + bs.length = i + (b :: bs).length := by
      rw [List.length_cons]
      omega
    have hone := length_separated_wide hw i [b]
    have hrest := length_separated_wide hw (i + 1) bs
    rw [separated, separated, List.append_nil, List.length_singleton] at hone
    rw [hi] at hrest
    have hend : (3 * i + lineCount width i : ℤ) + ((wideSep width i ++ hexAscii b).length : ℤ) =
        3 * ((i + 1 : ℕ) : ℤ) + (lineCount width (i + 1) : ℤ) := by
      omega
    have hbound : 3 * i + lineCount width i + 1 < 2 ^ 31 := by
      have := lineCount_succ hw i
      split_ifs at this <;> omega
    rw [wideLoop, wideByte_eq hw b hbound, ih (i + 1) (by rw [hi]; exact h), separated,
      store_append _ (wideSep width i ++ hexAscii b), hend]

/-- Every round of the loop begins with a store behind what the running count says. -/
theorem mem_wideLoop (hw : 1 ≤ width) {i j : ℕ} {buf : List Byte} (hij : i ≤ j)
    (hj : j < i + buf.length) :
    ∃ c, (asInt (j * 3 + lineCount width j), c) ∈ wideLoop width i (lineCount width i) buf := by
  induction buf generalizing i with
  | nil =>
    rw [List.length_nil] at hj
    omega
  | cons b bs ih =>
    have hcur : (wideByte width i (lineCount width i) b).2 = lineCount width (i + 1) := by
      rw [lineCount_succ hw]
      unfold wideByte
      split_ifs <;> rfl
    rw [wideLoop, hcur]
    rcases Nat.lt_or_eq_of_le hij with hlt | rfl
    · rw [List.length_cons] at hj
      obtain ⟨c, hc⟩ := ih (i := i + 1) (by omega) (by omega)
      exact ⟨c, List.mem_append_right _ hc⟩
    · unfold wideByte
      split_ifs
      · exact ⟨_, List.mem_append_left _ List.mem_cons_self⟩
      · exact ⟨_, List.mem_append_left _ List.mem_cons_self⟩

theorem lineCount_one (hw : 1 ≤ width) : lineCount width 1 = 1 := by
  rw [lineCount, Nat.add_comm, Nat.add_sub_cancel, Nat.div_self hw]

theorem hexStringWide_cons (b : Byte) (bs : List Byte) :
    hexStringWide (b :: bs) width =
      { size := asInt ((b :: bs).length * 3 + ((b :: bs).length / width + 1 : ℕ) + 1)
        writes := (asInt ((b :: bs).length * 3 + ((b :: bs).length / width + 1 : ℕ)), 0) ::
          [(0, 0x0a), (1, 0x09)] ++ store 2 (hexAscii b) ++ wideLoop width 1 1 bs } := rfl

/-- As long as the size fits in an `int` the dump is its text in one piece, with a terminator behind the
lines the source counted. -/
theorem hexStringWide_eq (hw : 1 ≤ width) {buf : List Byte} (hne : buf ≠ [])
    (h : 3 * buf.length + buf.length / width + 2 < 2 ^ 31) :
    hexStringWide buf width =
      { size := 3 * buf.length + (buf.length / width + 1 : ℕ) + 1
        writes := (3 * buf.length + (buf.length / width + 1 : ℕ), 0) ::
          store 0 (separated (wideSep width) 0 buf) } := by
  obtain ⟨b, bs, rfl⟩ := List.exists_cons_of_ne_nil hne
  have hlines := lineCount_self hw (b :: bs).length
  have hzero : wideSep width 0 = [0x0a, 0x09] := by
    unfold wideSep
    rw [Nat.zero_mod, if_neg (not_not.2 rfl)]
  have hloop := wideLoop_eq hw 1 bs (by
    rw [List.length_cons] at h hlines
    rw [Nat.add_comm 1 bs.length]
    omega)
  have hsize : asInt ((b :: bs).length * 3 + ((b :: bs).length / width + 1 : ℕ) + 1) =
      3 * (b :: bs).length + ((b :: bs).length / width + 1 : ℕ) + 1 := by
    rw [asInt_of_lt] <;> omega
  have hend : asInt ((b :: bs).length * 3 + ((b :: bs).length / width + 1 : ℕ)) =
      3 * (b :: bs).length + ((b :: bs).length / width + 1 : ℕ) := by
    rw [asInt_of_lt] <;> omega
  rw [lineCount_one hw] at hloop
  rw [hexStringWide_cons, hsize, hend, hloop, separated, store_append, hzero]
  rfl

/-- A size that does not fit in an `int` leaves some store outside of the block. -/
theorem hexStringWide_outside (hw : 1 ≤ width) {buf : List Byte} (hlen : buf.length < 2 ^ 31)
    (h : 2 ^ 31 ≤ 3 * buf.length + buf.length / width + 2) :
    ∃ w ∈ (hexStringWide buf width).writes, ¬ (0 ≤ w.1 ∧ w.1 < (hexStringWide buf width).size) := by
  have hlines : buf.length / width ≤ buf.length := Nat.div_le_self _ _
  have hne : buf ≠ [] := by
    rintro rfl
    rw [List.length_nil, Nat.zero_div] at h
    omega
  obtain ⟨b, bs, rfl⟩ := List.exists_cons_of_ne_nil hne
  rw [hexStringWide_cons]
  rcases Nat.lt_or_ge (3 * (b :: bs).length + (b :: bs).length / width + 2) (2 ^ 32) with hlt | hge
  · -- the block has a negative size
    have hsize := asInt_neg (z := (b :: bs).length * 3 + ((b :: bs).length / width + 1 : ℕ) + 1)
      (by omega) (by omega)
    refine ⟨(0, 0x0a), List.mem_cons_of_mem _ List.mem_cons_self, fun hin => ?_⟩
    dsimp only at hin
    omega
  · -- the offset of this byte is negative
    obtain ⟨j, hj⟩ : ∃ j : ℕ, j = 715827883 := ⟨_, rfl⟩
    have hcur := lineCount_le hw j
    rw [List.length_cons] at hlines hge
    obtain ⟨c, hc⟩ : ∃ c, (asInt (j * 3 + lineCount width j), c) ∈
        wideLoop width 1 (lineCount width 1) bs := mem_wideLoop hw (by omega) (by omega)
    have hoff := asInt_neg (z := j * 3 + lineCount width j) (by omega) (by omega)
    rw [lineCount_one hw] at hc
    refine ⟨_, List.mem_append_right _ hc, fun hin => ?_⟩
    have hneg := hin.1
    dsimp only at hneg
    omega

end Lines

/-! ## Which dumps are right -/

/-- A text without zeros, with its terminator right behind it and a block that ends there. -/
theorem dumps_stored {sep : ℕ → List Byte} (hsep : ∀ i, ∀ c ∈ sep i, isSpace c = true)
    (buf : List Byte) (u : ℤ → Byte) :
    HexBlock.Dumps
      { size := (separated sep 0 buf).length + 1
        writes := ((separated sep 0 buf).length, 0) :: store 0 (separated sep 0 buf) } buf u := by
  have h0 := zero_notMem_separated (fun i => zero_notMem_of_space (hsep i)) 0 buf
  refine ⟨fun w hw => ?_, _, isString_stored h0 u, fun k hk hle => ?_, ?_⟩
  · rcases List.mem_cons.1 hw with rfl | hw
    · dsimp only
      omega
    · have := mem_store hw
      dsimp only
      omega
  · rcases Int.lt_or_eq_of_le hle with hlt | rfl
    · have hw : Written (store 0 (separated sep 0 buf)) k := written_store hk (by omega)
      obtain ⟨w, hw, rfl⟩ := hw
      exact ⟨w, List.mem_cons_of_mem _ hw, rfl⟩
    · exact ⟨_, List.mem_cons_self, rfl⟩
  · rw [filter_separated hsep]
    exact decodePairs_flatMap buf

/-- With the terminator one place further the byte in between was not written. -/
theorem not_dumps_gap {sep : ℕ → List Byte} (hsep : ∀ i, ∀ c ∈ sep i, isSpace c = true)
    (buf : List Byte) (size : ℤ) :
    ¬ HexBlock.Dumps
      { size, writes := ((separated sep 0 buf).length + 1, 0) :: store 0 (separated sep 0 buf) } buf
        fun _ => 0x61 := by
  rintro ⟨-, s, hs, hwritten, -⟩
  have h0 := zero_notMem_separated (fun i => zero_notMem_of_space (hsep i)) 0 buf
  have hgap := isString_gap (u := fun _ => (0x61 : Byte)) h0 (by decide)
  rw [hs.unique hgap, List.length_append, List.length_singleton] at hwritten
  obtain ⟨w, hw, hk⟩ := hwritten (separated sep 0 buf).length (by omega) (by omega)
  rcases List.mem_cons.1 hw with rfl | hw
  · dsimp only at hk
    omega
  · have := mem_store hw
    omega

section Dumps

variable {width : ℕ} {buf : List Byte}

theorem hexStringWide_dumps_iff (hw : 1 ≤ width) (hlen : buf.length < 2 ^ 31) :
    (∀ u, (hexStringWide buf width).Dumps buf u) ↔
      buf = [] ∨ (¬ width ∣ buf.length ∧ 3 * buf.length + buf.length / width + 2 < 2 ^ 31) := by
  rcases eq_or_ne buf [] with rfl | hne
  · exact ⟨fun _ => Or.inl rfl, fun _ u => dumps_stored (space_wideSep width) [] u⟩
  rcases Nat.lt_or_ge (3 * buf.length + buf.length / width + 2) (2 ^ 31) with hlt | hge
  · have htext := length_separated_wide hw 0 buf
    have hlines := lineCount_self hw buf.length
    have hnil : lineCount width 0 = 0 := Nat.le_zero.1 (lineCount_le hw 0)
    simp only [hnil, Nat.zero_add, Nat.mul_zero, Nat.add_zero] at htext
    rw [hexStringWide_eq hw hne hlt]
    by_cases hdvd : width ∣ buf.length
    · -- the count is one more than the lines of the text
      rw [if_pos hdvd] at hlines
      have hend : (3 * buf.length + (buf.length / width + 1 : ℕ) : ℤ) =
          (separated (wideSep width) 0 buf).length + 1 := by
        omega
      rw [hend]
      exact ⟨fun h => absurd (h _) (not_dumps_gap (space_wideSep width) buf _),
        fun h => absurd hdvd (h.resolve_left hne).1⟩
    · rw [if_neg hdvd] at hlines
      have hend : (3 * buf.length + (buf.length / width + 1 : ℕ) : ℤ) =
          (separated (wideSep width) 0 buf).length := by
        omega
      rw [hend]
      exact ⟨fun _ => Or.inr ⟨hdvd, hlt⟩, fun _ => dumps_stored (space_wideSep width) buf⟩
  · obtain ⟨w, hw', hout⟩ := hexStringWide_outside hw hlen hge
    refine ⟨fun h => absurd ((h fun _ => 0).inside w hw') hout, ?_⟩
    rintro (rfl | ⟨-, hlt⟩)
    · exact absurd rfl hne
    · omega

theorem length_separated_narrow {i : ℕ} (hi : i ≠ 0) (buf : List Byte) :
    (separated narrowSep i buf).length = 3 * buf.length := by
  induction buf generalizing i with
  | nil => rfl
  | cons b bs ih =>
    have hsep : narrowSep i = [0x20] := if_neg hi
    have hdigits : (hexAscii b).length = 2 := rfl
    rw [separated, List.length_append, List.length_append, hsep, hdigits, ih (Nat.succ_ne_zero i),
      List.length_singleton, List.length_cons]
    omega

theorem narrowLoop_eq {i : ℕ} (hi : i ≠ 0) (buf : List Byte) :
    narrowLoop i buf = store (i * 3 - 1) (separated narrowSep i buf) := by
  induction buf generalizing i with
  | nil => rfl
  | cons b bs ih =>
    have hsep : narrowSep i = [0x20] := if_neg hi
    have hnext : (i * 3 - 1 : ℤ) + (([0x20] ++ hexAscii b : List Byte).length : ℤ) =
        ((i + 1 : ℕ) : ℤ) * 3 - 1 := by
      have hlen : ([0x20] ++ hexAscii b : List Byte).length = 3 := rfl
      omega
    rw [narrowLoop, ih (Nat.succ_ne_zero i), separated, hsep, store_append, hnext]
    simp only [store, List.cons_append, List.nil_append, Int.sub_add_cancel]

theorem hexString_short (hne : buf ≠ []) (hle : buf.length ≤ 32) :
    hexString buf =
      { size := (separated narrowSep 0 buf).length + 1
        writes := ((separated narrowSep 0 buf).length, 0) :: store 0 (separated narrowSep 0 buf) } := by
  obtain ⟨b, bs, rfl⟩ := List.exists_cons_of_ne_nil hne
  have hrest := length_separated_narrow Nat.one_ne_zero bs
  have hlen : (separated narrowSep 0 (b :: bs)).length = 2 + 3 * bs.length := by
    rw [separated, List.length_append, hrest]
    rfl
  have hsize : ((b :: bs).length : ℤ) * 3 = (separated narrowSep 0 (b :: bs)).length + 1 := by
    rw [hlen, List.length_cons]
    omega
  have hsep : narrowSep 0 = [] := rfl
  have hstore : store 0 (separated narrowSep 0 (b :: bs)) =
      store 0 (hexAscii b) ++ store 2 (separated narrowSep 1 bs) := by
    rw [separated, hsep, List.nil_append, store_append]
    rfl
  unfold hexString
  simp only [if_neg (Nat.not_lt.2 hle)]
  rw [hstore, narrowLoop_eq Nat.one_ne_zero, hsize, Int.add_sub_cancel]
  rfl

/-- **Where a dump reads as its buffer.**  `hex_string` up to 32 bytes; `hex_string_wide` where the last
line is not full, and the size fits in an `int`. -/
theorem hexString_dumps_iff (hlen : buf.length < 2 ^ 31) :
    ((∀ u, (hexString buf).Dumps buf u) ↔
      buf.length ≤ 32 ∨
        (¬ 32 ∣ buf.length ∧ 3 * buf.length + buf.length / 32 + 2 < 2 ^ 31)) ∧
      ∀ width, 1 ≤ width →
        ((∀ u, (hexStringWide buf width).Dumps buf u) ↔
          buf = [] ∨
            (¬ width ∣ buf.length ∧ 3 * buf.length + buf.length / width + 2 < 2 ^ 31)) := by
  refine ⟨?_, fun width hw => hexStringWide_dumps_iff hw hlen⟩
  rcases eq_or_ne buf [] with rfl | hne
  · exact ⟨fun _ => Or.inl (Nat.zero_le _), fun _ u => dumps_stored space_narrowSep [] u⟩
  rcases Nat.lt_or_ge 32 buf.length with hgt | hle
  · have hwide : hexString buf = hexStringWide buf 32 := by
      obtain ⟨b, bs, rfl⟩ := List.exists_cons_of_ne_nil hne
      exact if_pos hgt
    rw [hwide, hexStringWide_dumps_iff (by omega) hlen]
    exact or_congr_left ⟨fun h => absurd h hne, fun h => absurd h (Nat.not_le.2 hgt)⟩
  · rw [hexString_short hne hle]
    exact ⟨fun _ => Or.inl hle, fun _ => dumps_stored space_narrowSep buf⟩

end Dumps

/-- A full bulk packet of 64 bytes: two full lines. -/
theorem hexString_dumps_fails :
    ¬ ∀ u, (hexString (List.replicate 64 0)).Dumps (List.replicate 64 0) u := by
  intro h
  have hwide : hexString (List.replicate 64 0) = hexStringWide (List.replicate 64 0) 32 := rfl
  rw [hwide, hexStringWide_dumps_iff (by decide) (by decide)] at h
  revert h
  decide

/-- A buffer of three bytes in lines of two, and one of four. -/
theorem hexString_dumps_iff_three :
    (∀ u, (hexStringWide [1, 2, 3] 2).Dumps [1, 2, 3] u) ∧
      ¬ ∀ u, (hexStringWide [1, 2, 3, 4] 2).Dumps [1, 2, 3, 4] u :=
  ⟨((hexString_dumps_iff (by decide)).2 2 (by decide)).2 (by decide),
    fun h => absurd (((hexString_dumps_iff (by decide)).2 2 (by decide)).1 h) (by decide)⟩

end UsbProxy
