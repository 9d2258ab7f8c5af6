import Mathlib.Data.List.GetD
import UsbProxy.BulkExchange
import UsbProxy.Library.Scanning

/-!
# The search for a password

`check_for_password` looks for a password in a written block: the unblock password while writes are
blocked, the block password otherwise.  It runs over the block once, up to `BLOCK_SIZE` less the
length of the password, and compares bytes of the block with characters.  `toggles_iff` says in
which blocks it finds a password that is there.
-/

namespace UsbProxy

open Scanning

/-- A byte of a block fits a character of a password. -/
def fitsChar (charSigned : Bool) (v c : Byte) : Bool := (v.toNat : ℤ) = charInt charSigned c

theorem eq_of_fitsChar {charSigned : Bool} {v c : Byte} (h : fitsChar charSigned v c = true) :
    v = c := by
  have heq : (v.toNat : ℤ) = charInt charSigned c := of_decide_eq_true h
  have hv := v.toNat_lt
  have hc := c.toNat_lt
  apply UInt8.toNat_inj.1
  cases charSigned with
  | false => exact Int.ofNat.inj heq
  | true =>
    rw [charInt_signed] at heq
    split_ifs at heq <;> omega

namespace MassStorage

variable {charSigned : Bool} {m : MassStorage} {password data : List Byte}

def relevantPassword (m : MassStorage) : List Byte :=
  if m.inbandBlockWrites then m.unblockPassword else m.blockPassword

/-- The loop from an index on is a search in the indices that are left. -/
theorem findPassword_eq (charSigned : Bool) (data : List Byte) (hp : password ≠ []) (n i ptr : ℕ)
    (hn : i + n ≤ data.length) (hptr : ptr < password.length) :
    findPassword charSigned password data n i ptr =
      scan (fitsChar charSigned) password (password.drop ptr) ((data.drop i).take n) := by
  induction n generalizing i ptr with
  | zero => rw [List.take_zero, scan_nil]; rfl
  | succ n ih =>
    have hi : i < data.length := by omega
    rw [List.drop_eq_getElem_cons hi, List.drop_eq_getElem_cons hptr, List.take_succ_cons, scan,
      findPassword, List.getD_eq_getElem data 0 hi, List.getD_eq_getElem password 0 hptr]
    by_cases hfit : fitsChar charSigned data[i] password[ptr] = true
    · rw [if_pos hfit, if_pos (of_decide_eq_true hfit)]
      by_cases hend : ptr + 1 = password.length
      · rw [if_pos hend, if_pos (List.drop_eq_nil_of_le hend.ge)]
      · rw [if_neg hend, if_neg fun h => hend (Nat.le_antisymm hptr (List.drop_eq_nil_iff.1 h))]
        exact ih (i + 1) (ptr + 1) (by omega) (by omega)
    · rw [if_neg hfit, if_neg (fun h => hfit (decide_eq_true h))]
      rw [if_neg (List.length_pos_of_ne_nil hp).ne]
      exact ih (i + 1) 0 (by omega) (List.length_pos_of_ne_nil hp)

/-- The flag changes exactly when the search finds something in the part of the block that it runs
over. -/
theorem checkForPassword_eq_scan (hdata : data.length = BLOCK_SIZE) (hp : m.relevantPassword ≠ []) :
    (m.checkForPassword charSigned data).inbandBlockWrites = !m.inbandBlockWrites ↔
      scan (fitsChar charSigned) m.relevantPassword m.relevantPassword
        (data.take (BLOCK_SIZE - m.relevantPassword.length)) = true := by
  have hpos := List.length_pos_of_ne_nil hp
  have hloop := findPassword_eq charSigned data hp (BLOCK_SIZE - m.relevantPassword.length) 0 0
    (by omega) hpos
  rw [List.drop_zero, List.drop_zero] at hloop
  rw [← hloop]
  unfold checkForPassword relevantPassword
  cases hmode : m.inbandBlockWrites with
  | true =>
    rw [if_pos rfl, if_pos rfl]
    split_ifs with hfind
    · exact iff_of_true rfl hfind
    · exact iff_of_false (by rw [hmode]; decide) hfind
  | false =>
    rw [if_neg Bool.false_ne_true, if_neg Bool.false_ne_true]
    split_ifs with hfind
    · exact iff_of_true rfl hfind
    · exact iff_of_false (by rw [hmode]; decide) hfind

/-- **The search.**  The flag changes exactly when the password is at a position where an attempt
begins, and ends early enough. -/
theorem checkForPassword_iff (hdata : data.length = BLOCK_SIZE) (hp : m.relevantPassword ≠ []) :
    (m.checkForPassword charSigned data).inbandBlockWrites = !m.inbandBlockWrites ↔
      ∃ s, Restart (fitsChar charSigned) m.relevantPassword data s ∧
        s + 2 * m.relevantPassword.length ≤ BLOCK_SIZE ∧
        common (fitsChar charSigned) (data.drop s) m.relevantPassword = m.relevantPassword.length := by
  have hpos := List.length_pos_of_ne_nil hp
  rw [checkForPassword_eq_scan hdata hp, scan_iff hp]
  refine exists_congr fun s => and_congr_right fun _ => and_congr_left' ?_
  omega

/-- **Passwords.**  The flag changes exactly for the blocks with the password in them if and only if
a password that is there can be found. -/
theorem toggles_iff (charSigned : Bool) (m : MassStorage) (data : List Byte)
    (hdata : data.length = BLOCK_SIZE) (hp : m.relevantPassword ≠ []) :
    ((m.checkForPassword charSigned data).inbandBlockWrites = !m.inbandBlockWrites ↔
        m.relevantPassword <:+: data) ↔
      (m.relevantPassword <:+: data →
        ∃ s, Restart (fitsChar charSigned) m.relevantPassword data s ∧
          s + 2 * m.relevantPassword.length ≤ BLOCK_SIZE ∧
          common (fitsChar charSigned) (data.drop s) m.relevantPassword =
            m.relevantPassword.length) := by
  rw [checkForPassword_iff hdata hp]
  constructor
  · intro h
    exact h.2
  · intro h
    refine ⟨?_, h⟩
    rintro ⟨s, -, -, hfit⟩
    have hprefix := prefix_of_common (fun a b => eq_of_fitsChar) hfit
    exact hprefix.isInfix.trans (List.drop_suffix s data).isInfix

/-- Writes are blocked, the password for the way out is `ab`. -/
def lockedOut : MassStorage :=
  { new true false true [0x61, 0x62] [0x62, 0x61] [] 0 0 with state := .write }

/-- A block that begins with `ab`. -/
theorem toggles_iff_ab :
    ((lockedOut.checkForPassword true (0x61 :: 0x62 :: List.replicate 510 0)).inbandBlockWrites =
        !lockedOut.inbandBlockWrites ↔
        lockedOut.relevantPassword <:+: 0x61 :: 0x62 :: List.replicate 510 0) ↔
      (lockedOut.relevantPassword <:+: 0x61 :: 0x62 :: List.replicate 510 0 →
        ∃ s, Restart (fitsChar true) lockedOut.relevantPassword
            (0x61 :: 0x62 :: List.replicate 510 0) s ∧
          s + 2 * lockedOut.relevantPassword.length ≤ BLOCK_SIZE ∧
          common (fitsChar true) ((0x61 :: 0x62 :: List.replicate 510 0).drop s)
            lockedOut.relevantPassword = lockedOut.relevantPassword.length) :=
  toggles_iff true lockedOut _ (by rw [List.length_cons, List.length_cons, List.length_replicate]; rfl)
    (by decide)

/-- A block that begins with `aab`: the second `a` ends the first attempt and is not looked at
again. -/
theorem toggles_fails :
    ¬ ((lockedOut.checkForPassword true
          (0x61 :: 0x61 :: 0x62 :: List.replicate 509 0)).inbandBlockWrites =
        !lockedOut.inbandBlockWrites ↔
      lockedOut.relevantPassword <:+: 0x61 :: 0x61 :: 0x62 :: List.replicate 509 0) := by
  intro h
  have hinfix : lockedOut.relevantPassword <:+: 0x61 :: 0x61 :: 0x62 :: List.replicate 509 0 :=
    ⟨[0x61], List.replicate 509 0, rfl⟩
  have hlen : (0x61 :: 0x61 :: 0x62 :: List.replicate 509 (0 : Byte)).length = BLOCK_SIZE := by
    rw [List.length_cons, List.length_cons, List.length_cons, List.length_replicate]
    rfl
  exact absurd ((checkForPassword_eq_scan hlen (by decide)).1 (h.2 hinfix)) (by decide +kernel)

end MassStorage

end UsbProxy
