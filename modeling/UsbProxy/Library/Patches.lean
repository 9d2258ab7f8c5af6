import Mathlib.Data.List.Basic
import Mathlib.Logic.Nontrivial.Basic

/-!
# Patching a buffer along a cursor

A cursor walks over a buffer and changes one entry here and there.  A move either skips a known number
of entries or patches: it rewrites the entry `field` places behind the cursor and goes on by as much as
the entry under the cursor says, a record that begins with its own length.  An access outside the
buffer ends the walk with `none`.

`run_of_places` is the frame rule of such a walk, `places_of_run` its converse: if every value written
only shows at certain positions, the walk only comes to places whose patches are there.
-/

namespace Patches

inductive Move
  | skip (n : ℕ)
  | patch
  deriving DecidableEq, Repr

variable {α : Type*} (stride : α → ℕ) (field : ℕ)

/-- The buffer after the moves from `p` on. -/
def run (f : α → α) : List Move → List α → ℕ → Option (List α)
  | [], buf, _ => some buf
  | .skip n :: ms, buf, p => run f ms buf (p + n)
  | .patch :: ms, buf, p =>
    (buf[p + field]?).bind fun x =>
      let buf := buf.set (p + field) (f x)
      (buf[p]?).bind fun length => run f ms buf (p + stride length)

/-- Where the cursor stands before each patch if it leaves the buffer as it is. -/
def places : List Move → List α → ℕ → List ℕ
  | [], _, _ => []
  | .skip n :: ms, buf, p => places ms buf (p + n)
  | .patch :: ms, buf, p =>
    p :: (buf[p]?).elim [] fun length => places ms buf (p + stride length)

/-- The buffers agree outside of `I`. -/
def AgreeOff (I : ℕ → Prop) (buf buf' : List α) : Prop :=
  buf.length = buf'.length ∧ ∀ q, ¬ I q → buf[q]? = buf'[q]?

section

variable {stride field} {f : α → α} {I : ℕ → Prop} {buf buf' out : List α} {ms : List Move} {p q : ℕ}
  {c : α}

theorem AgreeOff.refl (buf : List α) : AgreeOff I buf buf := ⟨rfl, fun _ _ => rfl⟩

theorem AgreeOff.trans {buf'' : List α} (h : AgreeOff I buf buf') (h' : AgreeOff I buf' buf'') :
    AgreeOff I buf buf'' :=
  ⟨h.1.trans h'.1, fun q hq => (h.2 q hq).trans (h'.2 q hq)⟩

theorem AgreeOff.set (h : AgreeOff I buf buf') (hq : I q) (x : α) : AgreeOff I (buf.set q x) buf' := by
  refine ⟨List.length_set.trans h.1, fun r hr => ?_⟩
  have hne : q ≠ r := by
    rintro rfl
    exact hr hq
  rw [List.getElem?_set_ne hne]
  exact h.2 r hr

theorem run_patch {x length : α} (hx : buf[p + field]? = some x)
    (hl : (buf.set (p + field) (f x))[p]? = some length) :
    run stride field f (.patch :: ms) buf p =
      run stride field f ms (buf.set (p + field) (f x)) (p + stride length) := by
  rw [run, hx]
  show ((buf.set (p + field) (f x))[p]?).bind _ = _
  rw [hl]
  rfl

theorem places_patch {length : α} (hl : buf[p]? = some length) :
    places stride (.patch :: ms) buf p = p :: places stride ms buf (p + stride length) := by
  rw [places, hl]
  rfl

theorem places_congr {lo : ℕ} (h : ∀ q, lo ≤ q → buf[q]? = buf'[q]?) (hlo : lo ≤ p) :
    places stride ms buf p = places stride ms buf' p := by
  induction ms generalizing p with
  | nil => rfl
  | cons m ms ih =>
    cases m with
    | skip n => exact ih (Nat.le_add_right_of_le hlo)
    | patch =>
      rw [places, places, h p hlo]
      congr 2
      funext length
      exact ih (Nat.le_add_right_of_le hlo)

/-- If every place of a walk has its patch in `I`, and the patched entries are never those the walk
is guided by, nothing outside of `I` changes. -/
theorem run_of_places (f : α → α) (hsep : ∀ p, I (p + field) → ¬ I p) {orig : List α}
    (hlen : ∀ q, I q → q < orig.length) (hplaces : ∀ q ∈ places stride ms orig p, I (q + field))
    (hbuf : AgreeOff I buf orig) :
    ∃ out, run stride field f ms buf p = some out ∧ AgreeOff I out orig := by
  induction ms generalizing buf p with
  | nil => exact ⟨buf, rfl, hbuf⟩
  | cons m ms ih =>
    cases m with
    | skip n => exact ih hplaces hbuf
    | patch =>
      have hp : I (p + field) := hplaces p (List.mem_cons_self ..)
      have hlt := hlen _ hp
      obtain ⟨x, hx⟩ : ∃ x, buf[p + field]? = some x :=
        ⟨_, List.getElem?_eq_getElem (by rw [hbuf.1]; exact hlt)⟩
      obtain ⟨length, hl⟩ : ∃ length, orig[p]? = some length :=
        ⟨_, List.getElem?_eq_getElem (show p < orig.length by omega)⟩
      have hnext := hbuf.set hp (f x)
      rw [run_patch hx ((hnext.2 p (hsep p hp)).trans hl)]
      rw [places_patch hl] at hplaces
      exact ih (fun q hq => hplaces q (List.mem_cons_of_mem _ hq)) hnext

theorem length_run (h : run stride field f ms buf p = some out) : out.length = buf.length := by
  induction ms generalizing buf p with
  | nil => rw [← Option.some.inj h]
  | cons m ms ih =>
    cases m with
    | skip n => exact ih h
    | patch =>
      rw [run, Option.bind_eq_some_iff] at h
      obtain ⟨x, -, h⟩ := h
      obtain ⟨length, -, h⟩ := Option.bind_eq_some_iff.1 h
      rw [ih h, List.length_set]

theorem getElem?_run_const (h : run stride field (fun _ => c) ms buf p = some out)
    (hq : buf[q]? = some c) : out[q]? = some c := by
  induction ms generalizing buf p with
  | nil =>
    rw [← Option.some.inj h]
    exact hq
  | cons m ms ih =>
    cases m with
    | skip n => exact ih h hq
    | patch =>
      rw [run, Option.bind_eq_some_iff] at h
      obtain ⟨x, hx, h⟩ := h
      obtain ⟨length, -, h⟩ := Option.bind_eq_some_iff.1 h
      refine ih h ?_
      rw [List.getElem?_set]
      split_ifs with heq hlt
      · rfl
      · exact absurd (List.getElem?_eq_some_iff.1 hx).1 hlt
      · exact hq

/-- If whatever value is written, the walk ends and only shows in `I` from `lo` on, then every place
it comes to has its patch in `I`. -/
theorem places_of_run [Nontrivial α] (hsep : ∀ p, I (p + field) → ¬ I p) {orig : List α} {lo : ℕ}
    (hlo : lo ≤ p) {bufs : α → List α} (hbufs : ∀ c, AgreeOff I (bufs c) orig)
    (hrun : ∀ c, ∃ out, run stride field (fun _ => c) ms (bufs c) p = some out ∧
      ∀ q, lo ≤ q → ¬ I q → out[q]? = orig[q]?) :
    ∀ q ∈ places stride ms orig p, I (q + field) := by
  induction ms generalizing bufs p with
  | nil => simp [places]
  | cons m ms ih =>
    cases m with
    | skip n => exact ih (Nat.le_add_right_of_le hlo) hbufs hrun
    | patch =>
      have hstep : ∀ c, ∃ x length out, (bufs c)[p + field]? = some x ∧
          ((bufs c).set (p + field) c)[p]? = some length ∧
          run stride field (fun _ => c) ms ((bufs c).set (p + field) c) (p + stride length) = some out ∧
          ∀ q, lo ≤ q → ¬ I q → out[q]? = orig[q]? := by
        intro c
        obtain ⟨out, h, hout⟩ := hrun c
        rw [run, Option.bind_eq_some_iff] at h
        obtain ⟨x, hx, h⟩ := h
        obtain ⟨length, hl, h⟩ := Option.bind_eq_some_iff.1 h
        exact ⟨x, length, out, hx, hl, h, hout⟩
      -- A value other than the one that was there would show.
      have hp : I (p + field) := by
        by_contra hp
        obtain ⟨c₀⟩ : Nonempty α := inferInstance
        obtain ⟨x, -, -, hx, -⟩ := hstep c₀
        rw [(hbufs c₀).2 _ hp] at hx
        obtain ⟨c, hc⟩ := exists_ne x
        obtain ⟨y, length, out, hy, -, h, hout⟩ := hstep c
        have hset : ((bufs c).set (p + field) c)[p + field]? = some c :=
          List.getElem?_set_self (List.getElem?_eq_some_iff.1 hy).1
        have hkept := getElem?_run_const h hset
        rw [hout _ (by omega) hp, hx] at hkept
        exact hc (Option.some.inj hkept).symm
      have hnext : ∀ c, AgreeOff I ((bufs c).set (p + field) c) orig := fun c => (hbufs c).set hp c
      obtain ⟨c₀⟩ : Nonempty α := inferInstance
      obtain ⟨-, length, -, -, hl, -⟩ := hstep c₀
      rw [(hnext c₀).2 p (hsep p hp)] at hl
      rw [places_patch hl]
      refine List.forall_mem_cons.2 ⟨hp, ih (Nat.le_add_right_of_le hlo) hnext fun c => ?_⟩
      obtain ⟨-, length', out, -, hl', h, hout⟩ := hstep c
      rw [(hnext c).2 p (hsep p hp), hl] at hl'
      cases hl'
      exact ⟨out, h, hout⟩

end

end Patches
