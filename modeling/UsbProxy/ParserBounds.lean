import UsbProxy.ParserProgress
import Mathlib.Order.Monotone.Basic

/-!
# Bounds of the parsing constructors

Which bytes the constructors read when no length byte they come to is zero.  Behind the first
interface descriptor an endpoint descriptor costs seven bytes whatever its length says, everything
else as many as its length byte; the loop in front of the first interface descriptor only ends there,
since it reads the type byte before it compares the cursor with the end.
-/

namespace UsbProxy

open Records Iteration

/-! ## The chain is ordered -/

theorem OnChain.exists_iterate {mem : Memory} {p : ℕ} (h : OnChain mem p) :
    ∃ n, (fun q => q + (mem q).toNat)^[n] 9 = p := by
  induction h with
  | start => exact ⟨0, rfl⟩
  | next _ ih =>
    obtain ⟨n, rfl⟩ := ih
    exact ⟨n + 1, Function.iterate_succ_apply' ..⟩

/-- No offset of the chain lies inside a descriptor that begins on the chain. -/
theorem OnChain.le_or_le {mem : Memory} {p q : ℕ} (hp : OnChain mem p) (hq : OnChain mem q) :
    q ≤ p ∨ p + (mem p).toNat ≤ q := by
  obtain ⟨m, rfl⟩ := hp.exists_iterate
  obtain ⟨n, rfl⟩ := hq.exists_iterate
  have hmono : Monotone fun k => (fun q => q + (mem q).toNat)^[k] 9 :=
    monotone_nat_of_le_succ fun k => by
      show _ ≤ (fun q => q + (mem q).toNat)^[k + 1] 9
      rw [Function.iterate_succ_apply']
      exact Nat.le_add_right ..
  rcases Nat.lt_or_ge m n with hlt | hge
  · right
    have hle := hmono (show m + 1 ≤ n from hlt)
    simp only [Function.iterate_succ_apply'] at hle
    exact hle
  · exact .inl (hmono hge)

theorem OnChain.nine_le {mem : Memory} {p : ℕ} (h : OnChain mem p) : 9 ≤ p := by
  induction h with
  | start => exact Nat.le_refl 9
  | next _ ih => omega

/-- An interface descriptor lies in front of `p`. -/
def BehindInterface (mem : Memory) (p : ℕ) : Prop :=
  ∃ q, OnChain mem q ∧ q < p ∧ mem (q + 1) = USB_DT_INTERFACE

theorem BehindInterface.mono {mem : Memory} {p q : ℕ} (h : BehindInterface mem p) (hpq : p ≤ q) :
    BehindInterface mem q := by
  obtain ⟨r, hr, hlt, ht⟩ := h
  exact ⟨r, hr, by omega, ht⟩

theorem not_behindInterface_nine {mem : Memory} : ¬ BehindInterface mem 9 := by
  rintro ⟨q, hq, hlt, -⟩
  have := hq.nine_le
  omega

/-- The descriptors a buffer of `len` bytes must hold whole: every type byte the walk comes to, every
copied block, and an interface descriptor if anything follows the header. -/
structure WellCut (mem : Memory) (len : ℕ) : Prop where
  typed : ∀ p, OnChain mem p → p < len → p + 1 < len
  endpoint : ∀ p, OnChain mem p → p < len → mem (p + 1) = USB_DT_ENDPOINT → BehindInterface mem p →
    p + 7 ≤ len
  other : ∀ p, OnChain mem p → p < len →
    ¬ (mem (p + 1) = USB_DT_ENDPOINT ∧ BehindInterface mem p) → p + (mem p).toNat ≤ len
  interface : 9 < len → ∃ q, OnChain mem q ∧ q < len ∧ mem (q + 1) = USB_DT_INTERFACE

namespace Parser

variable {mem : Memory} {uninit : ℕ → Memory} {e : ℕ} {s : Parser}

/-- Every byte the constructors read of the buffer: the 9 of the header and those of the steps. -/
def ReadsInside (mem : Memory) (uninit : ℕ → Memory) (len : ℕ) : Prop :=
  (∀ a ∈ List.range' 0 9, a < len) ∧ ∀ n, ∀ a ∈ reads mem len (after mem uninit len n), a < len

/-- Where a loop head stands relative to the interface descriptors. -/
def Placed (mem : Memory) (e : ℕ) (s : Parser) : Prop :=
  match s.loop with
  | .configuration => BehindInterface mem s.p → s.p < e → mem (s.p + 1) = USB_DT_INTERFACE
  | .leading _ => 9 < e ∧ (BehindInterface mem s.p → s.p < e ∧ mem (s.p + 1) = USB_DT_INTERFACE)
  | .descriptors _ _ => s.p < e → BehindInterface mem s.p
  | .done => True

theorem placed_init : Placed mem e (init mem) := fun hb => absurd hb not_behindInterface_nine

variable (uninit) in
theorem placed_step (h : Positive mem e) (hc : OnChain mem s.p) (hs : Placed mem e s) :
    Placed mem e (step mem uninit e s) := by
  rcases hl : s.loop with _ | g | ⟨i, ep⟩ | _
  · simp only [Placed, hl] at hs
    by_cases hp : s.p < e
    · rw [step_enter hl hp]
      have := hc.nine_le
      exact ⟨by omega, fun hb => ⟨hp, hs hb hp⟩⟩
    · rw [step_leave hl hp]
      trivial
  · simp only [Placed, hl] at hs
    by_cases hit : mem (s.p + 1) ≠ USB_DT_INTERFACE ∧ s.p < e
    · rw [step_leading hl hit.1 hit.2]
      refine ⟨hs.1, fun hb => ?_⟩
      -- The descriptor just collected is no interface descriptor, and none was in front of it.
      obtain ⟨q, hq, hlt, ht⟩ := hb
      have hle : q ≤ s.p := (hc.le_or_le hq).resolve_right (Nat.not_le_of_lt hlt)
      rcases Nat.lt_or_eq_of_le hle with hlt' | rfl
      · exact absurd (hs.2 ⟨q, hq, hlt', ht⟩).2 hit.1
      · exact absurd ht hit.1
    · rw [step_interface hl hit]
      intro hp
      have hpe : s.p < e := Nat.lt_of_le_of_lt (Nat.le_add_right _ _) hp
      have ht : mem (s.p + 1) = USB_DT_INTERFACE := by
        by_contra hne
        exact hit ⟨hne, hpe⟩
      exact ⟨s.p, hc, h.lt hc hpe, ht⟩
  · simp only [Placed, hl] at hs
    by_cases hit : s.p < e ∧ mem (s.p + 1) ≠ USB_DT_INTERFACE
    · rw [step_descriptors hl hit.1 hit.2]
      exact fun _ => (hs hit.1).mono (Nat.le_add_right _ _)
    · rw [step_add hl hit]
      intro _ hp
      by_contra hne
      exact hit ⟨hp, hne⟩
  · rw [step_done hl]
    exact hs

variable (uninit) in
theorem placed_after (h : Positive mem e) (n : ℕ) : Placed mem e (after mem uninit e n) := by
  have hboth : OnChain mem (after mem uninit e n).p ∧ Placed mem e (after mem uninit e n) :=
    Function.Iterate.rec (fun s : Parser => OnChain mem s.p ∧ Placed mem e s)
      ⟨OnChain.start, placed_init⟩
      (fun s hs => ⟨onChain_step uninit e hs.1, placed_step uninit h hs.1 hs.2⟩) n
  exact hboth.2

/-! ## What is read at an offset -/

theorem mem_reads_leading {g : GenericDescriptors} (hl : s.loop = .leading g) {a : ℕ} :
    a ∈ reads mem e s ↔ a = s.p + 1 ∨ a = s.p ∨ s.p ≤ a ∧ a < s.p + (mem s.p).toNat := by
  simp [reads, hl, List.mem_range'_1]

theorem mem_reads_descriptors {i : Interface} {ep : ℕ} (hl : s.loop = .descriptors i ep)
    (hp : s.p < e) (ht : mem (s.p + 1) ≠ USB_DT_INTERFACE) {a : ℕ} :
    a ∈ reads mem e s ↔ a = s.p + 1 ∨ a = s.p ∨ s.p ≤ a ∧
      a < s.p + (if mem (s.p + 1) = USB_DT_ENDPOINT then 7 else (mem s.p).toNat) := by
  simp [reads, hl, hp, ht, List.mem_range'_1]

theorem copy_le {p n len : ℕ} (hn : 0 < n) (h : ∀ a, p ≤ a ∧ a < p + n → a < len) : p + n ≤ len := by
  have := h (p + n - 1) (by omega)
  omega

variable (uninit) in
theorem visited_interface {p : ℕ} (h : OnChain mem p) (hp : p < e)
    (ht : mem (p + 1) = USB_DT_INTERFACE) :
    ∃ n g, (after mem uninit e n).loop = .leading g ∧ (after mem uninit e n).p = p := by
  obtain ⟨n, hn, rfl⟩ := visited uninit h hp
  rcases hl : (after mem uninit e n).loop with _ | g | ⟨i, ep⟩ | _
  · simp [InInterface, hl] at hn
  · exact ⟨n, g, hl, rfl⟩
  · refine ⟨n + 2, .none, ?_⟩
    rw [after_succ, after_succ, step_step_add hl hp ht]
    exact ⟨rfl, rfl⟩
  · simp [InInterface, hl] at hn

/-- Without an interface descriptor below the end, the leading loop runs up to the end. -/
theorem leading_runs (h : Positive mem e) (hno : ∀ q, OnChain mem q → q < e →
    mem (q + 1) ≠ USB_DT_INTERFACE) {n : ℕ} {g : GenericDescriptors}
    (hl : (after mem uninit e n).loop = .leading g) :
    ∃ m g', (after mem uninit e m).loop = .leading g' ∧ e ≤ (after mem uninit e m).p := by
  induction hk : e - (after mem uninit e n).p using Nat.strongRecOn generalizing n g with
  | ind k ih =>
    by_cases hp : (after mem uninit e n).p < e
    · have hc : OnChain mem (after mem uninit e n).p := onChain_after n
      have hlt := h.lt hc hp
      have hstep : after mem uninit e (n + 1) = _ :=
        (after_succ n).trans (step_leading hl (hno _ hc hp) hp)
      refine ih _ ?_ (congrArg Parser.loop hstep) rfl
      rw [hstep]
      show e - (_ + _) < k
      omega
    · exact ⟨n, g, hl, by omega⟩

/-! ## The bounds -/

theorem wellCut_of_readsInside (h : Positive mem e) (hin : ReadsInside mem uninit e) :
    WellCut mem e where
  typed p hc hp := by
    obtain ⟨n, hn, rfl⟩ := visited uninit hc hp
    apply hin.2 n
    rcases hl : (after mem uninit e n).loop with _ | g | ⟨i, ep⟩ | _
    · simp [InInterface, hl] at hn
    · exact (mem_reads_leading hl).2 (.inl rfl)
    · by_cases ht : mem ((after mem uninit e n).p + 1) = USB_DT_INTERFACE
      · simp [reads, hl, hp, ht]
      · exact (mem_reads_descriptors hl hp ht).2 (.inl rfl)
    · simp [InInterface, hl] at hn
  endpoint p hc hp ht hb := by
    have hne : mem (p + 1) ≠ USB_DT_INTERFACE := by rw [ht]; decide
    obtain ⟨n, hn, rfl⟩ := visited uninit hc hp
    have hplaced := placed_after uninit h n
    rcases hl : (after mem uninit e n).loop with _ | g | ⟨i, ep⟩ | _
    · simp [InInterface, hl] at hn
    · simp only [Placed, hl] at hplaced
      exact absurd (hplaced.2 hb).2 hne
    · refine copy_le (by omega) fun a ha => hin.2 n a ?_
      rw [mem_reads_descriptors hl hp hne, if_pos ht]
      exact .inr (.inr ha)
    · simp [InInterface, hl] at hn
  other p hc hp hother := by
    have hpos : 0 < (mem p).toNat := by have := h.lt hc hp; omega
    by_cases ht : mem (p + 1) = USB_DT_INTERFACE
    · obtain ⟨n, g, hl, rfl⟩ := visited_interface uninit hc hp ht
      exact copy_le hpos fun a ha => hin.2 n a ((mem_reads_leading hl).2 (.inr (.inr ha)))
    · obtain ⟨n, hn, rfl⟩ := visited uninit hc hp
      have hplaced := placed_after uninit h n
      rcases hl : (after mem uninit e n).loop with _ | g | ⟨i, ep⟩ | _
      · simp [InInterface, hl] at hn
      · exact copy_le hpos fun a ha => hin.2 n a ((mem_reads_leading hl).2 (.inr (.inr ha)))
      · simp only [Placed, hl] at hplaced
        have hep : mem ((after mem uninit e n).p + 1) ≠ USB_DT_ENDPOINT :=
          fun hep => hother ⟨hep, hplaced hp⟩
        refine copy_le hpos fun a ha => hin.2 n a ?_
        rw [mem_reads_descriptors hl hp ht, if_neg hep]
        exact .inr (.inr ha)
      · simp [InInterface, hl] at hn
  interface h9 := by
    by_contra hcon
    have hno : ∀ q, OnChain mem q → q < e → mem (q + 1) ≠ USB_DT_INTERFACE :=
      fun q hq hlt ht => hcon ⟨q, hq, hlt, ht⟩
    have hfirst : (after mem uninit e 1).loop = .leading .none := by
      rw [after_succ, step_enter rfl h9]
    obtain ⟨m, g, hl, hle⟩ := leading_runs h hno hfirst
    have := hin.2 m _ ((mem_reads_leading hl).2 (.inl rfl))
    omega

theorem readsInside_of_wellCut (h9 : 9 ≤ e) (h : Positive mem e) (hcut : WellCut mem e) :
    ReadsInside mem uninit e := by
  refine ⟨fun a ha => ?_, fun n a ha => ?_⟩
  · have := (List.mem_range'_1.1 ha).2
    omega
  · have hc : OnChain mem (after mem uninit e n).p := onChain_after n
    have hplaced := placed_after uninit h n
    rcases hl : (after mem uninit e n).loop with _ | g | ⟨i, ep⟩ | _
    · simp [reads, hl] at ha
    · simp only [Placed, hl] at hplaced
      -- The loop cannot reach the end: an interface descriptor in front of it would stop it.
      have hp : (after mem uninit e n).p < e := by
        by_contra hge
        obtain ⟨q, hq, hlt, ht⟩ := hcut.interface hplaced.1
        exact hge (hplaced.2 ⟨q, hq, by omega, ht⟩).1
      have hother := hcut.other _ hc hp fun hb => by
        rw [(hplaced.2 hb.2).2] at hb
        exact absurd hb.1 (by decide)
      have htyped := hcut.typed _ hc hp
      rcases (mem_reads_leading hl).1 ha with rfl | rfl | hrange <;> omega
    · simp only [Placed, hl] at hplaced
      by_cases hp : (after mem uninit e n).p < e
      · have htyped := hcut.typed _ hc hp
        by_cases ht : mem ((after mem uninit e n).p + 1) = USB_DT_INTERFACE
        · simp only [reads, hl, if_pos hp, if_pos ht, List.mem_singleton] at ha
          omega
        · rw [mem_reads_descriptors hl hp ht] at ha
          by_cases hep : mem ((after mem uninit e n).p + 1) = USB_DT_ENDPOINT
          · have hseven := hcut.endpoint _ hc hp hep (hplaced hp)
            rw [if_pos hep] at ha
            omega
          · have hother := hcut.other _ hc hp fun hb => hep hb.1
            rw [if_neg hep] at ha
            omega
      · simp [reads, hl, hp] at ha
    · simp [reads, hl] at ha

/-- **Bounds.**  For a buffer of at least 9 bytes without a zero length byte on the chain, every byte
the constructors read lies inside it exactly when it cuts no descriptor and holds an interface
descriptor. -/
theorem readsInside_iff (buf : List Byte) (beyond : Memory) (uninit : ℕ → Memory)
    (h9 : 9 ≤ buf.length) (hpos : Positive (Memory.ofBuffer buf beyond) buf.length) :
    ReadsInside (Memory.ofBuffer buf beyond) uninit buf.length ↔
      WellCut (Memory.ofBuffer buf beyond) buf.length :=
  ⟨wellCut_of_readsInside hpos, readsInside_of_wellCut h9 hpos⟩

/-- A header and one interface descriptor without endpoints. -/
def oneInterface : List Byte := [9, 2, 18, 0, 1, 1, 0, 0x80, 50, 9, 4, 0, 0, 0, 0, 0, 0, 0]

theorem eq_nine_of_onChain_oneInterface {p : ℕ}
    (hc : OnChain (Memory.ofBuffer oneInterface fun _ => 0) p) (hp : p < oneInterface.length) :
    p = 9 := by
  have hle := OnChain.le_or_le .start hc
  have hnine : (Memory.ofBuffer oneInterface (fun _ => 0) 9).toNat = 9 := by decide
  have hlen : oneInterface.length = 18 := rfl
  have := hc.nine_le
  omega

theorem readsInside_iff_oneInterface :
    ReadsInside (Memory.ofBuffer oneInterface fun _ => 0) (fun _ _ => 0) oneInterface.length :=
  (readsInside_iff oneInterface (fun _ => 0) (fun _ _ => 0) (by decide) (by
    intro p hc hp
    obtain rfl := eq_nine_of_onChain_oneInterface hc hp
    decide)).2
  { typed := by
      intro p hc hp
      obtain rfl := eq_nine_of_onChain_oneInterface hc hp
      decide
    endpoint := by
      intro p hc hp ht _
      obtain rfl := eq_nine_of_onChain_oneInterface hc hp
      exact absurd ht (by decide)
    other := by
      intro p hc hp _
      obtain rfl := eq_nine_of_onChain_oneInterface hc hp
      decide
    interface := fun _ => ⟨9, .start, by decide, by decide⟩ }

/-- A header and a class descriptor, both whole, and no interface descriptor. -/
def noInterface : List Byte := [9, 2, 11, 0, 0, 1, 0, 0x80, 50, 2, 0x24]

/-- The cursor reaches the end, and the type byte behind it is read before the test that stops. -/
theorem readsInside_not_noInterface :
    ¬ ∀ (buf : List Byte) (beyond : Memory) (uninit : ℕ → Memory), 9 ≤ buf.length →
      Positive (Memory.ofBuffer buf beyond) buf.length →
        ReadsInside (Memory.ofBuffer buf beyond) uninit buf.length := by
  intro h
  have hpos : Positive (Memory.ofBuffer noInterface fun _ => 0) noInterface.length := by
    intro p hc hp
    have hle := OnChain.le_or_le .start hc
    have htwo : (Memory.ofBuffer noInterface (fun _ => 0) 9).toNat = 2 := by decide
    have hlen : noInterface.length = 11 := rfl
    have := hc.nine_le
    obtain rfl : p = 9 := by omega
    decide
  have hread := (h noInterface (fun _ => 0) (fun _ _ => 0) (by decide) hpos).2 2 12 (by decide)
  exact absurd hread (by decide)

end Parser

end UsbProxy
