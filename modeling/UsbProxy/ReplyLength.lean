import UsbProxy.Library.Runs
import UsbProxy.SetupRelay

/-!
# The length of a control reply

A device-to-host round reads into a new block of the requested length and then takes the reply's
`wLength` from the local `length`, which a failed transfer leaves as an earlier round left it.  The
in-phase filters and the host get a packet whose `wLength` stays inside its block exactly when no
failed request is shorter than that stale value.
-/

namespace UsbProxy

namespace SetupPacket

/-- The size of the block at `data`, nothing for a null pointer. -/
def dataSize (s : SetupPacket) : ℕ := (s.data.getD []).length

/-- Reading `wLength` bytes at `data` stays inside the block. -/
def Bounded (s : SetupPacket) : Prop := s.ctrlReq.wLength.toNat ≤ s.dataSize

instance (s : SetupPacket) : Decidable s.Bounded := inferInstanceAs (Decidable (_ ≤ _))

end SetupPacket

/-! ## Filters -/

/-- A callback of the plugin `PacketFilter_Callback`, which is code of its user, hands on in the
in-phase no length beyond the block if it got none. -/
def Plugin.KeepsBound (f : Plugin) : Prop :=
  ∀ c cb, f.cls = .callback c → c.cbSetup = some cb →
    ∀ seen (s : SetupPacket), s.Bounded → (cb seen s false).Bounded

section Filters

variable {f : Plugin} {fs : List Plugin} {s : SetupPacket} {directionOut : Bool}

theorem bounded_filterSetupPacket (hf : f.KeepsBound) (hs : s.Bounded) :
    (f.filterSetupPacket s false).2.Bounded := by
  obtain ⟨base, cls⟩ := f
  cases cls with
  | callback c =>
    cases hcb : c.cbSetup with
    | none => simpa [Plugin.filterSetupPacket, Callback.filterSetupPacket, hcb] using hs
    | some cb =>
      simpa [Plugin.filterSetupPacket, Callback.filterSetupPacket, hcb] using
        hf c cb rfl hcb c.seenSetup s hs
  | power => simpa [Plugin.filterSetupPacket, powerSetup] using hs
  | pcapLogger | streamLog | keyLogger | massStorage | rot13 | udphid | zeroMQ => exact hs

theorem keepsBound_filterSetupPacket (hf : f.KeepsBound) :
    (f.filterSetupPacket s directionOut).1.KeepsBound := by
  obtain ⟨base, cls⟩ := f
  cases cls with
  | callback c =>
    rintro _ cb ⟨⟩ hcb
    exact hf c cb rfl ((c.cbSetup_filterSetupPacket s directionOut).symm.trans hcb)
  | pcapLogger | streamLog => rintro _ _ ⟨⟩
  | power | keyLogger | massStorage | rot13 | udphid | zeroMQ => exact hf

theorem keepsBound_filterOutLoop (hfs : ∀ f ∈ fs, f.KeepsBound) (s : SetupPacket) :
    ∀ f ∈ (filterOutLoop fs s).1, f.KeepsBound := by
  induction fs generalizing s with
  | nil => exact hfs
  | cons f fs ih =>
    obtain ⟨hf, hfs'⟩ := List.forall_mem_cons.1 hfs
    unfold filterOutLoop
    split_ifs with ho ht
    · exact List.forall_mem_cons.2 ⟨keepsBound_filterSetupPacket hf, ih hfs' _⟩
    · exact List.forall_mem_cons.2 ⟨hf, ih hfs' _⟩
    · exact hfs

theorem keepsBound_filterInLoop (hfs : ∀ f ∈ fs, f.KeepsBound) (s : SetupPacket) :
    ∀ f ∈ (filterInLoop fs s).1, f.KeepsBound := by
  induction fs generalizing s with
  | nil => exact hfs
  | cons f fs ih =>
    obtain ⟨hf, hfs'⟩ := List.forall_mem_cons.1 hfs
    unfold filterInLoop
    split_ifs with hi ht
    · exact List.forall_mem_cons.2 ⟨keepsBound_filterSetupPacket hf, ih hfs' _⟩
    · exact List.forall_mem_cons.2 ⟨hf, ih hfs' _⟩
    · exact hfs

/-- Every in-phase call of the loop sees a bounded packet and hands one on. -/
theorem bounded_filterInLoop (hfs : ∀ f ∈ fs, f.KeepsBound) (hs : s.Bounded) :
    ∀ p ∈ (filterInLoop fs s).2.2 ++ [(filterInLoop fs s).2.1], p.Bounded := by
  induction fs generalizing s with
  | nil => exact List.forall_mem_cons.2 ⟨hs, by simp⟩
  | cons f fs ih =>
    obtain ⟨hf, hfs'⟩ := List.forall_mem_cons.1 hfs
    unfold filterInLoop
    split_ifs with hi ht
    · exact List.forall_mem_cons.2 ⟨hs, ih hfs' (bounded_filterSetupPacket hf hs)⟩
    · exact ih hfs' hs
    · exact List.forall_mem_cons.2 ⟨hs, by simp⟩

/-- The first in-phase call sees the packet as the transfer left it, and without a call that packet
is the one handed on. -/
theorem bounded_of_filterInLoop
    (h : ∀ p ∈ (filterInLoop fs s).2.2 ++ [(filterInLoop fs s).2.1], p.Bounded) : s.Bounded := by
  induction fs with
  | nil => exact h s (by simp [filterInLoop])
  | cons f fs ih =>
    unfold filterInLoop at h
    split_ifs at h with hi ht
    · exact h s (.head _)
    · exact ih h
    · exact h s (by simp)

theorem keepsBound_outPhase (hfs : ∀ f ∈ fs, f.KeepsBound) (s : SetupPacket) :
    ∀ f ∈ (outPhase fs s).1, f.KeepsBound := by
  unfold outPhase
  split_ifs
  · exact keepsBound_filterOutLoop hfs s
  · exact hfs

theorem keepsBound_inPhase (j : ℕ) (hfs : ∀ f ∈ fs, f.KeepsBound) (s : SetupPacket) :
    ∀ f ∈ (inPhase j fs s).1, f.KeepsBound := by
  unfold inPhase
  split_ifs
  · intro f hf
    rcases List.mem_append.1 hf with hf | hf
    · exact hfs f (List.mem_of_mem_take hf)
    · exact keepsBound_filterInLoop (fun g hg => hfs g (List.mem_of_mem_drop hg)) s f hf
  · exact hfs

/-- What the in-phase shows is bounded exactly when what the transfer left is. -/
theorem bounded_inPhase_iff {j : ℕ} (hfs : ∀ f ∈ fs, f.KeepsBound) :
    (∀ p ∈ (inPhase j fs s).2.2 ++ [(inPhase j fs s).2.1], p.Bounded) ↔ s.Bounded := by
  unfold inPhase
  split_ifs
  · exact ⟨bounded_of_filterInLoop,
      bounded_filterInLoop fun g hg => hfs g (List.mem_of_mem_drop hg)⟩
  · simp

end Filters

/-! ## Rounds -/

/-- The packets that in-phase filters and the reply queue get. -/
def SetupReport.shown (rep : SetupReport) : List SetupPacket := rep.inCalls ++ rep.reply.toList

namespace SetupWriter

/-- A round from the writer's side. -/
def round (w : SetupWriter) (i : SetupPacket × Outcome) : SetupReport := relayWriteSetup w i.1 i.2

def step (w : SetupWriter) (i : SetupPacket × Outcome) : Option SetupWriter :=
  if (w.round i).ending = .returns then some (w.round i).writer else none

/-- A device-to-host request the device fails is not shorter than the length left from earlier
rounds, as far as `wLength` takes it over. -/
def Covered (w : SetupWriter) (i : SetupPacket × Outcome) : Prop :=
  ∀ r, w.request i.1 = some r → r.deviceToHost = true → i.2 = .failure →
    (UInt16.ofInt w.length).toNat ≤ r.wLength.toNat

variable {w w' : SetupWriter} {i : SetupPacket × Outcome}

theorem toNat_ofInt_natCast_le (n : ℕ) : (UInt16.ofInt n).toNat ≤ n := by
  unfold UInt16.ofInt
  have h : ((n : ℤ) % 2 ^ 16).toNat = n % 2 ^ 16 := by omega
  rw [h, UInt16.toNat_ofNat']
  omega

/-- The packet behind a device-to-host transfer is bounded after a success, and after a failure when
the length left over is. -/
theorem bounded_readFromDevice {s : SetupPacket} {length : ℤ} {o : Outcome} :
    (readFromDevice s length o).Bounded ↔
      (o = .failure → (UInt16.ofInt length).toNat ≤ s.ctrlReq.wLength.toNat) := by
  have hsize : (readFromDevice s length o).dataSize = s.ctrlReq.wLength.toNat := List.takeD_length ..
  unfold SetupPacket.Bounded
  rw [hsize]
  cases o with
  | success bytes =>
    refine iff_of_true ?_ (by simp)
    exact Nat.le_trans (toNat_ofInt_natCast_le _) (List.length_take_le ..)
  | failure => exact ⟨fun h _ => h, fun h => h rfl⟩

theorem bounded_writeToDevice (s : SetupPacket) (o : Outcome) : (writeToDevice s o).Bounded :=
  Nat.zero_le _

/-- What a round shows is bounded exactly when the round is covered. -/
theorem shown_iff_covered (hfs : ∀ f ∈ w.filters, f.KeepsBound) :
    (∀ p ∈ (w.round i).shown, p.Bounded) ↔ w.Covered i := by
  have hout := keepsBound_outPhase hfs i.1
  have hround := relayWriteSetup_round w i.1 i.2
  unfold round SetupReport.shown Covered
  generalize relayWriteSetup w i.1 i.2 = rep at hround
  cases hround with
  | discarded h => exact iff_of_true (by simp) (by simp [h])
  | @fromDevice r h hr =>
    apply (bounded_inPhase_iff hout).trans
    rw [bounded_readFromDevice, (request_eq_some.1 h).2]
    constructor
    · intro hb r' hr' _ hf
      rw [← Option.some.inj (h.symm.trans hr')]
      exact hb hf
    · exact fun hb hf => hb r h hr hf
  | @toDevice r h hr hend =>
    refine iff_of_true ((bounded_inPhase_iff hout).2 (bounded_writeToDevice _ _)) ?_
    intro r' hr' hin
    cases Option.some.inj (h.symm.trans hr')
    cases hr.symm.trans hin
  | @ends r h hr hend =>
    refine iff_of_true (by simp) ?_
    intro r' hr' hin
    cases Option.some.inj (h.symm.trans hr')
    cases hr.symm.trans hin

theorem keepsBound_round (hfs : ∀ f ∈ w.filters, f.KeepsBound) :
    ∀ f ∈ (w.round i).writer.filters, f.KeepsBound := by
  have hout := keepsBound_outPhase hfs i.1
  have hround := relayWriteSetup_round w i.1 i.2
  unfold round
  generalize relayWriteSetup w i.1 i.2 = rep at hround
  cases hround with
  | discarded h => exact hout
  | fromDevice h hr => exact keepsBound_inPhase 0 hout _
  | toDevice h hr hend => exact keepsBound_inPhase _ hout _
  | ends h hr hend => exact hout

/-- **The length of the replies.**  In the rounds of a whole session, every packet an in-phase
filter or the reply queue gets has its `wLength` inside its data block if and only if no failed
device-to-host request is shorter than the length left over from the rounds before it. -/
theorem shown_bounded_iff (w : SetupWriter) (hfs : ∀ f ∈ w.filters, f.KeepsBound)
    (packets : List (SetupPacket × Outcome)) :
    (∀ rep ∈ Runs.outputs step round w packets, ∀ p ∈ rep.shown, p.Bounded) ↔
      Runs.Along step Covered w packets := by
  refine Runs.outputs_forall_iff (fun w => ∀ f ∈ w.filters, f.KeepsBound) (fun v i v' h _ hv => ?_)
    (fun _ _ => shown_iff_covered) hfs packets
  unfold step at h
  split_ifs at h
  cases h
  exact keepsBound_round hv

/-- A writer with one plugin, whose callback lets every packet through. -/
def observed : SetupWriter where
  filters := [{
    base := .new
    cls := .callback { cb := none, cbSetup := some fun _ s _ => s, seen := [], seenSetup := [] } }]
  length := 0
  manager := .new .bare

/-- A request of 18 bytes that succeeds, then one that fails. -/
def failsLater : List (SetupPacket × Outcome) :=
  [(getDescriptor 18, .success (List.replicate 18 1)), (getDescriptor 18, .failure)]

/-- A request as long as the reply before it may fail. -/
theorem shown_bounded_iff_observed :
    Runs.Along step Covered observed failsLater ∧
      ∀ rep ∈ Runs.outputs step round observed failsLater, ∀ p ∈ rep.shown, p.Bounded := by
  have hkeeps : ∀ f ∈ observed.filters, f.KeepsBound := by
    rintro f (_ | ⟨_, ⟨⟩⟩) c cb ⟨⟩ ⟨⟩ seen s hs
    exact hs
  have hcovered : Runs.Along step Covered observed failsLater := by
    refine ⟨?_, fun w hw => ⟨?_, fun _ _ => trivial⟩⟩
    · rintro r - - ⟨⟩
    · cases hw
      rintro r ⟨⟩ - -
      decide
  exact ⟨hcovered, (shown_bounded_iff observed hkeeps failsLater).2 hcovered⟩

/-- A reply of 18 bytes, then a failed request for 8: its reply says 18 over a block of 8. -/
theorem not_bounded_stale :
    ¬ ∀ rep ∈ Runs.outputs step round { observed with filters := [] }
      [(getDescriptor 18, .success (List.replicate 18 1)), (getDescriptor 8, .failure)],
      ∀ p ∈ rep.shown, p.Bounded := by
  intro h
  have hlast := h _ (.tail _ (.head _)) _ (.head _)
  exact absurd hlast (by decide)

end SetupWriter

end UsbProxy
