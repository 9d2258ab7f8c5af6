import UsbProxy.Library.Counters
import UsbProxy.SetupRelay

/-!
# The two filter phases of a setup round

The filter loops of `relay_write_setup` share the index `j`, a byte.  Only a device-to-host transfer
sets it back between them, so behind a host-to-device one the second loop goes on where the first one
stopped.  `bothPhases_iff` says for which packets either phase comes to all filters.
-/

namespace UsbProxy

open Counters

/-! ## The loops -/

/-- What a filter loop works on, with the indices whose test was made and those that were called. -/
structure PhaseState where
  filters : List Plugin
  packet : SetupPacket
  tested : List ℕ
  called : List ℕ

/-- Before the first test of a loop. -/
def PhaseState.entry (filters : List Plugin) (packet : SetupPacket) : PhaseState :=
  { filters, packet, tested := [], called := [] }

/-- `s->filter_out` in the first loop, `s->filter_in` in the second. -/
def SetupPacket.phaseFlag (s : SetupPacket) (directionOut : Bool) : Bool :=
  if directionOut then s.filterOut else s.filterIn

namespace SetupPhases

/-- `if (filters[j]->test_setup_packet(s,..)) filters[j]->filter_setup_packet(s,..)`. -/
def body (directionOut : Bool) (j : ℕ) (st : PhaseState) : PhaseState :=
  match st.filters[j]? with
  | none => st
  | some f =>
    if f.base.testSetupPacket st.packet directionOut then
      let r := f.filterSetupPacket st.packet directionOut
      { filters := st.filters.set j r.1, packet := r.2, tested := st.tested ++ [j]
        called := st.called ++ [j] }
    else { st with tested := st.tested ++ [j] }

/-- A loop behind its `if (s->filter)`; the index is a byte. -/
def phase (directionOut : Bool) (fuel j : ℕ) (st : PhaseState) : Option (ℕ × PhaseState) :=
  if st.packet.filter then
    loop 256 st.filters.length (fun st => st.packet.phaseFlag directionOut) (body directionOut) fuel
      j st
  else some (j, st)

/-- The first phase of a round, and the second one before and after its loop if there is one. -/
structure Report where
  outPhase : PhaseState
  inPhase : Option (PhaseState × PhaseState)

/-- The second phase from `j` on, for the packet as the transfer left it. -/
def inPhaseFrom (fuel j : ℕ) (out : PhaseState) (s : SetupPacket) : Option Report :=
  (phase false fuel j (.entry out.filters s)).map fun r =>
    { outPhase := out, inPhase := some (.entry out.filters s, r.2) }

/-- What follows the first phase.  There is no second one for a packet that is not transmitted and
behind a `setConfig` that does not come back. -/
def secondPhase (w : SetupWriter) (o : Outcome) (first : ℕ × PhaseState) (fuel : ℕ) :
    Option Report :=
  let out := first.2
  let s := out.packet
  if !s.transmitOut || !s.transmit then some { outPhase := out, inPhase := none }
  else if s.ctrlReq.deviceToHost then inPhaseFrom fuel 0 out (readFromDevice s w.length o)
  else if (w.configure s.ctrlReq).2 = .returns then inPhaseFrom fuel first.1 out (writeToDevice s o)
  else some { outPhase := out, inPhase := none }

/-- The round of `relay_write_setup` for one packet, as far as the filters see it. -/
def relayPhases (w : SetupWriter) (packet : SetupPacket) (o : Outcome) (fuel : ℕ) : Option Report :=
  (phase true fuel 0 (.entry w.filters packet)).bind fun first => secondPhase w o first fuel

/-! ## What the phases are for -/

/-- The filters, counted from `k` on, that accept the packet as it comes to them. -/
def accepting (directionOut : Bool) : ℕ → List Plugin → SetupPacket → List ℕ
  | _, [], _ => []
  | k, f :: fs, s =>
    if f.base.testSetupPacket s directionOut then
      k :: accepting directionOut (k + 1) fs (f.filterSetupPacket s directionOut).2
    else accepting directionOut (k + 1) fs s

/-- Each of them once, and in order. -/
theorem sublist_accepting (directionOut : Bool) (k : ℕ) (fs : List Plugin) (s : SetupPacket) :
    (accepting directionOut k fs s).Sublist (List.range' k fs.length) := by
  induction fs generalizing k s with
  | nil => exact List.nil_sublist _
  | cons f fs ih =>
    unfold accepting
    rw [List.length_cons, List.range'_succ]
    split_ifs
    · exact (ih _ _).cons_cons _
    · exact (ih _ _).cons _

/-- In the second phase, if there is one, it is up to `filter_in` alone which of the `n` filters are
tried; if it is set those that accept the packet are called, each once and in order. -/
def Report.InPhaseRight (rep : Report) (filterIn : Bool) (n : ℕ) : Prop :=
  ∀ before after, rep.inPhase = some (before, after) →
    (filterIn = true → after.called = accepting false 0 before.filters before.packet) ∧
      after.tested = if filterIn then List.range n else []

/-- The round comes to its end, and both phases call the filters that accept the packet if their flag
is set. -/
def BothPhases (w : SetupWriter) (packet : SetupPacket) (o : Outcome) : Prop :=
  ∃ fuel rep, relayPhases w packet o fuel = some rep ∧
    (packet.filterOut = true → rep.outPhase.called = accepting true 0 w.filters packet) ∧
    rep.InPhaseRight packet.filterIn w.filters.length

/-- No loop with its flag set has 256 filters or more, and behind a host-to-device transfer there is at
most one such loop, unless there is no filter. -/
def Covers (w : SetupWriter) (packet : SetupPacket) : Prop :=
  (packet.filterOut = true → w.filters.length < 256) ∧
  ∀ r, w.request packet = some r → (w.configure r).2 = .returns → packet.filterIn = true →
    w.filters.length < 256 ∧
      (packet.filterOut = true → r.deviceToHost = false → w.filters = [])

end SetupPhases

/-! ## Filters and the flags -/

/-- The flags the phases look at. -/
def SetupPacket.flags (s : SetupPacket) : Bool × Bool × Bool := (s.filter, s.filterOut, s.filterIn)

theorem phaseFlag_of_flags {s t : SetupPacket} {d : Bool} (h : s.flags = t.flags) :
    s.phaseFlag d = t.phaseFlag d := by
  simp only [SetupPacket.flags, Prod.mk.injEq] at h
  unfold SetupPacket.phaseFlag
  rw [h.2.1, h.2.2]

/-- The function of a `PacketFilter_Callback`, which is code of its user. -/
def Plugin.cbSetup (f : Plugin) :
    Option (List (SetupPacket × Bool) → SetupPacket → Bool → SetupPacket) :=
  match f.cls with
  | .callback c => c.cbSetup
  | _ => none

/-- A filter that does not change the packet's flags; only a callback could. -/
def Plugin.KeepsFlags (f : Plugin) : Prop :=
  ∀ cb, f.cbSetup = some cb → ∀ seen s directionOut, (cb seen s directionOut).flags = s.flags

section Filters

variable {f : Plugin} {fs pre : List Plugin} {s : SetupPacket} {d : Bool}

theorem cbSetup_filterSetupPacket (f : Plugin) (s : SetupPacket) (d : Bool) :
    (f.filterSetupPacket s d).1.cbSetup = f.cbSetup := by
  obtain ⟨base, cls⟩ := f
  cases cls with
  | callback c => exact c.cbSetup_filterSetupPacket s d
  | _ => rfl

theorem keepsFlags_filterSetupPacket (hf : f.KeepsFlags) :
    (f.filterSetupPacket s d).1.KeepsFlags := by
  unfold Plugin.KeepsFlags
  rw [cbSetup_filterSetupPacket]
  exact hf

theorem flags_filterSetupPacket (hf : f.KeepsFlags) :
    (f.filterSetupPacket s d).2.flags = s.flags := by
  obtain ⟨base, cls⟩ := f
  cases cls with
  | callback c =>
    cases h : c.cbSetup with
    | none => simp [Plugin.filterSetupPacket, Callback.filterSetupPacket, h]
    | some cb =>
      simpa [Plugin.filterSetupPacket, Callback.filterSetupPacket, h] using
        hf cb h c.seenSetup s d
  | power =>
    show (powerSetup s d).flags = s.flags
    unfold powerSetup
    split_ifs <;> rfl
  | _ => rfl

end Filters

namespace SetupPhases

/-! ## The loop over a list -/

/-- The loop over the plugins from `k` on. -/
def visit (d : Bool) : ℕ → List Plugin → SetupPacket → PhaseState
  | _, [], s => .entry [] s
  | k, f :: fs, s =>
    if s.phaseFlag d then
      if f.base.testSetupPacket s d then
        let r := f.filterSetupPacket s d
        let q := visit d (k + 1) fs r.2
        { filters := r.1 :: q.filters, packet := q.packet, tested := k :: q.tested
          called := k :: q.called }
      else
        let q := visit d (k + 1) fs s
        { q with filters := f :: q.filters, tested := k :: q.tested }
    else .entry (f :: fs) s

section Visit

variable {f : Plugin} {fs pre : List Plugin} {s : SetupPacket} {d : Bool}

theorem body_append (t c : List ℕ) : body d pre.length ⟨pre ++ f :: fs, s, t, c⟩ =
    if f.base.testSetupPacket s d then
      ⟨pre ++ (f.filterSetupPacket s d).1 :: fs, (f.filterSetupPacket s d).2, t ++ [pre.length],
        c ++ [pre.length]⟩
    else ⟨pre ++ f :: fs, s, t ++ [pre.length], c⟩ := by
  have hget : (pre ++ f :: fs)[pre.length]? = some f := by simp
  have hset : ∀ g, (pre ++ f :: fs).set pre.length g = pre ++ g :: fs := by simp
  simp only [body, hget, hset]

/-- The pass of a loop is the visit of the plugins it has to go. -/
theorem pass_append (pre fs : List Plugin) (s : SetupPacket) (t c : List ℕ) :
    pass (fun st => st.packet.phaseFlag d) (body d) fs.length pre.length ⟨pre ++ fs, s, t, c⟩ =
      (pre.length + (visit d pre.length fs s).tested.length,
        { filters := pre ++ (visit d pre.length fs s).filters
          packet := (visit d pre.length fs s).packet
          tested := t ++ (visit d pre.length fs s).tested
          called := c ++ (visit d pre.length fs s).called }) := by
  induction fs generalizing pre s t c with
  | nil => simp [Counters.pass, visit, PhaseState.entry]
  | cons f fs ih =>
    rw [List.length_cons, pass_succ]
    by_cases hgo : s.phaseFlag d = true
    · rw [if_pos hgo, body_append]
      by_cases ht : f.base.testSetupPacket s d = true
      · have h := ih (pre ++ [(f.filterSetupPacket s d).1]) (f.filterSetupPacket s d).2
          (t ++ [pre.length]) (c ++ [pre.length])
        rw [List.append_assoc, List.length_append, List.length_singleton] at h
        rw [if_pos ht]
        refine h.trans ?_
        simp [visit, hgo, ht, Nat.add_assoc, Nat.add_comm 1]
      · have h := ih (pre ++ [f]) s (t ++ [pre.length]) c
        rw [List.append_assoc, List.length_append, List.length_singleton] at h
        rw [if_neg ht]
        refine h.trans ?_
        simp [visit, hgo, ht, Nat.add_assoc, Nat.add_comm 1]
    · rw [if_neg hgo]
      simp [visit, hgo, PhaseState.entry]

/-- The loops of `relayWriteSetup` are these. -/
theorem visit_out (k : ℕ) (fs : List Plugin) (s : SetupPacket) :
    (visit true k fs s).filters = (filterOutLoop fs s).1 ∧
      (visit true k fs s).packet = (filterOutLoop fs s).2.1 ∧
      (visit true k fs s).tested.length = (filterOutLoop fs s).2.2 := by
  induction fs generalizing k s with
  | nil => exact ⟨rfl, rfl, rfl⟩
  | cons f fs ih =>
    have hflag : s.phaseFlag true = s.filterOut := rfl
    cases hgo : s.filterOut with
    | false => simp [visit, filterOutLoop, PhaseState.entry, hflag, hgo]
    | true =>
      cases ht : f.base.testSetupPacket s true <;>
        simp [visit, filterOutLoop, hflag, hgo, ht, ih]

theorem visit_in (k : ℕ) (fs : List Plugin) (s : SetupPacket) :
    (visit false k fs s).filters = (filterInLoop fs s).1 ∧
      (visit false k fs s).packet = (filterInLoop fs s).2.1 := by
  induction fs generalizing k s with
  | nil => exact ⟨rfl, rfl⟩
  | cons f fs ih =>
    have hflag : s.phaseFlag false = s.filterIn := rfl
    cases hgo : s.filterIn with
    | false => simp [visit, filterInLoop, PhaseState.entry, hflag, hgo]
    | true =>
      cases ht : f.base.testSetupPacket s false <;>
        simp [visit, filterInLoop, hflag, hgo, ht, ih]

/-- With its flag set, and filters that leave it so, a visit tries all filters. -/
theorem visit_of_flag (hfs : ∀ f ∈ fs, f.KeepsFlags) (hgo : s.phaseFlag d = true) (k : ℕ) :
    (visit d k fs s).tested = List.range' k fs.length ∧
      (visit d k fs s).called = accepting d k fs s := by
  induction fs generalizing k s with
  | nil => exact ⟨rfl, rfl⟩
  | cons f fs ih =>
    obtain ⟨hf, hfs'⟩ := List.forall_mem_cons.1 hfs
    unfold visit accepting
    rw [if_pos hgo]
    split_ifs with ht
    · have hgo' : (f.filterSetupPacket s d).2.phaseFlag d = true := by
        rw [phaseFlag_of_flags (flags_filterSetupPacket hf)]
        exact hgo
      obtain ⟨htested, hcalled⟩ := ih hfs' hgo' (k + 1)
      exact ⟨congrArg (k :: ·) htested, congrArg (k :: ·) hcalled⟩
    · obtain ⟨htested, hcalled⟩ := ih hfs' hgo (k + 1)
      exact ⟨congrArg (k :: ·) htested, hcalled⟩

theorem visit_of_not (hgo : s.phaseFlag d = false) (k : ℕ) : visit d k fs s = .entry fs s := by
  cases fs with
  | nil => rfl
  | cons f fs => exact if_neg (by rw [hgo]; exact Bool.false_ne_true)

theorem length_visit (d : Bool) (k : ℕ) (fs : List Plugin) (s : SetupPacket) :
    (visit d k fs s).filters.length = fs.length := by
  induction fs generalizing k s with
  | nil => rfl
  | cons f fs ih =>
    unfold visit
    split_ifs with hgo ht
    · exact congrArg (· + 1) (ih _ _)
    · exact congrArg (· + 1) (ih _ _)
    · rfl

/-- A visit keeps the flags, and the filters go on keeping them. -/
theorem keepsFlags_visit (hfs : ∀ f ∈ fs, f.KeepsFlags) (k : ℕ) (s : SetupPacket) :
    (visit d k fs s).packet.flags = s.flags ∧ ∀ f ∈ (visit d k fs s).filters, f.KeepsFlags := by
  induction fs generalizing k s with
  | nil => exact ⟨rfl, hfs⟩
  | cons f fs ih =>
    obtain ⟨hf, hfs'⟩ := List.forall_mem_cons.1 hfs
    unfold visit
    split_ifs with hgo ht
    · obtain ⟨hflags, hkeep⟩ := ih hfs' (k + 1) (f.filterSetupPacket s d).2
      exact ⟨hflags.trans (flags_filterSetupPacket hf),
        List.forall_mem_cons.2 ⟨keepsFlags_filterSetupPacket hf, hkeep⟩⟩
    · obtain ⟨hflags, hkeep⟩ := ih hfs' (k + 1) s
      exact ⟨hflags, List.forall_mem_cons.2 ⟨hf, hkeep⟩⟩
    · exact ⟨rfl, hfs⟩

end Visit

/-! ## A phase -/

section Phase

variable {f : Plugin} {fs : List Plugin} {s : SetupPacket} {d : Bool} {fuel j : ℕ}

theorem stable_phase (d : Bool) (j : ℕ) (st : PhaseState) : Stable fun fuel => phase d fuel j st := by
  unfold phase
  split_ifs
  · exact stable_loop j st
  · exact stable_const _

theorem phase_entry (hfilter : s.filter = true) : phase d fuel j (.entry fs s) =
    loop 256 fs.length (fun st => st.packet.phaseFlag d) (body d) fuel j (.entry fs s) :=
  if_pos hfilter

/-- A phase over fewer than 256 plugins, or one whose flag is not set. -/
theorem phase_eq_visit (hfilter : s.filter = true) (h : s.phaseFlag d = true → fs.length < 256) :
    phase d (fs.length + 1) 0 (.entry fs s) =
      some ((visit d 0 fs s).tested.length, visit d 0 fs s) := by
  rw [phase_entry hfilter]
  cases hgo : s.phaseFlag d with
  | false =>
    rw [visit_of_not hgo]
    have hno : ¬ (0 < fs.length ∧ (PhaseState.entry fs s).packet.phaseFlag d = true) := fun hc =>
      Bool.false_ne_true (hgo.symm.trans hc.2)
    rw [loop_succ, if_neg hno]
    rfl
  | true =>
    refine (loop_eq_pass (h hgo) (Nat.zero_le _) (Nat.lt_succ_self _)).trans ?_
    have hpass := pass_append (d := d) [] fs s [] []
    rw [List.length_nil, Nat.zero_add] at hpass
    exact congrArg some hpass

theorem phase_at_end (hfilter : s.filter = true) :
    phase d 1 fs.length (.entry fs s) = some (fs.length, .entry fs s) := by
  rw [phase_entry hfilter, loop_succ, if_neg fun hc => Nat.lt_irrefl _ hc.1]

/-- With 256 plugins and its flag set a phase goes round for ever. -/
theorem phase_eq_none (hfilter : s.filter = true) (hfs : ∀ f ∈ fs, f.KeepsFlags)
    (hgo : s.phaseFlag d = true) (h : 256 ≤ fs.length) (fuel : ℕ) :
    phase d fuel 0 (.entry fs s) = none := by
  rw [phase_entry hfilter]
  refine loop_eq_none h (Nat.zero_lt_succ 255)
    (fun st : PhaseState => st.packet.phaseFlag d = true ∧ ∀ f ∈ st.filters, f.KeepsFlags)
    (fun st hst => hst.1) ?_ ⟨hgo, hfs⟩ fuel
  rintro j st ⟨hflag, hkeep⟩
  unfold body
  cases hj : st.filters[j]? with
  | none => exact ⟨hflag, hkeep⟩
  | some f =>
    have hf : f.KeepsFlags := hkeep f (List.mem_of_getElem? hj)
    dsimp only
    split_ifs with ht
    · refine ⟨(phaseFlag_of_flags (flags_filterSetupPacket hf)).trans hflag, fun g hg => ?_⟩
      rcases List.mem_or_eq_of_mem_set hg with hg | rfl
      · exact hkeep g hg
      · exact keepsFlags_filterSetupPacket hf
    · exact ⟨hflag, hkeep⟩

end Phase

/-! ## The round -/

section Round

variable {w : SetupWriter} {packet s : SetupPacket} {o : Outcome} {out : PhaseState} {j fuel : ℕ}
  {first : ℕ × PhaseState} {rep : Report}

theorem stable_inPhaseFrom (j : ℕ) (out : PhaseState) (s : SetupPacket) :
    Stable fun fuel => inPhaseFrom fuel j out s := (stable_phase false j _).map _

theorem stable_secondPhase (w : SetupWriter) (o : Outcome) (first : ℕ × PhaseState) :
    Stable (secondPhase w o first) := by
  unfold secondPhase
  dsimp only
  split_ifs
  · exact stable_const _
  · exact stable_inPhaseFrom _ _ _
  · exact stable_inPhaseFrom _ _ _
  · exact stable_const _

theorem stable_relayPhases (w : SetupWriter) (packet : SetupPacket) (o : Outcome) :
    Stable (relayPhases w packet o) := (stable_phase true 0 _).bind (stable_secondPhase w o)

theorem outPhase_inPhaseFrom (h : inPhaseFrom fuel j out s = some rep) : rep.outPhase = out := by
  obtain ⟨r, -, rfl⟩ := Option.map_eq_some_iff.1 h
  rfl

theorem outPhase_secondPhase (h : secondPhase w o first fuel = some rep) :
    rep.outPhase = first.2 := by
  unfold secondPhase at h
  dsimp only at h
  split_ifs at h
  · rw [← Option.some.inj h]
  · exact outPhase_inPhaseFrom h
  · exact outPhase_inPhaseFrom h
  · rw [← Option.some.inj h]

theorem inPhaseFrom_eq {j' : ℕ} {st : PhaseState}
    (h : phase false fuel j (.entry out.filters s) = some (j', st)) :
    inPhaseFrom fuel j out s = some ⟨out, some (.entry out.filters s, st)⟩ := by
  rw [inPhaseFrom, h]
  rfl

/-- A second phase that starts with the first plugin. -/
theorem inPhase_start_iff (hfilter : s.filter = true) (hfs : ∀ f ∈ out.filters, f.KeepsFlags) :
    (∃ fuel rep, inPhaseFrom fuel 0 out s = some rep ∧
      rep.InPhaseRight s.filterIn out.filters.length) ↔
      (s.filterIn = true → out.filters.length < 256) := by
  constructor
  · rintro ⟨fuel, rep, hrep, -⟩ hin
    by_contra hlong
    have hnone := phase_eq_none (d := false) hfilter hfs hin (Nat.le_of_not_lt hlong) fuel
    rw [inPhaseFrom, hnone] at hrep
    cases hrep
  · intro h
    have hphase := phase_eq_visit (d := false) hfilter h
    refine ⟨out.filters.length + 1, _, inPhaseFrom_eq hphase, ?_⟩
    rintro before after ⟨rfl, rfl⟩
    cases hin : s.filterIn with
    | true =>
      obtain ⟨htested, hcalled⟩ := visit_of_flag (d := false) hfs hin 0
      exact ⟨fun _ => hcalled, htested.trans List.range_eq_range'.symm⟩
    | false =>
      have hvisit : visit false 0 out.filters s = .entry out.filters s :=
        visit_of_not (d := false) hin 0
      refine ⟨fun h => (Bool.false_ne_true h).elim, ?_⟩
      rw [hvisit]
      rfl

/-- A second phase that starts behind the last plugin. -/
theorem inPhase_end_iff (out : PhaseState) (hfilter : s.filter = true) :
    (∃ fuel rep, inPhaseFrom fuel out.filters.length out s = some rep ∧
      rep.InPhaseRight s.filterIn out.filters.length) ↔
      (s.filterIn = true → out.filters = []) := by
  have hphase : phase false 1 out.filters.length (.entry out.filters s) =
    some (out.filters.length, .entry out.filters s) := phase_at_end hfilter
  rw [(stable_inPhaseFrom out.filters.length out s).exists_iff (inPhaseFrom_eq hphase)]
  constructor
  · intro h hin
    have htested := (h _ _ rfl).2
    rw [hin, if_pos rfl] at htested
    exact List.length_eq_zero_iff.1 (List.range_eq_nil.1 htested.symm)
  · rintro h before after ⟨rfl, rfl⟩
    cases hin : s.filterIn with
    | true =>
      have hnil := h hin
      rw [hnil]
      exact ⟨fun _ => rfl, rfl⟩
    | false => exact ⟨fun h => (Bool.false_ne_true h).elim, rfl⟩

/-- The packet behind the first phase is the one `relayWriteSetup` goes on with. -/
theorem packet_visit (w : SetupWriter) (hfilter : packet.filter = true) :
    (visit true 0 w.filters packet).packet = w.outgoing packet := by
  unfold SetupWriter.outgoing outPhase
  rw [if_pos hfilter]
  exact (visit_out 0 w.filters packet).2.1

theorem secondPhase_discarded (hout : out.packet = w.outgoing packet)
    (h : w.request packet = none) : secondPhase w o (j, out) fuel = some ⟨out, none⟩ := by
  rw [request_eq_none, ← hout] at h
  exact if_pos h

theorem secondPhase_request {r : CtrlRequest} (hout : out.packet = w.outgoing packet)
    (h : w.request packet = some r) : secondPhase w o (j, out) fuel =
      if r.deviceToHost then inPhaseFrom fuel 0 out (readFromDevice out.packet w.length o)
      else if (w.configure r).2 = .returns then inPhaseFrom fuel j out (writeToDevice out.packet o)
      else some ⟨out, none⟩ := by
  obtain ⟨hflags, hr⟩ := request_eq_some.1 h
  rw [← hout] at hflags hr
  subst hr
  exact if_neg hflags

theorem configure_of_deviceToHost {r : CtrlRequest} (h : r.deviceToHost = true) :
    (w.configure r).2 = .returns := by
  have hno : ¬ r.setsConfiguration = true := fun hc =>
    Bool.false_ne_true ((CtrlRequest.deviceToHost_of_setsConfiguration hc).symm.trans h)
  unfold SetupWriter.configure
  rw [if_neg hno]

/-- What a first phase that ends leaves to the second one. -/
structure FirstPhase (w : SetupWriter) (packet : SetupPacket) (j : ℕ) (out : PhaseState) : Prop where
  outgoing : out.packet = w.outgoing packet
  filter : out.packet.filter = true
  filterIn : out.packet.filterIn = packet.filterIn
  keepsFlags : ∀ f ∈ out.filters, f.KeepsFlags
  length : out.filters.length = w.filters.length
  index : j = if packet.filterOut then w.filters.length else 0

theorem firstPhase_visit (hfilter : packet.filter = true) (hfs : ∀ f ∈ w.filters, f.KeepsFlags) :
    FirstPhase w packet (visit true 0 w.filters packet).tested.length
      (visit true 0 w.filters packet) := by
  obtain ⟨hflags, hkeep⟩ := keepsFlags_visit (d := true) hfs 0 packet
  simp only [SetupPacket.flags, Prod.mk.injEq] at hflags
  refine ⟨packet_visit w hfilter, hflags.1.trans hfilter, hflags.2.2, hkeep, length_visit .., ?_⟩
  cases hgo : packet.filterOut with
  | true =>
    rw [(visit_of_flag (d := true) hfs hgo 0).1, List.length_range']
    rfl
  | false =>
    rw [visit_of_not (d := true) hgo]
    rfl

/-- A second phase that goes on with the index of the first one. -/
theorem FirstPhase.goesOn_iff (h : FirstPhase w packet j out) (hfilter : s.filter = true)
    (hin : s.filterIn = packet.filterIn)
    (hout : packet.filterOut = true → w.filters.length < 256) :
    (∃ fuel rep, inPhaseFrom fuel j out s = some rep ∧
      rep.InPhaseRight packet.filterIn w.filters.length) ↔
    (packet.filterIn = true →
      w.filters.length < 256 ∧ (packet.filterOut = true → w.filters = [])) := by
  have hstart := inPhase_start_iff (s := s) hfilter h.keepsFlags
  have hend := inPhase_end_iff out (s := s) hfilter
  rw [hin, h.length] at hstart hend
  cases hgo : packet.filterOut with
  | true =>
    -- The index stands behind the last filter.
    have hj : j = w.filters.length := by rw [h.index, hgo, if_pos rfl]
    have hnil : out.filters = [] ↔ w.filters = [] := by
      rw [← List.length_eq_zero_iff, h.length, List.length_eq_zero_iff]
    rw [hj, hend, hnil]
    exact ⟨fun h hin => ⟨hout hgo, fun _ => h hin⟩, fun h hin => (h hin).2 rfl⟩
  | false =>
    have hj : j = 0 := by
      rw [h.index, hgo]
      rfl
    rw [hj, hstart]
    exact ⟨fun h hin => ⟨h hin, fun hc => (Bool.false_ne_true hc).elim⟩, fun h hin => (h hin).1⟩

/-- The second phase behind such a first one. -/
theorem FirstPhase.secondPhase_iff (h : FirstPhase w packet j out) (o : Outcome)
    (hout : packet.filterOut = true → w.filters.length < 256) :
    (∃ fuel rep, secondPhase w o (j, out) fuel = some rep ∧
      rep.InPhaseRight packet.filterIn w.filters.length) ↔
    ∀ r, w.request packet = some r → (w.configure r).2 = .returns → packet.filterIn = true →
      w.filters.length < 256 ∧
        (packet.filterOut = true → r.deviceToHost = false → w.filters = []) := by
  have hnone : ∀ n b, (⟨out, none⟩ : Report).InPhaseRight b n := by rintro n b _ _ ⟨⟩
  cases hr : w.request packet with
  | none =>
    refine iff_of_true ⟨0, _, secondPhase_discarded h.outgoing hr, hnone _ _⟩ ?_
    rintro _ ⟨⟩
  | some r =>
    simp only [secondPhase_request h.outgoing hr, Option.some.injEq, forall_eq']
    cases hd : r.deviceToHost with
    | true =>
      have hread :=
        inPhase_start_iff (s := readFromDevice out.packet w.length o) h.filter h.keepsFlags
      have hreadIn : (readFromDevice out.packet w.length o).filterIn = packet.filterIn := h.filterIn
      rw [hreadIn, h.length] at hread
      simp only [if_true]
      rw [hread]
      refine ⟨fun h _ hin => ⟨h hin, fun _ hc => absurd hc Bool.noConfusion⟩, fun h hin => ?_⟩
      exact (h (configure_of_deviceToHost hd) hin).1
    | false =>
      by_cases hret : (w.configure r).2 = .returns
      case neg =>
        refine iff_of_true ⟨0, ⟨out, none⟩, ?_, hnone _ _⟩ fun h => absurd h hret
        simp only [Bool.false_eq_true, if_false, if_neg hret]
      have hwrite := h.goesOn_iff (s := writeToDevice out.packet o) h.filter h.filterIn hout
      simp only [Bool.false_eq_true, if_false, if_pos hret]
      rw [hwrite]
      simp only [hret, true_implies]

/-- **The two phases.**  Both call the filters that accept the packet, and the second one comes to all
filters or to none by `filter_in` alone, exactly when no loop wraps its index and no host-to-device
transfer lies between two loops. -/
theorem bothPhases_iff (w : SetupWriter) (packet : SetupPacket) (o : Outcome)
    (hfilter : packet.filter = true) (hfs : ∀ f ∈ w.filters, f.KeepsFlags) :
    BothPhases w packet o ↔ Covers w packet := by
  by_cases hout : packet.filterOut = true → w.filters.length < 256
  case neg =>
    obtain ⟨hgo, hlong⟩ := Classical.not_imp.1 hout
    refine iff_of_false ?_ fun h => hout h.1
    rintro ⟨fuel, rep, hrep, -⟩
    have hnone := phase_eq_none (d := true) hfilter hfs hgo (Nat.le_of_not_lt hlong) fuel
    rw [relayPhases, hnone] at hrep
    cases hrep
  have hcalled : packet.filterOut = true →
      (visit true 0 w.filters packet).called = accepting true 0 w.filters packet := fun hgo =>
    (visit_of_flag (d := true) hfs hgo 0).2
  unfold Covers
  rw [and_iff_right hout, ← (firstPhase_visit hfilter hfs).secondPhase_iff o hout]
  unfold BothPhases relayPhases
  rw [(stable_phase true 0 _).exists_bind_iff (stable_secondPhase w o)
    (phase_eq_visit (d := true) hfilter hout)]
  refine exists_congr fun fuel => exists_congr fun rep => and_congr_right fun hrep => ?_
  rw [outPhase_secondPhase hrep]
  exact and_iff_right hcalled

/-- A writer with one logger. -/
def logged : SetupWriter where
  filters := [{ base := .new, cls := .streamLog [] }]
  length := 0
  manager := .new .bare

theorem keepsFlags_logged : ∀ f ∈ logged.filters, f.KeepsFlags := by
  rintro f (_ | ⟨_, ⟨⟩⟩) cb ⟨⟩

/-- A device-to-host transfer. -/
theorem bothPhases_iff_logged : BothPhases logged (getDescriptor 18) .failure := by
  refine (bothPhases_iff logged (getDescriptor 18) .failure rfl keepsFlags_logged).2
    ⟨fun _ => by decide, ?_⟩
  rintro r ⟨⟩ - -
  exact ⟨by decide, fun _ hd => absurd hd (by decide)⟩

def clearFeature : SetupPacket :=
  .new { bRequestType := 0, bRequest := 1, wValue := 0, wIndex := 0, wLength := 0 } none

/-- The logger does not see its reply. -/
theorem bothPhases_fails :
    ¬ ∀ (w : SetupWriter) (packet : SetupPacket) (o : Outcome), packet.filter = true →
      (∀ f ∈ w.filters, f.KeepsFlags) → BothPhases w packet o := by
  intro h
  obtain ⟨fuel, rep, hrep, -, hin⟩ := h logged clearFeature (.success []) rfl keepsFlags_logged
  have hrun : relayPhases logged clearFeature (.success []) 2 =
      some { outPhase := (visit true 0 logged.filters clearFeature)
             inPhase := some (.entry (visit true 0 logged.filters clearFeature).filters
               (writeToDevice clearFeature (.success [])), .entry _ _) } := rfl
  obtain rfl := (stable_relayPhases _ _ _).unique hrun hrep
  exact absurd (hin _ _ rfl).2 (by decide)

/-! ## The round of `relayWriteSetup` -/

theorem tested_visit_le (d : Bool) (k : ℕ) (fs : List Plugin) (s : SetupPacket) :
    (visit d k fs s).tested.length ≤ fs.length := by
  induction fs generalizing k s with
  | nil => exact Nat.le_refl 0
  | cons f fs ih =>
    unfold visit
    split_ifs with hgo ht
    · exact Nat.succ_le_succ (ih _ _)
    · exact Nat.succ_le_succ (ih _ _)
    · exact Nat.zero_le _

theorem phase_out {fs : List Plugin} (h : fs.length < 256) (s : SetupPacket) :
    ∃ st, phase true (fs.length + 1) 0 (.entry fs s) = some ((outPhase fs s).2.2, st) ∧
      st.filters = (outPhase fs s).1 ∧ st.packet = (outPhase fs s).2.1 ∧
      st.filters.length = fs.length ∧ (outPhase fs s).2.2 ≤ fs.length := by
  unfold outPhase
  cases hfilter : s.filter with
  | false =>
    refine ⟨.entry fs s, ?_, rfl, rfl, rfl, Nat.zero_le _⟩
    exact if_neg (by rw [show (PhaseState.entry fs s).packet.filter = false from hfilter]; decide)
  | true =>
    obtain ⟨hfilters, hpacket, htested⟩ := visit_out 0 fs s
    have hle := tested_visit_le true 0 fs s
    rw [if_pos rfl, ← htested]
    exact ⟨_, phase_eq_visit hfilter fun _ => h, hfilters, hpacket, length_visit .., hle⟩

theorem phase_in {fs : List Plugin} (h : fs.length < 256) (hj : j ≤ fs.length) (s : SetupPacket) :
    ∃ j' st, phase false (fs.length + 1) j (.entry fs s) = some (j', st) ∧
      st.filters = (inPhase j fs s).1 ∧ st.packet = (inPhase j fs s).2.1 := by
  unfold inPhase
  cases hfilter : s.filter with
  | false =>
    refine ⟨j, .entry fs s, ?_, rfl, rfl⟩
    exact if_neg (by rw [show (PhaseState.entry fs s).packet.filter = false from hfilter]; decide)
  | true =>
    have hpass := pass_append (d := false) (fs.take j) (fs.drop j) s [] []
    rw [List.take_append_drop, List.length_take, Nat.min_eq_left hj, List.length_drop] at hpass
    obtain ⟨hfilters, hpacket⟩ := visit_in j (fs.drop j) s
    have hfuel : fs.length - j < fs.length + 1 := Nat.lt_succ_of_le (Nat.sub_le _ _)
    rw [if_pos rfl, phase_entry hfilter, loop_eq_pass h hj hfuel]
    refine ⟨_, _, congrArg some hpass, ?_, hpacket⟩
    exact congrArg (fs.take j ++ ·) hfilters

/-- The round `relayWriteSetup` describes is this one as long as the index does not wrap. -/
theorem relayWriteSetup_phases (w : SetupWriter) (packet : SetupPacket) (o : Outcome)
    (h : w.filters.length < 256) :
    ∃ fuel rep, relayPhases w packet o fuel = some rep ∧
      (relayWriteSetup w packet o).reply = rep.inPhase.map fun r => r.2.packet := by
  obtain ⟨out, hphase, hfilters, hpacket, hlength, hj⟩ := phase_out h packet
  have hout : out.packet = w.outgoing packet := hpacket
  rw [← hlength] at h hj
  refine ⟨w.filters.length + 1, ?_⟩
  unfold relayPhases
  rw [hphase, Option.bind_some]
  have hround := relayWriteSetup_round w packet o
  generalize relayWriteSetup w packet o = rep at hround ⊢
  cases hround with
  | discarded hr => exact ⟨_, secondPhase_discarded hout hr, rfl⟩
  | fromDevice hr hd =>
    obtain ⟨j', st, hin, -, hst⟩ := phase_in h (Nat.zero_le _) (readFromDevice out.packet w.length o)
    rw [hlength] at hin
    have hsecond := (secondPhase_request (j := (outPhase w.filters packet).2.2) hout hr).trans
      ((if_pos hd).trans (inPhaseFrom_eq hin))
    rw [hfilters, hout] at hst
    exact ⟨_, hsecond, congrArg some hst.symm⟩
  | toDevice hr hd hret =>
    obtain ⟨j', st, hin, -, hst⟩ := phase_in h hj (writeToDevice out.packet o)
    rw [hlength] at hin
    have hsecond := (secondPhase_request hout hr).trans
      ((if_neg (by rw [hd]; decide)).trans ((if_pos hret).trans (inPhaseFrom_eq hin)))
    rw [hfilters, hout] at hst
    exact ⟨_, hsecond, congrArg some hst.symm⟩
  | ends hr hd hret =>
    refine ⟨⟨out, none⟩, ?_, rfl⟩
    rw [secondPhase_request hout hr, if_neg (by rw [hd]; decide), if_neg hret]

end Round

end SetupPhases

end UsbProxy
