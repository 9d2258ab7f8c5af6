import UsbProxy.ControlDialogue

/-!
# Requests that get lost

A reader that waits for a reply does not listen to the host, so the host's request has to be on its
way.  Without injectors and stop requests every entry of either queue is a host request or its reply
(`Alone`), at most one is on its way (`Stage`), so no lane is ever full, and a request gets lost at
one place only: where the writer discards a packet behind the out-phase filters.
-/

namespace UsbProxy

/-- A setup packet that stems from a host request. -/
def Entry.FromHost (e : Entry) : Prop := ∃ p k, e = .setup p (.host k)

/-- The reader waits for a reply: `direction_out` is false and it holds no packet. -/
structure ControlReader.Waits (r : ControlReader) : Prop where
  directionOut : r.directionOut = false
  p : r.p = none
  pc : ∀ p origin, r.pc ≠ .dequeued (.setup p origin)

/-- Neither an injector nor a request to stop. -/
def ControlMove.ofRelay : ControlMove → Bool
  | read | hostRequest _ | sendComplete _ | write | transfer _ => true
  | injectSetup _ | injectPacket _ | stopReader | wakeReader | stopWriter | wakeWriter => false

/-- The moves of the two relay threads. -/
abbrev RelayMove := { m : ControlMove // m.ofRelay = true }

namespace ControlRelay

def relayStep (s : ControlRelay) (m : RelayMove) : Option ControlRelay := s.step m.1

/-- While the reader waits, exactly one packet stemming from the request handed on last is in
`_readersend`, in the writer's hands or in `_writersend`, and none from an earlier one. -/
def Kept (s : ControlRelay) : Prop :=
  s.reader.Waits → ∃ k, s.count = k + 1 ∧ s.hosts = {k}

/-- Behind the out-phase filters the transmit flags of the packet in the writer's hands are up. -/
def Transmits (s : ControlRelay) : ControlMove → Prop
  | .transfer _ => match s.writer.pc with
    | .handling p _ => s.writer.state.request p ≠ none
    | _ => True
  | _ => True

end ControlRelay

/-! ## The relay by itself -/

def ControlReaderPc.Alone : ControlReaderPc → Prop
  | dequeued e => e.FromHost
  | finished => False
  | _ => True

def ControlWriterPc.Alone : ControlWriterPc → Prop
  | dequeued e => e.FromHost
  | handling _ origin | enqueuing _ origin => ∃ k, origin = .host k
  | finished => False
  | top | dequeuing => True

namespace ControlRelay

/-- Both threads run, and all they handle comes from the host. -/
structure Alone (s : ControlRelay) : Prop where
  readersend : s.readersend.All Entry.FromHost
  writersend : s.writersend.All Entry.FromHost
  readerPc : s.reader.pc.Alone
  writerPc : s.writer.pc.Alone
  readerStop : s.reader.pleaseStop = false
  writerStop : s.writer.pleaseStop = false

variable {s t : ControlRelay}

theorem Alone.clean (h : s.Alone) : s.Clean where
  writersend e he p hp := by
    obtain ⟨p', k, rfl⟩ := h.writersend e he
    cases hp
  hands p hp := by
    have hpc := h.writerPc
    rw [hp] at hpc
    obtain ⟨k, hk⟩ := hpc
    cases hk

theorem ReadStep.alone (h : ReadStep s t) (ha : s.Alone) : t.Alone := by
  cases h with
  | stop hstop => cases ha.readerStop.symm.trans hstop
  | handOn hpc =>
    exact ⟨ha.readersend.enqueue ⟨_, _, rfl⟩, ha.writersend, trivial, ha.writerPc, ha.readerStop,
      ha.writerStop⟩
  | take hpc hd =>
    obtain ⟨he, hq⟩ := ha.writersend.dequeue hd
    exact ⟨ha.readersend, hq, he, ha.writerPc, ha.readerStop, ha.writerStop⟩
  | listen | await | again | accept | pass | skip | reply | settle =>
    exact ⟨ha.readersend, ha.writersend, trivial, ha.writerPc, ha.readerStop, ha.writerStop⟩

theorem WriteStep.alone (h : WriteStep s t) (ha : s.Alone) : t.Alone := by
  have hpc := ha.writerPc
  cases h with
  | stop hstop => cases ha.writerStop.symm.trans hstop
  | next | skip =>
    exact ⟨ha.readersend, ha.writersend, ha.readerPc, trivial, ha.readerStop, ha.writerStop⟩
  | take hpc' hd =>
    obtain ⟨he, hq⟩ := ha.readersend.dequeue hd
    exact ⟨hq, ha.writersend, ha.readerPc, he, ha.readerStop, ha.writerStop⟩
  | handle hpc' =>
    rw [hpc'] at hpc
    obtain ⟨p', k, he⟩ := hpc
    cases he
    exact ⟨ha.readersend, ha.writersend, ha.readerPc, ⟨k, rfl⟩, ha.readerStop, ha.writerStop⟩
  | handBack hpc' =>
    rw [hpc'] at hpc
    obtain ⟨k, rfl⟩ := hpc
    exact ⟨ha.readersend, ha.writersend.enqueue ⟨_, _, rfl⟩, ha.readerPc, trivial, ha.readerStop,
      ha.writerStop⟩

theorem TransferStep.alone (h : TransferStep s t) (ha : s.Alone) : t.Alone := by
  have hpc := ha.writerPc
  cases h with
  | discard =>
    exact ⟨ha.readersend, ha.writersend, ha.readerPc, trivial, ha.readerStop, ha.writerStop⟩
  | relay p' state hpc' hreq =>
    rw [hpc'] at hpc
    exact ⟨ha.readersend, ha.writersend, ha.readerPc, hpc, ha.readerStop, ha.writerStop⟩

theorem relayStep_alone {m : RelayMove} (h : s.relayStep m = some t) (ha : s.Alone) : t.Alone := by
  obtain ⟨m, hm⟩ := m
  cases m with
  | read => exact (read_step h).alone ha
  | write => exact (write_step h).alone ha
  | transfer o => exact (transfer_step h).alone ha
  | hostRequest rc =>
    simp only [relayStep, step, hostRequest] at h
    split_ifs at h
    cases h
    exact ⟨ha.readersend, ha.writersend, trivial, ha.writerPc, ha.readerStop, ha.writerStop⟩
  | sendComplete done =>
    simp only [relayStep, step, sendComplete] at h
    split_ifs at h <;> cases h <;>
      exact ⟨ha.readersend, ha.writersend, trivial, ha.writerPc, ha.readerStop, ha.writerStop⟩
  | injectSetup | injectPacket | stopReader | wakeReader | stopWriter | wakeWriter => cases hm

/-! ## What is on its way -/

theorem zero_of_add {a b : Multiset ℕ} (h : a + b = 0) : a = 0 ∧ b = 0 :=
  ⟨Multiset.le_zero.1 (h ▸ Multiset.le_add_right ..),
    Multiset.le_zero.1 (h ▸ Multiset.le_add_left ..)⟩

theorem lane_eq_nil {lane : List Entry} (h : ∀ e ∈ lane, e.FromHost)
    (hw : Lane.weight Entry.hosts lane = 0) : lane = [] := by
  cases lane with
  | nil => rfl
  | cons e lane =>
    obtain ⟨p, k, rfl⟩ := h e (.head _)
    simp [Entry.hosts, Origin.hosts] at hw

theorem length_lt_of_weight_eq_zero {q : SafeQueue Entry} (h : q.All Entry.FromHost)
    (hw : q.weight Entry.hosts = 0) : q.q.length < QUEUE_MAX := by
  have hq : Lane.weight Entry.hosts q.q = 0 := (zero_of_add hw).2
  rw [lane_eq_nil (fun e he => h e (List.mem_append_right _ he)) hq]
  decide

theorem weight_enqueue_eq {q : SafeQueue Entry} {e : Entry} (h : q.All Entry.FromHost)
    (hw : q.weight Entry.hosts = 0) : (q.enqueue e).weight Entry.hosts = e.hosts := by
  rcases q.weight_enqueue (f := Entry.hosts) e with ⟨-, he⟩ | ⟨hfull, -⟩
  · rw [he, hw, zero_add]
  · exact absurd (length_lt_of_weight_eq_zero h hw) (by omega)

/-- While the writer has a host request in its hands, that is all that is on its way, and the reader
waits for it. -/
theorem waits_of_hands (hs : s.Stage) (ha : s.Alone) {j : ℕ} (hw : s.writer.pc.hosts = {j}) :
    s.reader.Waits ∧ s.readersend.weight Entry.hosts = 0 ∧ s.writersend.weight Entry.hosts = 0 := by
  have hhosts : s.hosts =
      s.readersend.weight Entry.hosts + s.writersend.weight Entry.hosts + {j} := by
    unfold hosts
    rw [hw, add_right_comm]
  have hne : s.hosts ≠ 0 := by
    intro h
    rw [hhosts] at h
    exact absurd (Multiset.card_eq_zero.2 h) (by simp)
  have hpc := ha.readerPc
  have hwaiting {held : Multiset ℕ} {k : ℕ} (h : s.Waiting held k) :
      held = 0 ∧ s.readersend.weight Entry.hosts = 0 ∧ s.writersend.weight Entry.hosts = 0 := by
    have hle := h.hosts
    rw [hhosts, add_right_comm] at hle
    obtain ⟨hqueues, hheld⟩ := zero_of_add (only_of_add_le hle).1
    exact ⟨hheld, zero_of_add hqueues⟩
  unfold Stage at hs
  split at hs
  next h =>
    rcases hs with hs | ⟨k, hs⟩ | hs
    · exact absurd hs.hosts hne
    · exact ⟨⟨hs.directionOut, hs.p, by simp [h]⟩, (hwaiting hs).2⟩
    · exact absurd hs.hosts hne
  next h => exact absurd hs.hosts hne
  next h => exact absurd hs.hosts hne
  next h => exact absurd hs.hosts hne
  next h => exact absurd hs.hosts hne
  next h =>
    obtain ⟨k, hs⟩ := hs
    exact ⟨⟨hs.directionOut, hs.p, by simp [h]⟩, (hwaiting hs).2⟩
  next e h =>
    obtain ⟨-, k, hs⟩ := hs
    rw [h] at hpc
    obtain ⟨p, i, rfl⟩ := hpc
    exact absurd (hwaiting hs).1 (by simp [Entry.hosts, Origin.hosts])
  next h => exact absurd hs.hosts hne
  next h => exact absurd hs.hosts hne
  next h =>
    rw [h] at hpc
    exact hpc.elim

/-! ## Steps -/

theorem Kept.of_eq (hk : s.Kept) (hreader : t.reader = s.reader) (hcount : t.count = s.count)
    (hhosts : t.hosts = s.hosts) : t.Kept := by
  unfold Kept
  rw [hreader, hcount, hhosts]
  exact hk

theorem ReadStep.kept (h : ReadStep s t) (hs : s.Stage) (ha : s.Alone) (hk : s.Kept) : t.Kept := by
  have hpc' := ha.readerPc
  cases h with
  | stop hstop => cases ha.readerStop.symm.trans hstop
  | listen hpc hdir =>
    intro hw
    cases hdir.symm.trans hw.directionOut
  | await hpc hdir hp => exact fun hw => hk ⟨hdir, hp, by simp [hpc]⟩
  | again hpc hdir hp => exact fun hw => absurd hw.p hp
  | accept hpc =>
    simp only [Stage, hpc] at hs
    intro hw
    cases hs.directionOut.symm.trans hw.directionOut
  | @pass rc hpc hrc =>
    intro hw
    exact hk ⟨hw.directionOut, hw.p, by simp [hpc]⟩
  | @handOn p hpc =>
    simp only [Stage, hpc] at hs
    obtain ⟨hqueue, hback⟩ := zero_of_add hs.hosts
    obtain ⟨hqueue, hhands⟩ := zero_of_add hqueue
    refine fun _ => ⟨s.count, rfl, ?_⟩
    show (s.readersend.enqueue _).weight Entry.hosts + s.writer.pc.hosts +
      s.writersend.weight Entry.hosts = _
    rw [weight_enqueue_eq ha.readersend hqueue, hhands, hback]
    rfl
  | @take e q hpc hd =>
    obtain ⟨p, k, rfl⟩ := (ha.writersend.dequeue hd).1
    exact fun hw => absurd rfl (hw.pc p _)
  | @skip e hpc he =>
    rw [hpc] at hpc'
    obtain ⟨p, k, rfl⟩ := hpc'
    exact absurd rfl (he p _)
  | reply hpc => rintro ⟨-, ⟨⟩, -⟩
  | settle hpc =>
    simp only [Stage, hpc] at hs
    exact fun hw => absurd hw.p hs.p

theorem WriteStep.hosts_eq (h : WriteStep s t) (hs : s.Stage) (ha : s.Alone) : t.hosts = s.hosts := by
  have hpc' := ha.writerPc
  cases h with
  | stop hstop => cases ha.writerStop.symm.trans hstop
  | next hpc =>
    unfold hosts
    rw [hpc]
    rfl
  | take hpc hd =>
    unfold hosts
    rw [SafeQueue.weight_dequeue hd, hpc, add_comm (Entry.hosts _)]
    exact congrArg (· + _) (add_zero _).symm
  | skip hpc he =>
    rw [hpc] at hpc'
    obtain ⟨p, k, rfl⟩ := hpc'
    exact absurd rfl (he p _)
  | handle hpc =>
    unfold hosts
    rw [hpc]
    rfl
  | @handBack p origin hpc =>
    rw [hpc] at hpc'
    obtain ⟨k, rfl⟩ := hpc'
    have hhands : s.writer.pc.hosts = {k} := by rw [hpc]; rfl
    obtain ⟨-, -, hback⟩ := waits_of_hands hs ha hhands
    unfold hosts
    rw [weight_enqueue_eq ha.writersend hback, hback, hhands]
    exact add_right_comm ..

theorem relayStep_kept {m : RelayMove} (h : s.relayStep m = some t) (hm : s.Transmits m.1)
    (hs : s.Stage) (ha : s.Alone) (hk : s.Kept) : t.Kept := by
  obtain ⟨m, hrelay⟩ := m
  cases m with
  | read => exact (read_step h).kept hs ha hk
  | hostRequest rc =>
    simp only [relayStep, step, hostRequest] at h
    split_ifs at h with hpc
    cases h
    simp only [Stage, hpc] at hs
    intro hw
    cases hs.directionOut.symm.trans hw.directionOut
  | sendComplete done =>
    simp only [relayStep, step, sendComplete] at h
    split_ifs at h with hpc hdone <;> cases h <;> simp only [Stage, hpc] at hs
    · rintro ⟨⟨⟩, -, -⟩
    · exact fun hw => absurd hw.p hs.p
  | write =>
    have hstep := write_step h
    exact hk.of_eq (by cases hstep <;> rfl) (by cases hstep <;> rfl) (hstep.hosts_eq hs ha)
  | transfer o =>
    cases transfer_step h with
    | discard state hpc hreq =>
      simp only [Transmits, hpc] at hm
      exact absurd hreq hm
    | relay p' state hpc hreq => exact hk.of_eq rfl rfl (by unfold hosts; rw [hpc]; rfl)
  | injectSetup | injectPacket | stopReader | wakeReader | stopWriter | wakeWriter => cases hrelay

/-- A discarded packet leaves the reader waiting for nothing. -/
theorem not_kept_of_discard {p : SetupPacket} {origin : Origin}
    (hpc : s.writer.pc = .handling p origin) (hreq : s.writer.state.request p = none) (hs : s.Stage)
    (ha : s.Alone) (o : Outcome) : ∃ t, s.transfer o = some t ∧ ¬ t.Kept := by
  have hpc' := ha.writerPc
  rw [hpc] at hpc'
  obtain ⟨k, rfl⟩ := hpc'
  have hhands : s.writer.pc.hosts = {k} := by rw [hpc]; rfl
  obtain ⟨hw, hqueue, hback⟩ := waits_of_hands hs ha hhands
  refine ⟨{ s with writer := { s.writer with
    pc := .top, state := (relayWriteSetup s.writer.state p o).writer } }, ?_, fun hk => ?_⟩
  · simp [transfer, hpc, round_discarded hreq]
  · obtain ⟨j, -, hj⟩ := hk hw
    have hzero : s.readersend.weight Entry.hosts + 0 + s.writersend.weight Entry.hosts = {j} := hj
    rw [hqueue, hback] at hzero
    exact absurd (congrArg Multiset.card hzero) (by simp)

/-- In a state of the invariant the next state is kept exactly when the flags are up. -/
theorem kept_iff_transmits {m : RelayMove} (hs : s.Stage) (ha : s.Alone) (hk : s.Kept) :
    (∀ t, s.relayStep m = some t → t.Kept) ↔ s.Transmits m.1 := by
  refine ⟨fun h => ?_, fun hm t ht => relayStep_kept ht hm hs ha hk⟩
  obtain ⟨m, hrelay⟩ := m
  cases m with
  | transfer o =>
    cases hpc : s.writer.pc <;> simp only [Transmits, hpc]
    case handling p origin =>
      intro hreq
      obtain ⟨t, ht, hlost⟩ := not_kept_of_discard hpc hreq hs ha o
      exact hlost (h t ht)
  | read | hostRequest | sendComplete | write => trivial
  | injectSetup | injectPacket | stopReader | wakeReader | stopWriter | wakeWriter => cases hrelay

/-! ## Whole runs -/

theorem alone_new (filters : List Plugin) (length : ℤ) (device : Device) :
    (new filters length device).Alone :=
  ⟨by rintro e ⟨⟩, by rintro e ⟨⟩, trivial, trivial, rfl, rfl⟩

/-- **Requests get lost by the flags alone.**  In every state an interleaving of the two threads comes
through, the request a waiting reader waits for is in exactly one place, if and only if no packet
the writer handles has its transmit flags down behind the out-phase filters. -/
theorem kept_iff (filters : List Plugin) (length : ℤ) (device : Device) (moves : List RelayMove) :
    (∀ js t, js <+: moves → Runs.run relayStep (new filters length device) js = some t → t.Kept) ↔
      Runs.Along relayStep (fun s m => s.Transmits m.1) (new filters length device) moves := by
  refine Runs.reached_forall_iff (fun s => s.Stage ∧ s.Alone ∧ s.Kept)
    (fun s m t h hm hi => ⟨step_stage h hi.2.1.clean hi.1, relayStep_alone h hi.2.1,
      relayStep_kept h hm hi.1 hi.2.1 hi.2.2⟩)
    (fun s m hi => kept_iff_transmits hi.1 hi.2.1 hi.2.2) ?_ ?_ moves
  · refine ⟨stage_new filters length device, alone_new filters length device, ?_⟩
    rintro ⟨⟨⟩, -, -⟩
  · rintro ⟨⟨⟩, -, -⟩

/-- A filter that clears `transmit_out`. -/
def clearing : Plugin where
  base := .new
  cls := .callback
    { cb := none, cbSetup := some fun _ s _ => { s with transmitOut := false }, seen := []
      seenSetup := [] }

/-- A host request up to the writer's round. -/
def requestHandled : List RelayMove :=
  [⟨.read, rfl⟩, ⟨.hostRequest (.setup (getDescriptor 18).ctrlReq none), rfl⟩, ⟨.read, rfl⟩,
    ⟨.read, rfl⟩, ⟨.read, rfl⟩, ⟨.write, rfl⟩, ⟨.write, rfl⟩, ⟨.write, rfl⟩,
    ⟨.transfer .failure, rfl⟩]

/-- The reader waits, and there is no packet anywhere. -/
theorem not_kept_clearing :
    ¬ ∀ t, Runs.run relayStep (new [clearing] 0 .bare) requestHandled = some t → t.Kept := by
  intro h
  obtain ⟨k, -, hk⟩ := h _ rfl ⟨rfl, rfl, by rintro p origin ⟨⟩⟩
  have hcard : 0 = 1 := congrArg Multiset.card hk
  cases hcard

end ControlRelay

end UsbProxy
