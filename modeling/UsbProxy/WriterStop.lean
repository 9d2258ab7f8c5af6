import UsbProxy.ControlRelay
import UsbProxy.DataRelay
import UsbProxy.Library.Stopping

/-!
# Stopping a writer

`RelayWriter::please_stop` raises the writer's stop flag and then puts a null entry on the relayed lane,
where injected packets overtake it and a full lane drops it.  Both writers are consumers in the sense
of `Stopping`: they look at the flag before every dequeue and behind it, and an `enqueue` leaves the
queue non-empty whether or not it drops its entry.

Besides the threads of a relay, anyone may put anything on either lane here.  A writer's test of the
flag ahead of `send_data` and that call are one move.
-/

namespace UsbProxy

open Stopping (Calls Consumer Half Place StepsLike)

namespace SafeQueue

variable {T : Type*} {s s' : SafeQueue T}

theorem empty_enqueue (s : SafeQueue T) (t : T) : (s.enqueue t).empty = false := by
  rw [enqueue_eq]
  unfold empty
  rw [Bool.and_eq_false_iff, List.isEmpty_eq_false_iff]
  exact .inl (Lane.offer_ne_nil (by decide))

theorem empty_enqueuePriority (s : SafeQueue T) (t : T) : (s.enqueuePriority t).empty = false := by
  rw [enqueuePriority_eq]
  unfold empty
  rw [Bool.and_eq_false_iff, List.isEmpty_eq_false_iff (l := Lane.offer _ _ _)]
  exact .inr (Lane.offer_ne_nil (by decide))

end SafeQueue

/-- A move of a relay's threads, or anyone's `enqueue` or `enqueuePriority` on the writer's queue. -/
inductive WithProducers (M T : Type*)
  | relay (m : M)
  | enqueue (t : T)
  | enqueuePriority (t : T)
  deriving DecidableEq, Repr

/-! ## The data writer -/

namespace DataRelay

/-- `_please_stop = true` and `_recvQueue->enqueue(PacketPtr())`. -/
def stopHalf : WithProducers DataMove (Option Packet) → Half
  | .relay .stopWriter => .raise
  | .relay .wakeWriter => .wake
  | _ => .neither

def produced (charSigned : Bool) (s : DataRelay) :
    WithProducers DataMove (Option Packet) → Option DataRelay
  | .relay m => s.step charSigned m
  | .enqueue t =>
    some { s with traffic := { s.traffic with queue := s.traffic.queue.enqueue t } }
  | .enqueuePriority t =>
    some { s with traffic := { s.traffic with queue := s.traffic.queue.enqueuePriority t } }

/-- The packets handed to `send_data`, in order. -/
def sent (s : DataRelay) : List Packet :=
  s.writer.events.filterMap fun
    | .sendData p => some p
    | .dequeue _ | .waitComplete _ => none

/-- Where `relay_write` stands as a consumer. -/
def place (pc : WriterPc) : Place :=
  match pc with
  | .top | .filtered | .waiting => .outside
  | .dequeuing => .waiting
  | .dequeued => .taken
  | .finished => .exited

theorem place_eq_waiting {pc : WriterPc} : place pc = .waiting ↔ pc = .dequeuing := by
  cases pc <;> simp [place]

theorem place_eq_taken {pc : WriterPc} : place pc = .taken ↔ pc = .dequeued := by
  cases pc <;> simp [place]

theorem place_eq_exited {pc : WriterPc} : place pc = .exited ↔ pc = .finished := by
  cases pc <;> simp [place]

/-- The writer as a consumer of its queue. -/
def consumer (s : DataRelay) : Consumer :=
  { place := place s.writer.pc, flag := s.writer.pleaseStop, ready := !s.traffic.queue.empty }

variable {charSigned : Bool} {s t : DataRelay} {m : DataMove}

theorem consumer_idle (hp : place t.writer.pc = place s.writer.pc)
    (hf : t.writer.pleaseStop = s.writer.pleaseStop) (hq : t.traffic = s.traffic) :
    Consumer.Step .neither s.consumer t.consumer :=
  .idle_of_eq hp hf (by unfold consumer; rw [hq])

theorem consumer_produce (hw : t.writer = s.writer) (hq : t.traffic.queue.empty = false) :
    Consumer.Step .neither s.consumer t.consumer := by
  apply Consumer.Step.produce_of_eq
  · exact congrArg (fun w => place w.pc) hw
  · exact congrArg (fun w => w.pleaseStop) hw
  · rw [consumer, hq, Bool.not_false]

theorem consumer_wake (hw : t.writer = s.writer) (hq : t.traffic.queue.empty = false) :
    Consumer.Step .wake s.consumer t.consumer := by
  apply Consumer.Step.wake_of_eq
  · exact congrArg (fun w => place w.pc) hw
  · exact congrArg (fun w => w.pleaseStop) hw
  · rw [consumer, hq, Bool.not_false]

theorem write_consumer (h : s.write charSigned = some t) :
    Consumer.Step .neither s.consumer t.consumer := by
  unfold write at h
  cases hpc : s.writer.pc <;> simp only [hpc, reduceCtorEq] at h
  case top =>
    split_ifs at h with hs hw <;> cases h
    · exact .exit hs
    · exact consumer_idle (by rw [hpc]; rfl) rfl rfl
    · exact .enter (congrArg place hpc) (Bool.eq_false_iff.2 hs)
  case dequeuing =>
    obtain ⟨⟨p, traffic⟩, -, rfl⟩ := Option.map_eq_some_iff.1 h
    exact .take (congrArg place hpc) (!traffic.queue.empty)
  case dequeued =>
    split_ifs at h with hs
    · cases h; exact .exit hs
    · split at h <;> cases h
      all_goals exact .goOn (congrArg place hpc) (Bool.eq_false_iff.2 hs)
  case filtered =>
    split_ifs at h with hs
    · cases h; exact .exit hs
    · split at h
      next => cases h
      next => split_ifs at h <;> cases h <;> exact consumer_idle (by rw [hpc]; rfl) rfl rfl

theorem read_consumer (h : s.read = some t) : Consumer.Step .neither s.consumer t.consumer := by
  obtain ⟨hw, hq | ⟨p, hq⟩⟩ := read_cases h
  · exact consumer_idle (by rw [hw]) (by rw [hw]) hq
  · exact consumer_produce hw (by rw [hq]; exact SafeQueue.empty_enqueue _ _)

theorem step_consumer (h : s.step charSigned m = some t) :
    Consumer.Step (stopHalf (.relay m)) s.consumer t.consumer := by
  cases m with
  | read => exact read_consumer h
  | write => exact write_consumer h
  | receive buf length =>
    simp only [step] at h
    split_ifs at h
    cases h
    exact consumer_idle rfl rfl rfl
  | waitComplete done =>
    simp only [step] at h
    split_ifs at h with hpc
    cases h
    exact consumer_idle (by rw [hpc]; rfl) rfl rfl
  | inject p =>
    cases h
    exact consumer_produce rfl (SafeQueue.empty_enqueuePriority _ _)
  | stopReader => cases h; exact consumer_idle rfl rfl rfl
  | stopWriter => cases h; exact .raise _
  | wakeWriter =>
    cases h
    exact consumer_wake rfl (SafeQueue.empty_enqueue _ _)

theorem produced_consumer (charSigned : Bool) :
    StepsLike (produced charSigned) stopHalf consumer := by
  intro s i t h
  cases i with
  | relay m => exact step_consumer h
  | enqueue e =>
    cases h
    exact consumer_produce rfl (SafeQueue.empty_enqueue _ _)
  | enqueuePriority e =>
    cases h
    exact consumer_produce rfl (SafeQueue.empty_enqueuePriority _ _)

/-- Nothing is handed to `send_data` behind the last entry. -/
theorem sent_of_settled {i : WithProducers DataMove (Option Packet)}
    (h : s.produced charSigned i = some t) (hs : s.consumer.Settled) : t.sent = s.sent := by
  have hkept (hw : t.writer.events = s.writer.events) : t.sent = s.sent := by
    unfold sent
    rw [hw]
  have hpc : s.writer.pc = .finished ∨ s.writer.pleaseStop = true ∧ s.writer.pc = .dequeued :=
    hs.imp place_eq_exited.1 fun hs => ⟨hs.1, place_eq_taken.1 hs.2⟩
  cases i with
  | enqueue e => cases h; rfl
  | enqueuePriority e => cases h; rfl
  | relay m =>
    cases m with
    | read => exact hkept (congrArg DataWriter.events (read_cases h).1)
    | write =>
      simp only [produced, step, write] at h
      rcases hpc with hpc | ⟨hf, hpc⟩
      · simp [hpc] at h
      · rw [hpc] at h
        simp only [hf, if_true] at h
        cases h
        rfl
    | receive buf length =>
      simp only [produced, step] at h
      split_ifs at h
      cases h
      rfl
    | waitComplete done =>
      simp only [produced, step] at h
      split_ifs at h with hwait
      rw [hwait] at hpc
      simp at hpc
    | inject p => cases h; rfl
    | stopReader => cases h; rfl
    | stopWriter => cases h; rfl
    | wakeWriter => cases h; rfl

end DataRelay

/-! ## The setup writer -/

namespace ControlRelay

def stopHalf : WithProducers ControlMove Entry → Half
  | .relay .stopWriter => .raise
  | .relay .wakeWriter => .wake
  | _ => .neither

def produced (s : ControlRelay) : WithProducers ControlMove Entry → Option ControlRelay
  | .relay m => s.step m
  | .enqueue e => some { s with readersend := s.readersend.enqueue e }
  | .enqueuePriority e => some { s with readersend := s.readersend.enqueuePriority e }

/-- Where `relay_write_setup` stands as a consumer. -/
def place (pc : ControlWriterPc) : Place :=
  match pc with
  | .top | .handling .. | .enqueuing .. => .outside
  | .dequeuing => .waiting
  | .dequeued _ => .taken
  | .finished => .exited

theorem place_eq_waiting {pc : ControlWriterPc} : place pc = .waiting ↔ pc = .dequeuing := by
  cases pc <;> simp [place]

theorem place_eq_taken {pc : ControlWriterPc} : place pc = .taken ↔ ∃ e, pc = .dequeued e := by
  cases pc <;> simp [place]

theorem place_eq_exited {pc : ControlWriterPc} : place pc = .exited ↔ pc = .finished := by
  cases pc <;> simp [place]

/-- The writer as a consumer of its queue. -/
def consumer (s : ControlRelay) : Consumer :=
  { place := place s.writer.pc, flag := s.writer.pleaseStop, ready := !s.readersend.empty }

variable {s t : ControlRelay} {m : ControlMove}

theorem consumer_idle (hp : place t.writer.pc = place s.writer.pc)
    (hf : t.writer.pleaseStop = s.writer.pleaseStop) (hq : t.readersend = s.readersend) :
    Consumer.Step .neither s.consumer t.consumer :=
  .idle_of_eq hp hf (by unfold consumer; rw [hq])

theorem consumer_produce (hw : t.writer = s.writer) (hq : t.readersend.empty = false) :
    Consumer.Step .neither s.consumer t.consumer := by
  apply Consumer.Step.produce_of_eq
  · exact congrArg (fun w => place w.pc) hw
  · exact congrArg (fun w => w.pleaseStop) hw
  · rw [consumer, hq, Bool.not_false]

theorem consumer_wake (hw : t.writer = s.writer) (hq : t.readersend.empty = false) :
    Consumer.Step .wake s.consumer t.consumer := by
  apply Consumer.Step.wake_of_eq
  · exact congrArg (fun w => place w.pc) hw
  · exact congrArg (fun w => w.pleaseStop) hw
  · rw [consumer, hq, Bool.not_false]

theorem write_consumer (h : s.write = some t) : Consumer.Step .neither s.consumer t.consumer := by
  unfold write at h
  cases hpc : s.writer.pc <;> simp only [hpc, reduceCtorEq] at h
  case top =>
    split_ifs at h with hs <;> cases h
    · exact .exit hs
    · exact .enter (congrArg place hpc) (Bool.eq_false_iff.2 hs)
  case dequeuing =>
    obtain ⟨⟨e, readersend⟩, -, rfl⟩ := Option.map_eq_some_iff.1 h
    exact .take (congrArg place hpc) (!readersend.empty)
  case dequeued e =>
    split_ifs at h with hs
    · cases h; exact .exit hs
    · split at h <;> cases h
      all_goals exact .goOn (congrArg place hpc) (Bool.eq_false_iff.2 hs)
  case enqueuing p origin => cases h; exact consumer_idle (by rw [hpc]; rfl) rfl rfl

theorem read_consumer (h : s.read = some t) : Consumer.Step .neither s.consumer t.consumer := by
  cases read_step h with
  | handOn hpc =>
    exact consumer_produce rfl (SafeQueue.empty_enqueue _ _)
  | _ => exact consumer_idle rfl rfl rfl

theorem transfer_consumer {o : Outcome} (h : s.transfer o = some t) :
    Consumer.Step .neither s.consumer t.consumer := by
  cases transfer_step h with
  | discard state hpc hreq => exact consumer_idle (by rw [hpc]; rfl) rfl rfl
  | relay p' state hpc hreq => exact consumer_idle (by rw [hpc]; rfl) rfl rfl

theorem injectPacket_consumer (p : Packet) :
    Consumer.Step .neither s.consumer (s.injectPacket p).consumer := by
  unfold injectPacket
  split_ifs
  · exact .idle _
  · exact consumer_idle rfl rfl rfl
  · exact consumer_produce rfl (SafeQueue.empty_enqueuePriority _ _)

theorem step_consumer (h : s.step m = some t) :
    Consumer.Step (stopHalf (.relay m)) s.consumer t.consumer := by
  cases m with
  | read => exact read_consumer h
  | write => exact write_consumer h
  | transfer o => exact transfer_consumer h
  | hostRequest rc =>
    simp only [step, hostRequest] at h
    split_ifs at h
    cases h
    exact consumer_idle rfl rfl rfl
  | sendComplete done =>
    simp only [step, sendComplete] at h
    split_ifs at h <;> cases h <;> exact consumer_idle rfl rfl rfl
  | injectSetup p =>
    cases h
    exact consumer_produce rfl (SafeQueue.empty_enqueuePriority _ _)
  | injectPacket p => cases h; exact injectPacket_consumer p
  | stopReader => cases h; exact consumer_idle rfl rfl rfl
  | wakeReader => cases h; exact consumer_idle rfl rfl rfl
  | stopWriter => cases h; exact .raise _
  | wakeWriter =>
    cases h
    exact consumer_wake rfl (SafeQueue.empty_enqueue _ _)

theorem produced_consumer : StepsLike produced stopHalf consumer := by
  intro s i t h
  cases i with
  | relay m => exact step_consumer h
  | enqueue e =>
    cases h
    exact consumer_produce rfl (SafeQueue.empty_enqueue _ _)
  | enqueuePriority e =>
    cases h
    exact consumer_produce rfl (SafeQueue.empty_enqueuePriority _ _)

/-- Nothing is handed to `control_request` with the last entry. -/
theorem transfer_of_settled (hs : s.consumer.Settled) (o : Outcome) : s.transfer o = none := by
  unfold transfer
  rcases hs with hp | ⟨-, hp⟩
  · rw [place_eq_exited.1 hp]
  · obtain ⟨e, he⟩ := place_eq_taken.1 hp
    rw [he]

end ControlRelay

/-! ## No stop is lost -/

/-- **No stop is lost.**  With any number of `please_stop` calls on its way and any producers on both
lanes of its queue, a writer behind a call that has come back does not wait on two empty lanes; and
nothing a writer dequeues from the raised flag on reaches `send_data` or `control_request`. -/
theorem pleaseStop_not_lost :
    (∀ (charSigned : Bool) (endpoint : Byte) (filters : List Plugin)
      (moves : List (WithProducers DataMove (Option Packet))) (c : Calls DataRelay),
      Runs.run (Stopping.step (DataRelay.produced charSigned) DataRelay.stopHalf)
        (.new (.new endpoint filters)) moves = some c →
      (0 < c.returned → c.state.writer.pc = .dequeuing → c.state.traffic.queue.empty = false) ∧
      (c.state.writer.pleaseStop = true → ∀ moves₁ moves₂ d e,
        Runs.run (Stopping.step (DataRelay.produced charSigned) DataRelay.stopHalf) c moves₁ = some d →
        d.state.writer.pc = .dequeued →
        Runs.run (Stopping.step (DataRelay.produced charSigned) DataRelay.stopHalf) d moves₂ = some e →
        e.state.sent = d.state.sent)) ∧
    (∀ (filters : List Plugin) (length : ℤ) (device : Device)
      (moves : List (WithProducers ControlMove Entry)) (c : Calls ControlRelay),
      Runs.run (Stopping.step ControlRelay.produced ControlRelay.stopHalf)
        (.new (.new filters length device)) moves = some c →
      (0 < c.returned → c.state.writer.pc = .dequeuing → c.state.readersend.empty = false) ∧
      (c.state.writer.pleaseStop = true → ∀ moves₁ moves₂ d e entry,
        Runs.run (Stopping.step ControlRelay.produced ControlRelay.stopHalf) c moves₁ = some d →
        d.state.writer.pc = .dequeued entry →
        Runs.run (Stopping.step ControlRelay.produced ControlRelay.stopHalf) d moves₂ = some e →
        ∀ o, e.state.transfer o = none)) := by
  constructor
  · intro charSigned endpoint filters moves c hrun
    have hview := DataRelay.produced_consumer charSigned
    refine ⟨fun hr hpc => ?_, fun hf moves₁ moves₂ d e hd hpc he => ?_⟩
    · have hready := Stopping.run_woken hview hrun hr (DataRelay.place_eq_waiting.2 hpc)
      simpa [DataRelay.consumer] using hready
    · have hs := Stopping.settled_of_taken hview hf hd (DataRelay.place_eq_taken.2 hpc)
      exact Stopping.run_unchanged hview (fun _ _ _ => DataRelay.sent_of_settled) hs he
  · intro filters length device moves c hrun
    have hview := ControlRelay.produced_consumer
    refine ⟨fun hr hpc => ?_, fun hf moves₁ moves₂ d e entry hd hpc he => ?_⟩
    · have hready := Stopping.run_woken hview hrun hr (ControlRelay.place_eq_waiting.2 hpc)
      simpa [ControlRelay.consumer] using hready
    · have hs := Stopping.settled_of_taken hview hf hd (ControlRelay.place_eq_taken.2 ⟨entry, hpc⟩)
      exact ControlRelay.transfer_of_settled (Stopping.run_settled hview hs he)

/-- The data writer waits on two empty lanes when the stop comes; an injected packet overtakes the
wake-up entry. -/
def stopAWaitingWriter : List (WithProducers DataMove (Option Packet)) :=
  [.relay .write, .relay .stopWriter, .relay .wakeWriter,
    .relay (.inject (Packet.new 0x81 (some [2]) 1))]

/-- It takes the injected packet and leaves with it. -/
theorem pleaseStop_not_lost_overtaken :
    ∃ c d e : Calls DataRelay,
      Runs.run (Stopping.step (DataRelay.produced true) DataRelay.stopHalf)
        (.new (.new 0x81 [])) stopAWaitingWriter = some c ∧
      c.state.traffic.queue.empty = false ∧
      Runs.run (Stopping.step (DataRelay.produced true) DataRelay.stopHalf) c [.relay .write] = some d ∧
      d.state.writer.p = some (Packet.new 0x81 (some [2]) 1) ∧
      Runs.run (Stopping.step (DataRelay.produced true) DataRelay.stopHalf) d [.relay .write] = some e ∧
      e.state.writer.pc = .finished ∧ e.state.sent = d.state.sent :=
  have h := pleaseStop_not_lost.1 true 0x81 [] stopAWaitingWriter _ rfl
  ⟨_, _, _, rfl, h.1 (by decide) rfl, rfl, rfl, rfl, rfl,
    h.2 rfl [.relay .write] [.relay .write] _ _ rfl rfl rfl⟩

end UsbProxy
