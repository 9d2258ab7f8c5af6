import Mathlib.Algebra.Order.Group.Multiset
import UsbProxy.ControlRelay
import UsbProxy.Library.Dialogue
import UsbProxy.Library.Runs

/-!
# Whom the replies are for

The purpose of the control relay is a dialogue: the host asks, and gets the answer to what it asked
last.  While nothing but host requests reaches the reply queue, the relay keeps to it, whatever the
interleaving.

The invariant: where the reader stands fixes how far the dialogue is (`Stage`), and on the way there
and back is at most the request asked last (`hosts`), as every step of the other threads leaves the
reader alone and adds no host request (`Aside`).
-/

namespace UsbProxy

open Dialogue

def ControlEvent.turn : ControlEvent → Turn Origin
  | request k _ => .ask (.host k)
  | reply origin _ => .answer origin

/-- Not an injected setup packet. -/
def Entry.Solicited (e : Entry) : Prop := ∀ p, e ≠ .setup p .injected

/-- The host requests in the writer's hands. -/
def ControlWriterPc.hosts : ControlWriterPc → Multiset ℕ
  | dequeued e => e.hosts
  | handling _ origin | enqueuing _ origin => origin.hosts
  | top | dequeuing | finished => 0

namespace ControlRelay

/-- The host requests in `_readersend`, in the writer's hands and in `_writersend`. -/
def hosts (s : ControlRelay) : Multiset ℕ :=
  s.readersend.weight Entry.hosts + s.writer.pc.hosts + s.writersend.weight Entry.hosts

def turns (s : ControlRelay) : List (Turn Origin) := s.log.map ControlEvent.turn

/-! ## How far the dialogue is -/

/-- Every request is answered, and the reader listens to the host. -/
structure Idle (s : ControlRelay) : Prop where
  directionOut : s.reader.directionOut = true
  p : s.reader.p = none
  hosts : s.hosts = 0
  turns : s.turns = script .host s.count

structure Asked (s : ControlRelay) : Prop where
  directionOut : s.reader.directionOut = true
  p : s.reader.p = none
  hosts : s.hosts = 0
  turns : s.turns = script .host s.count ++ [.ask (.host s.count)]

/-- Request `k` is handed on and not answered; it is nowhere but on its way or `held`. -/
structure Waiting (s : ControlRelay) (held : Multiset ℕ) (k : ℕ) : Prop where
  directionOut : s.reader.directionOut = false
  p : s.reader.p = none
  count : s.count = k + 1
  hosts : s.hosts + held ≤ {k}
  turns : s.turns = script .host k ++ [.ask (.host k)]

/-- Every request is answered, and the reader holds the last reply. -/
structure Answered (s : ControlRelay) : Prop where
  directionOut : s.reader.directionOut = false
  p : s.reader.p ≠ none
  hosts : s.hosts = 0
  turns : s.turns = script .host s.count

/-- The stage of the dialogue at each place of the reader. -/
def Stage (s : ControlRelay) : Prop :=
  match s.reader.pc with
  | .top => s.Idle ∨ (∃ k, s.Waiting 0 k) ∨ s.Answered
  | .requesting => s.Idle
  | .requested (.setup _ _) => s.Asked
  | .requested _ => s.Idle
  | .enqueuing _ => s.Asked
  | .dequeuing => ∃ k, s.Waiting 0 k
  | .dequeued e => e.Solicited ∧ ∃ k, s.Waiting e.hosts k
  | .replied | .completing => s.Answered
  | .finished => InTurn Origin.host s.turns

/-- No reply to an injected request is on its way. -/
structure Clean (s : ControlRelay) : Prop where
  writersend : s.writersend.All Entry.Solicited
  hands : ∀ p, s.writer.pc ≠ .enqueuing p .injected

variable {s t : ControlRelay}

theorem Waiting.inTurn {held : Multiset ℕ} {k : ℕ} (h : s.Waiting held k) :
    InTurn Origin.host s.turns := by
  rw [h.turns]
  exact inTurn_asked _ k

theorem Stage.inTurn (h : s.Stage) : InTurn Origin.host s.turns := by
  have hscript (h : s.turns = script .host s.count) : InTurn Origin.host s.turns := by
    rw [h]
    exact inTurn_script _ _
  have hasked (h : s.Asked) : InTurn Origin.host s.turns := by
    rw [h.turns]
    exact inTurn_asked _ _
  unfold Stage at h
  split at h
  · rcases h with h | ⟨k, h⟩ | h
    · exact hscript h.turns
    · exact h.inTurn
    · exact hscript h.turns
  · exact hscript h.turns
  · exact hasked h
  · exact hscript h.turns
  · exact hasked h
  · obtain ⟨k, h⟩ := h
    exact h.inTurn
  · obtain ⟨-, k, h⟩ := h
    exact h.inTurn
  · exact hscript h.turns
  · exact hscript h.turns
  · exact h

/-! ## Steps of the other threads -/

/-- A step that leaves the reader alone, but for its stop flag, and adds no host request. -/
structure Aside (s t : ControlRelay) : Prop where
  pc : t.reader.pc = s.reader.pc
  directionOut : t.reader.directionOut = s.reader.directionOut
  p : t.reader.p = s.reader.p
  count : t.count = s.count
  log : t.log = s.log
  hosts : t.hosts ≤ s.hosts

theorem Aside.turns (h : Aside s t) : t.turns = s.turns :=
  congrArg (List.map ControlEvent.turn) h.log

theorem Aside.hosts_eq_zero (h : Aside s t) (hs : s.hosts = 0) : t.hosts = 0 :=
  Multiset.le_zero.1 (hs ▸ h.hosts)

theorem Idle.aside (hs : s.Idle) (h : Aside s t) : t.Idle where
  directionOut := h.directionOut.trans hs.directionOut
  p := h.p.trans hs.p
  hosts := h.hosts_eq_zero hs.hosts
  turns := by rw [h.turns, h.count, hs.turns]

theorem Asked.aside (hs : s.Asked) (h : Aside s t) : t.Asked where
  directionOut := h.directionOut.trans hs.directionOut
  p := h.p.trans hs.p
  hosts := h.hosts_eq_zero hs.hosts
  turns := by rw [h.turns, h.count, hs.turns]

theorem Waiting.aside {held : Multiset ℕ} {k : ℕ} (hs : s.Waiting held k) (h : Aside s t) :
    t.Waiting held k where
  directionOut := h.directionOut.trans hs.directionOut
  p := h.p.trans hs.p
  count := h.count.trans hs.count
  hosts := (add_le_add_left h.hosts held).trans hs.hosts
  turns := by rw [h.turns, hs.turns]

theorem Answered.aside (hs : s.Answered) (h : Aside s t) : t.Answered where
  directionOut := h.directionOut.trans hs.directionOut
  p := by rw [h.p]; exact hs.p
  hosts := h.hosts_eq_zero hs.hosts
  turns := by rw [h.turns, h.count, hs.turns]

theorem Stage.aside (hs : s.Stage) (h : Aside s t) : t.Stage := by
  unfold Stage at *
  rw [h.pc]
  split at hs
  · exact hs.imp (·.aside h) (Or.imp (fun ⟨k, hw⟩ => ⟨k, hw.aside h⟩) (·.aside h))
  · exact hs.aside h
  · exact hs.aside h
  · exact hs.aside h
  · exact hs.aside h
  · obtain ⟨k, hw⟩ := hs
    exact ⟨k, hw.aside h⟩
  · obtain ⟨he, k, hw⟩ := hs
    exact ⟨he, k, hw.aside h⟩
  · exact hs.aside h
  · exact hs.aside h
  · exact h.turns ▸ hs

theorem hosts_of_not_setup {e : Entry} (he : ∀ p origin, e ≠ .setup p origin) : e.hosts = 0 := by
  cases e with
  | null => rfl
  | packet p => rfl
  | setup p origin => exact absurd rfl (he p origin)

theorem weight_enqueue_le (q : SafeQueue Entry) (e : Entry) :
    (q.enqueue e).weight Entry.hosts ≤ q.weight Entry.hosts + e.hosts := by
  rcases q.weight_enqueue (f := Entry.hosts) e with ⟨-, h⟩ | ⟨-, h⟩
  · exact h.le
  · rw [h]
    exact Multiset.le_add_right ..

theorem weight_enqueue_free (q : SafeQueue Entry) {e : Entry} (he : e.hosts = 0) :
    (q.enqueue e).weight Entry.hosts ≤ q.weight Entry.hosts := by
  have h := weight_enqueue_le q e
  rwa [he, add_zero] at h

theorem weight_enqueuePriority_free (q : SafeQueue Entry) {e : Entry} (he : e.hosts = 0) :
    (q.enqueuePriority e).weight Entry.hosts ≤ q.weight Entry.hosts := by
  rcases q.weight_enqueuePriority (f := Entry.hosts) e with ⟨-, h⟩ | ⟨-, h⟩
  · rw [h, he, add_zero]
  · exact h.le

theorem hosts_writer_le {w : ControlWriter} (h : w.pc.hosts ≤ s.writer.pc.hosts) :
    { s with writer := w }.hosts ≤ s.hosts :=
  add_le_add_left (add_le_add_right h _) _

theorem WriteStep.aside (h : WriteStep s t) : Aside s t := by
  refine ⟨by cases h <;> rfl, by cases h <;> rfl, by cases h <;> rfl, by cases h <;> rfl,
    by cases h <;> rfl, ?_⟩
  cases h with
  | stop => exact hosts_writer_le (Multiset.zero_le _)
  | next hpc => exact hosts_writer_le (Multiset.zero_le _)
  | take hpc hd =>
    unfold hosts
    rw [SafeQueue.weight_dequeue hd, hpc]
    simp [ControlWriterPc.hosts, add_comm]
  | skip hpc he => exact hosts_writer_le (Multiset.zero_le _)
  | handle hpc => exact hosts_writer_le (by rw [hpc]; exact le_rfl)
  | @handBack p origin hpc =>
    have hq := weight_enqueue_le s.writersend (.setup p origin)
    unfold hosts
    rw [hpc]
    calc s.readersend.weight Entry.hosts + 0 +
          (s.writersend.enqueue (.setup p origin)).weight Entry.hosts
        ≤ s.readersend.weight Entry.hosts + 0 +
          (s.writersend.weight Entry.hosts + origin.hosts) := add_le_add_right hq _
      _ = s.readersend.weight Entry.hosts + origin.hosts + s.writersend.weight Entry.hosts := by
          rw [add_zero, add_assoc, add_comm origin.hosts]

theorem TransferStep.aside (h : TransferStep s t) : Aside s t := by
  refine ⟨by cases h <;> rfl, by cases h <;> rfl, by cases h <;> rfl, by cases h <;> rfl,
    by cases h <;> rfl, ?_⟩
  cases h with
  | discard state hpc hreq => exact hosts_writer_le (Multiset.zero_le _)
  | relay p' state hpc hreq => exact hosts_writer_le (by rw [hpc]; exact le_rfl)

theorem aside_of_queues {readersend writersend : SafeQueue Entry}
    (hr : readersend.weight Entry.hosts ≤ s.readersend.weight Entry.hosts)
    (hw : writersend.weight Entry.hosts ≤ s.writersend.weight Entry.hosts) :
    Aside s { s with readersend, writersend } :=
  ⟨rfl, rfl, rfl, rfl, rfl, add_le_add (add_le_add_left hr _) hw⟩

/-- Every move but the reader's own goes aside. -/
theorem step_aside {m : ControlMove} (h : s.step m = some t) (hread : m ≠ .read)
    (hrequest : ∀ rc, m ≠ .hostRequest rc) (hcomplete : ∀ done, m ≠ .sendComplete done) :
    Aside s t := by
  cases m with
  | read => exact absurd rfl hread
  | hostRequest rc => exact absurd rfl (hrequest rc)
  | sendComplete done => exact absurd rfl (hcomplete done)
  | write => exact (write_step h).aside
  | transfer o => exact (transfer_step h).aside
  | injectSetup p =>
    cases h
    exact aside_of_queues (weight_enqueuePriority_free _ rfl) le_rfl
  | injectPacket p =>
    cases h
    unfold injectPacket
    split_ifs
    · exact aside_of_queues le_rfl le_rfl
    · exact aside_of_queues le_rfl (weight_enqueuePriority_free _ rfl)
    · exact aside_of_queues (weight_enqueuePriority_free _ rfl) le_rfl
  | stopReader =>
    cases h
    exact ⟨rfl, rfl, rfl, rfl, rfl, le_rfl⟩
  | wakeReader =>
    cases h
    exact aside_of_queues le_rfl (weight_enqueue_free _ rfl)
  | stopWriter =>
    cases h
    exact ⟨rfl, rfl, rfl, rfl, rfl, le_rfl⟩
  | wakeWriter =>
    cases h
    exact aside_of_queues (weight_enqueue_free _ rfl) le_rfl

/-! ## Steps of the reader -/

theorem only_of_add_le {m : Multiset ℕ} {j k : ℕ} (h : m + {j} ≤ {k}) : m = 0 ∧ j = k := by
  have hcard := Multiset.card_le_card h
  rw [Multiset.card_add, Multiset.card_singleton, Multiset.card_singleton] at hcard
  have hm : m = 0 := Multiset.card_eq_zero.1 (by omega)
  rw [hm, zero_add, Multiset.singleton_le, Multiset.mem_singleton] at h
  exact ⟨hm, h⟩

theorem hosts_handOn_le {reader : ControlReader} {p : SetupPacket} (h : s.hosts = 0) :
    { s with
      reader
      readersend := s.readersend.enqueue (.setup p (.host s.count))
      count := s.count + 1 }.hosts ≤ {s.count} := by
  have hq := weight_enqueue_le s.readersend (.setup p (.host s.count))
  calc (s.readersend.enqueue (.setup p (.host s.count))).weight Entry.hosts + s.writer.pc.hosts +
        s.writersend.weight Entry.hosts
      ≤ s.readersend.weight Entry.hosts + {s.count} + s.writer.pc.hosts +
        s.writersend.weight Entry.hosts := add_le_add_left (add_le_add_left hq _) _
    _ = s.hosts + {s.count} := by
        unfold hosts
        rw [add_right_comm _ ({s.count} : Multiset ℕ), add_right_comm _ ({s.count} : Multiset ℕ)]
    _ = {s.count} := by rw [h, zero_add]

theorem hosts_take {reader : ControlReader} {e : Entry} {writersend : SafeQueue Entry}
    (hd : s.writersend.dequeue = some (e, writersend)) :
    { s with reader, writersend }.hosts + e.hosts = s.hosts := by
  unfold hosts
  rw [SafeQueue.weight_dequeue hd, add_assoc, add_comm _ e.hosts]

theorem ReadStep.stage (h : ReadStep s t) (hc : s.Clean) (hs : s.Stage) : t.Stage := by
  cases h with
  | stop => exact hs.inTurn
  | listen hpc hdir =>
    simp only [Stage, hpc] at hs
    rcases hs with hs | ⟨k, hs⟩ | hs
    · exact ⟨hs.directionOut, hs.p, hs.hosts, hs.turns⟩
    · cases hdir.symm.trans hs.directionOut
    · cases hdir.symm.trans hs.directionOut
  | await hpc hdir hp =>
    simp only [Stage, hpc] at hs
    rcases hs with hs | ⟨k, hs⟩ | hs
    · cases hdir.symm.trans hs.directionOut
    · exact ⟨k, hs.directionOut, hs.p, hs.count, hs.hosts, hs.turns⟩
    · exact absurd hp hs.p
  | again hpc hdir hp =>
    simp only [Stage, hpc] at hs
    rcases hs with hs | ⟨k, hs⟩ | hs
    · exact absurd hs.p hp
    · exact absurd hs.p hp
    · exact ⟨hs.directionOut, hs.p, hs.hosts, hs.turns⟩
  | accept hpc =>
    simp only [Stage, hpc] at hs
    exact ⟨hs.directionOut, hs.p, hs.hosts, hs.turns⟩
  | @pass rc hpc hrc =>
    have hidle : s.Idle := by
      simp only [Stage, hpc] at hs
      cases rc with
      | setup r buf => exact absurd rfl (hrc r buf)
      | disconnect | connect | other => exact hs
    exact .inl ⟨hidle.directionOut, hidle.p, hidle.hosts, hidle.turns⟩
  | handOn hpc =>
    simp only [Stage, hpc] at hs
    refine .inr (.inl ⟨s.count, rfl, hs.p, rfl, ?_, hs.turns⟩)
    rw [add_zero]
    exact hosts_handOn_le hs.hosts
  | take hpc hd =>
    simp only [Stage, hpc] at hs
    obtain ⟨k, hs⟩ := hs
    refine ⟨(hc.writersend.dequeue hd).1, k, hs.directionOut, hs.p, hs.count, ?_, hs.turns⟩
    rw [hosts_take hd]
    exact (Multiset.le_add_right ..).trans hs.hosts
  | skip hpc he =>
    simp only [Stage, hpc] at hs
    obtain ⟨-, k, hs⟩ := hs
    have hhosts := hs.hosts
    rw [hosts_of_not_setup he] at hhosts
    exact .inr (.inl ⟨k, hs.directionOut, hs.p, hs.count, hhosts, hs.turns⟩)
  | @reply p origin hpc =>
    simp only [Stage, hpc] at hs
    obtain ⟨he, k, hs⟩ := hs
    cases origin with
    | injected => exact absurd rfl (he p)
    | host j =>
      obtain ⟨hzero, rfl⟩ := only_of_add_le hs.hosts
      refine ⟨hs.directionOut, by simp, hzero, ?_⟩
      show (s.log ++ [_]).map ControlEvent.turn = script .host s.count
      rw [List.map_append, hs.count, script_succ, ← hs.turns]
      rfl
  | settle hpc =>
    simp only [Stage, hpc] at hs
    exact ⟨hs.directionOut, hs.p, hs.hosts, hs.turns⟩

theorem hostRequest_stage {rc : HostRequest} (h : s.hostRequest rc = some t) (hs : s.Stage) :
    t.Stage := by
  unfold hostRequest at h
  split_ifs at h with hpc
  cases h
  simp only [Stage, hpc] at hs
  cases rc with
  | setup r buf =>
    refine ⟨hs.directionOut, hs.p, hs.hosts, ?_⟩
    show (s.log ++ [_]).map ControlEvent.turn = _
    rw [List.map_append, ← hs.turns]
    rfl
  | disconnect | connect | other => exact ⟨hs.directionOut, hs.p, hs.hosts, hs.turns⟩

theorem sendComplete_stage {done : Bool} (h : s.sendComplete done = some t) (hs : s.Stage) :
    t.Stage := by
  unfold sendComplete at h
  split_ifs at h with hpc hdone <;> cases h <;> simp only [Stage, hpc] at hs
  · exact .inl ⟨rfl, rfl, hs.hosts, hs.turns⟩
  · exact .inr (.inr ⟨hs.directionOut, hs.p, hs.hosts, hs.turns⟩)

/-- Every step goes on with the dialogue or leaves it as it is. -/
theorem step_stage {m : ControlMove} (h : s.step m = some t) (hc : s.Clean) (hs : s.Stage) :
    t.Stage := by
  cases m with
  | read => exact (read_step h).stage hc hs
  | hostRequest rc => exact hostRequest_stage h hs
  | sendComplete done => exact sendComplete_stage h hs
  | write | transfer | injectSetup | injectPacket | stopReader | wakeReader | stopWriter |
    wakeWriter => exact hs.aside (step_aside h (by simp) (by simp) (by simp))

/-! ## Steps on the way back -/

/-- An injected setup packet in the writer's hands is discarded, its transmit flags down behind the
out-phase filters. -/
def DropsInjected (s : ControlRelay) : ControlMove → Prop
  | .transfer _ => match s.writer.pc with
    | .handling p .injected => s.writer.state.request p = none
    | _ => True
  | _ => True

instance (s : ControlRelay) (m : ControlMove) : Decidable (s.DropsInjected m) := by
  unfold DropsInjected
  split
  · split <;> infer_instance
  · infer_instance

theorem ReadStep.clean (h : ReadStep s t) (hc : s.Clean) : t.Clean := by
  refine ⟨?_, by cases h <;> exact hc.hands⟩
  cases h with
  | take hpc hd => exact (hc.writersend.dequeue hd).2
  | stop | listen | await | again | accept | pass | handOn | skip | reply | settle =>
    exact hc.writersend

theorem WriteStep.clean (h : WriteStep s t) (hc : s.Clean) : t.Clean := by
  cases h with
  | @handBack p origin hpc =>
    refine ⟨hc.writersend.enqueue ?_, by rintro p ⟨⟩⟩
    rintro p' ⟨⟩
    exact hc.hands p hpc
  | stop | next | take | skip | handle => exact ⟨hc.writersend, by rintro p ⟨⟩⟩

theorem TransferStep.clean {o : Outcome} (h : TransferStep s t) (hd : s.DropsInjected (.transfer o))
    (hc : s.Clean) : t.Clean := by
  refine ⟨by cases h <;> exact hc.writersend, ?_⟩
  cases h with
  | discard => rintro p ⟨⟩
  | relay p' state hpc hreq =>
    rintro p ⟨⟩
    simp only [DropsInjected, hpc] at hd
    exact hreq hd

theorem step_clean {m : ControlMove} (h : s.step m = some t) (hd : s.DropsInjected m)
    (hc : s.Clean) : t.Clean := by
  cases m with
  | read => exact (read_step h).clean hc
  | hostRequest rc =>
    simp only [step, hostRequest] at h
    split_ifs at h
    cases h
    exact ⟨hc.writersend, hc.hands⟩
  | sendComplete done =>
    simp only [step, sendComplete] at h
    split_ifs at h <;> cases h <;> exact ⟨hc.writersend, hc.hands⟩
  | write => exact (write_step h).clean hc
  | transfer o => exact (transfer_step h).clean hd hc
  | injectSetup p => cases h; exact ⟨hc.writersend, hc.hands⟩
  | injectPacket p =>
    cases h
    unfold injectPacket
    split_ifs
    · exact hc
    · exact ⟨hc.writersend.enqueuePriority (by rintro p ⟨⟩), hc.hands⟩
    · exact ⟨hc.writersend, hc.hands⟩
  | stopReader => cases h; exact ⟨hc.writersend, hc.hands⟩
  | wakeReader => cases h; exact ⟨hc.writersend.enqueue (by rintro p ⟨⟩), hc.hands⟩
  | stopWriter => cases h; exact ⟨hc.writersend, hc.hands⟩
  | wakeWriter => cases h; exact ⟨hc.writersend, hc.hands⟩

/-! ## Whole runs -/

theorem stage_new (filters : List Plugin) (length : ℤ) (device : Device) :
    (new filters length device).Stage :=
  .inl ⟨rfl, rfl, rfl, rfl⟩

theorem clean_new (filters : List Plugin) (length : ℤ) (device : Device) :
    (new filters length device).Clean :=
  ⟨by rintro e ⟨⟩, by rintro p ⟨⟩⟩

/-- **Replies go to their requests.**  In every interleaving in which the writer discards whatever
setup packet an injector puts in, each reply the reader gives is to the host request it read last and
has not answered before; so the `k`-th reply answers the `k`-th request. -/
theorem replies_inTurn (filters : List Plugin) (length : ℤ) (device : Device)
    (moves : List ControlMove) (s : ControlRelay)
    (hrun : Runs.run step (new filters length device) moves = some s)
    (hdrop : Runs.Along step DropsInjected (new filters length device) moves) :
    InTurn Origin.host s.turns ∧
      ∀ (k : ℕ) (origin : Origin),
        (s.turns.filterMap Turn.answers?)[k]? = some origin → origin = .host k := by
  have hinv : s.Clean ∧ s.Stage :=
    Runs.invariant_of_along (fun t : ControlRelay => t.Clean ∧ t.Stage)
      (fun _ _ _ h hd hi => ⟨step_clean h hd hi.1, step_stage h hi.1 hi.2⟩) hdrop hrun
      ⟨clean_new filters length device, stage_new filters length device⟩
  exact ⟨hinv.2.inTurn, fun _ _ => hinv.2.inTurn.answer_eq⟩

/-- An injected request with its transmit flag down, then a host request to the end. -/
def droppedThenAnswered : List ControlMove :=
  [.injectSetup { getDescriptor 18 with transmitOut := false }, .write, .write, .write,
    .transfer .failure, .read, .hostRequest (.setup (getDescriptor 18).ctrlReq none), .read, .read,
    .read, .write, .write, .write, .transfer .failure, .write, .read, .read, .read,
    .sendComplete true]

/-- The host gets the stall of its own request. -/
theorem replies_inTurn_dropped :
    ∃ s, Runs.run step (new [] 0 .bare) droppedThenAnswered = some s ∧
      s.turns = [.ask (.host 0), .answer (.host 0)] ∧ InTurn Origin.host s.turns :=
  ⟨_, rfl, rfl, (replies_inTurn [] 0 .bare droppedThenAnswered _ rfl (by decide)).1⟩

/-- An injected request is relayed, and its reply waits when the host asks. -/
def injectedFirst : List ControlMove :=
  [.injectSetup (getDescriptor 18), .write, .write, .write, .transfer .failure, .write, .read,
    .hostRequest (.setup (getDescriptor 8).ctrlReq none), .read, .read, .read, .read, .read]

/-- The host gets the stall of a request it never made. -/
theorem not_inTurn_injected :
    ¬ ∀ s, Runs.run step (new [] 0 .bare) injectedFirst = some s → ∀ (k : ℕ) (origin : Origin),
      (s.turns.filterMap Turn.answers?)[k]? = some origin → origin = .host k := by
  intro h
  cases h _ rfl 0 .injected rfl

end ControlRelay

end UsbProxy
