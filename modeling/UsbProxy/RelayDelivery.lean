import UsbProxy.Library.Shuffles
import UsbProxy.ZlpThrottling

/-!
# What a data relay delivers

Between `receive_data` of one proxy and `send_data` of the other a packet is held by the reader, by one
of the two lanes or by the writer.  `relay_delivers` accounts for every packet the writer took out of the
queue, `relay_transparent` follows the packets from one proxy to the other, and `relay_drains` says that
the two threads never leave one behind: from every reachable state they can go on until the queue is empty
and all of it has been handed over.
-/

namespace UsbProxy

open Shuffles Thinning

/-! ## The writer's log -/

def WriterEvent.dequeued? : WriterEvent → Option Packet
  | .dequeue p => p
  | _ => none

def WriterEvent.sent? : WriterEvent → Option Packet
  | .sendData p => some p
  | _ => none

namespace DataWriter

def dequeued (w : DataWriter) : List Packet := w.events.filterMap WriterEvent.dequeued?

def sent (w : DataWriter) : List Packet := w.events.filterMap WriterEvent.sent?

def held (w : DataWriter) : List Packet :=
  match w.pc with
  | .dequeued | .filtered => w.p.toList
  | _ => []

end DataWriter

/-- What waits in the queue, in the order in which it is taken out. -/
def Traffic.pending (t : Traffic) : List Packet :=
  Lane.filled t.queue.qPriority ++ Lane.filled t.queue.q

theorem Traffic.exists_dequeue {t : Traffic} (h : t.queue.size ≠ 0) : ∃ item u,
    t.dequeue = some (item, u) ∧ u.queue.size + 1 = t.queue.size ∧
      t.pending = item.toList ++ u.pending := by
  obtain ⟨⟨q, qPriority⟩, _, _, _, _⟩ := t
  cases qPriority with
  | cons item rest =>
    refine ⟨item, _, rfl, ?_, ?_⟩
    · simp only [SafeQueue.size, List.length_cons]
      omega
    · simp only [pending, Lane.filled_cons, List.append_assoc]
  | nil =>
    cases q with
    | nil => exact absurd rfl h
    | cons item rest =>
      refine ⟨item, _, rfl, ?_, ?_⟩
      · simp only [SafeQueue.size, List.length_cons]
        omega
      · simp only [pending, Lane.filled_cons]
        rfl

/-- The packets that ask to be handed over. -/
def transmitted (ps : List Packet) : List Packet := ps.filter Packet.transmit

@[simp] theorem transmitted_nil : transmitted [] = [] := rfl

theorem transmitted_append (ps qs : List Packet) :
    transmitted (ps ++ qs) = transmitted ps ++ transmitted qs := List.filter_append ..

theorem transmitted_of_transmit {p : Packet} (h : p.transmit = true) : transmitted [p] = [p] :=
  List.filter_cons_of_pos h

theorem transmitted_of_withheld {p : Packet} (h : p.transmit = false) : transmitted [p] = [] :=
  List.filter_cons_of_neg (by rw [h]; exact Bool.false_ne_true)

namespace DataMove

def injects : DataMove → Bool
  | .inject _ => true
  | _ => false

/-- The packet an injector puts in. -/
def injected : DataMove → List Packet
  | .inject p => [p]
  | _ => []

/-- A thread going on by itself, with the other proxy completing what it was handed. -/
def IsOwn : DataMove → Prop
  | .read | .write => True
  | .waitComplete done => done = true
  | _ => False

end DataMove

namespace DataRelay

variable {charSigned : Bool} {s t u : DataRelay} {m : DataMove} {endpoint : Byte}

/-- Every packet taken out of a lane is in the log, and but for a stop every one in front of the held one
has been handed over if it asks for it. -/
structure Delivers (s : DataRelay) : Prop where
  merged : Shuffle s.traffic.relayedDequeued s.traffic.injectedDequeued s.writer.dequeued
  prefixed : s.writer.sent <+: transmitted s.writer.dequeued
  handed : s.writer.pc ≠ .finished →
    ∃ front, s.writer.dequeued = front ++ s.writer.held ∧ s.writer.sent = transmitted front

theorem delivers_new (endpoint : Byte) (filters : List Plugin) : Delivers (new endpoint filters) :=
  ⟨.nil, List.prefix_refl [], fun _ => ⟨[], rfl, rfl⟩⟩

theorem Delivers.of_handed (h : s.Delivers) (moved : List Packet)
    (hrelayed : t.traffic.relayedDequeued = s.traffic.relayedDequeued)
    (hinjected : t.traffic.injectedDequeued = s.traffic.injectedDequeued)
    (hdequeued : t.writer.dequeued = s.writer.dequeued)
    (hpc : s.writer.pc ≠ .finished) (hheld : s.writer.held = moved ++ t.writer.held)
    (hsent : t.writer.sent = s.writer.sent ++ transmitted moved) : t.Delivers := by
  obtain ⟨front, hfront, hsent'⟩ := h.handed hpc
  have heq : t.writer.dequeued = (front ++ moved) ++ t.writer.held := by
    rw [hdequeued, hfront, hheld, List.append_assoc]
  have hsent'' : t.writer.sent = transmitted (front ++ moved) := by
    rw [hsent, hsent', transmitted_append]
  refine ⟨?_, ?_, fun _ => ⟨_, heq, hsent''⟩⟩
  · rw [hrelayed, hinjected, hdequeued]
    exact h.merged
  · rw [heq, hsent'', transmitted_append (front ++ moved)]
    exact List.prefix_append _ _

theorem Delivers.of_writer (h : s.Delivers) (hwriter : t.writer = s.writer)
    (hrelayed : t.traffic.relayedDequeued = s.traffic.relayedDequeued)
    (hinjected : t.traffic.injectedDequeued = s.traffic.injectedDequeued) : t.Delivers := by
  obtain ⟨hmerged, hprefixed, hhanded⟩ := h
  rw [← hrelayed, ← hinjected, ← hwriter] at hmerged
  rw [← hwriter] at hprefixed hhanded
  exact ⟨hmerged, hprefixed, hhanded⟩

/-! ## One step of the writer -/

/-- A writer with a packet behind the filters: it stops, or hands the packet over or withholds it as
`transmit` says. -/
theorem write_filtered {p : Packet} (h : s.write charSigned = some t) (hpc : s.writer.pc = .filtered)
    (hp : s.writer.p = some p) :
    t = { s with writer := { s.writer with pc := .finished, pleaseStop := false } } ∨
      (p.transmit = true ∧ t = { s with writer := { s.writer with
        pc := .top, writing := true, events := s.writer.events ++ [.sendData p] } }) ∨
      (p.transmit = false ∧ t = { s with writer := { s.writer with pc := .top } }) := by
  unfold write at h
  simp only [hpc] at h
  split_ifs at h with hstop
  · cases h; exact .inl rfl
  · split at h
    next => cases h
    next q hq =>
      obtain rfl : q = p := Option.some.inj (hq.symm.trans hp)
      split_ifs at h with htransmit
      · cases h; exact .inr (.inl ⟨htransmit, rfl⟩)
      · cases h; exact .inr (.inr ⟨by simpa using htransmit, rfl⟩)

theorem write_ne_finished (h : s.write charSigned = some t) : s.writer.pc ≠ .finished := by
  intro hpc
  unfold write at h
  simp only [hpc] at h
  cases h

section Log

variable {w : DataWriter} {es : List WriterEvent} {e : WriterEvent}

theorem dequeued_append (h : w.events = es ++ [e]) :
    w.dequeued = es.filterMap WriterEvent.dequeued? ++ e.dequeued?.toList := by
  unfold DataWriter.dequeued
  rw [h, List.filterMap_append]
  cases he : e.dequeued? <;> simp [he]

theorem sent_append (h : w.events = es ++ [e]) :
    w.sent = es.filterMap WriterEvent.sent? ++ e.sent?.toList := by
  unfold DataWriter.sent
  rw [h, List.filterMap_append]
  cases he : e.sent? <;> simp [he]

end Log

theorem held_of_pc {w : DataWriter} (h : w.pc ≠ .dequeued ∧ w.pc ≠ .filtered) : w.held = [] := by
  unfold DataWriter.held
  split
  · next hpc => exact absurd hpc h.1
  · next hpc => exact absurd hpc h.2
  · rfl

theorem Delivers.stop (h : s.Delivers) :
    Delivers { s with writer := { s.writer with pc := .finished, pleaseStop := false } } :=
  ⟨h.merged, h.prefixed, fun hpc => absurd rfl hpc⟩

theorem Delivers.dequeue {item : Option Packet} {traffic : Traffic} (h : s.Delivers)
    (hpc : s.writer.pc = .dequeuing) (hd : s.traffic.dequeue = some (item, traffic)) :
    Delivers { s with
      writer := { s.writer with
        pc := .dequeued, p := item, events := s.writer.events ++ [.dequeue item] }
      traffic } := by
  obtain ⟨front, hfront, hsent⟩ := h.handed (by rw [hpc]; decide)
  rw [held_of_pc (by rw [hpc]; decide), List.append_nil] at hfront
  have hlog : ∀ w : DataWriter, w.events = s.writer.events ++ [.dequeue item] →
      w.dequeued = s.writer.dequeued ++ item.toList ∧ w.sent = s.writer.sent := fun w hw =>
    ⟨dequeued_append hw, (sent_append hw).trans (List.append_nil _)⟩
  obtain ⟨hdequeued, hsent'⟩ := hlog { s.writer with
    pc := .dequeued, p := item, events := s.writer.events ++ [.dequeue item] } rfl
  refine ⟨?_, ?_, fun _ => ⟨front, ?_, ?_⟩⟩ <;> dsimp only
  · rw [hdequeued]
    rcases Traffic.dequeue_cases hd with ⟨rest, -, rfl⟩ | ⟨rest, -, -, rfl⟩
    · exact h.merged.right_option item
    · exact h.merged.left_option item
  · rw [hdequeued, hsent', transmitted_append, hfront, hsent]
    exact List.prefix_append _ _
  · rw [hdequeued, hfront]
    rfl
  · rw [hsent', hsent]

theorem Delivers.send {p : Packet} (h : s.Delivers) (hpc : s.writer.pc ≠ .finished)
    (hheld : s.writer.held = [p]) (htransmit : p.transmit = true) :
    Delivers { s with writer := { s.writer with
      pc := .top, writing := true, events := s.writer.events ++ [.sendData p] } } := by
  have hlog : ∀ w : DataWriter, w.events = s.writer.events ++ [.sendData p] →
      w.dequeued = s.writer.dequeued ∧ w.sent = s.writer.sent ++ [p] := fun w hw =>
    ⟨(dequeued_append hw).trans (List.append_nil _), sent_append hw⟩
  obtain ⟨hdequeued, hsent⟩ := hlog { s.writer with
    pc := .top, writing := true, events := s.writer.events ++ [.sendData p] } rfl
  refine h.of_handed [p] rfl rfl hdequeued hpc hheld ?_
  rw [transmitted_of_transmit htransmit]
  exact hsent

theorem Delivers.write (h : s.Delivers) (hstep : s.write charSigned = some t) : t.Delivers := by
  have hpc := write_ne_finished hstep
  have hsame : ∀ w : DataWriter, w.sent = w.sent ++ transmitted [] := fun w =>
    (List.append_nil w.sent).symm
  cases write_step hstep with
  | stop => exact h.stop
  | wait hpc' _ | next hpc' _ =>
    exact h.of_handed [] rfl rfl rfl hpc (held_of_pc (by rw [hpc']; decide)) (hsame _)
  | dequeue hpc' hd => exact h.dequeue hpc' hd
  | skip hpc' hp =>
    refine h.of_handed [] rfl rfl rfl hpc ?_ (hsame _)
    unfold DataWriter.held
    rw [hpc', hp]
    rfl
  | filter filters hpc' hp =>
    refine h.of_handed [] rfl rfl rfl hpc ?_ (hsame _)
    unfold DataWriter.held
    rw [hpc', hp]
    rfl
  | @send p hpc' hp | @withhold p hpc' hp =>
    have hheld : s.writer.held = [p] := by
      unfold DataWriter.held
      rw [hpc', hp]
      rfl
    rcases write_filtered hstep hpc' hp with heq | ⟨htransmit, heq⟩ | ⟨htransmit, heq⟩
    · rw [heq]
      exact h.stop
    · rw [heq]
      exact h.send hpc hheld htransmit
    · rw [heq]
      refine h.of_handed [p] rfl rfl rfl hpc hheld ?_
      rw [transmitted_of_withheld htransmit]
      exact hsame _

/-- All a move other than the writer's own can do to the writer and to what was taken out. -/
theorem step_other (h : s.step charSigned m = some t) (hm : m ≠ .write) :
    t.traffic.relayedDequeued = s.traffic.relayedDequeued ∧
      t.traffic.injectedDequeued = s.traffic.injectedDequeued ∧
      (t.writer = s.writer ∨ t.writer = { s.writer with pleaseStop := true } ∨
        ∃ done, s.writer.pc = .waiting ∧ t.writer = { s.writer with
          pc := .top, writing := !done, events := s.writer.events ++ [.waitComplete done] }) := by
  cases m with
  | write => exact absurd rfl hm
  | read =>
    obtain ⟨hwriter, htraffic | ⟨p, htraffic⟩⟩ := read_cases h <;> rw [htraffic]
    · exact ⟨rfl, rfl, .inl hwriter⟩
    · exact ⟨rfl, rfl, .inl hwriter⟩
  | receive buf length =>
    simp only [step] at h
    split_ifs at h
    cases h
    exact ⟨rfl, rfl, .inl rfl⟩
  | waitComplete done =>
    simp only [step] at h
    split_ifs at h with hpc
    cases h
    exact ⟨rfl, rfl, .inr (.inr ⟨done, hpc, rfl⟩)⟩
  | inject p => cases h; exact ⟨rfl, rfl, .inl rfl⟩
  | stopReader => cases h; exact ⟨rfl, rfl, .inl rfl⟩
  | stopWriter => cases h; exact ⟨rfl, rfl, .inr (.inl rfl)⟩
  | wakeWriter => cases h; exact ⟨rfl, rfl, .inl rfl⟩

theorem step_delivers (h : s.step charSigned m = some t) (hd : s.Delivers) : t.Delivers := by
  by_cases hm : m = .write
  · subst hm
    exact hd.write h
  obtain ⟨hrelayed, hinjected, hwriter | hwriter | ⟨done, hpc, hwriter⟩⟩ := step_other h hm
  · exact hd.of_writer hwriter hrelayed hinjected
  · obtain ⟨hmerged, hprefixed, hhanded⟩ := hd
    constructor
    · rw [hrelayed, hinjected, hwriter]
      exact hmerged
    · rw [hwriter]
      exact hprefixed
    · rw [hwriter]
      exact hhanded
  · refine hd.of_handed [] hrelayed hinjected ?_ (by rw [hpc]; decide) ?_ ?_
    · rw [hwriter]
      exact (dequeued_append rfl).trans (List.append_nil _)
    · rw [hwriter]
      exact held_of_pc (by rw [hpc]; decide)
    · rw [hwriter]
      exact (sent_append rfl).trans rfl

/-- **Every packet taken out of the queue.**  After any interleaving: the packets taken out are the relayed
and the injected ones taken out, merged; those handed over are the first of them that ask for it, in that
order; and as long as the writer has not stopped, all of them but the one it may be holding. -/
theorem relay_delivers (charSigned : Bool) (endpoint : Byte) (filters : List Plugin)
    (moves : List DataMove) (s : DataRelay)
    (hrun : Runs.run (step charSigned) (new endpoint filters) moves = some s) :
    Shuffle s.traffic.relayedDequeued s.traffic.injectedDequeued s.writer.dequeued ∧
    s.writer.sent <+: transmitted s.writer.dequeued ∧
    (s.writer.pc ≠ .finished → ∃ front, s.writer.dequeued = front ++ s.writer.held ∧
      s.writer.sent = transmitted front) := by
  obtain ⟨hmerged, hprefixed, hhanded⟩ : s.Delivers :=
    Runs.invariant Delivers (fun _ _ _ h => step_delivers h) hrun (delivers_new endpoint filters)
  exact ⟨hmerged, hprefixed, hhanded⟩

/-- A relayed and an injected packet, the writer going on until it has handed over the injected one. -/
theorem relay_delivers_injected_first :
    ∃ s, Runs.run (step true) (new 0x81 []) (relayThenInject ++ [.write, .write]) = some s ∧
      s.writer.sent = [Packet.new 0x81 (some [2]) 1] ∧
      Shuffle s.traffic.relayedDequeued s.traffic.injectedDequeued s.writer.dequeued :=
  ⟨_, rfl, rfl, (relay_delivers true 0x81 [] (relayThenInject ++ [.write, .write]) _ rfl).1⟩

/-! ## From one proxy to the other -/

theorem injected_step (h : s.step charSigned m = some t) :
    t.traffic.injected = s.traffic.injected ++ m.injected := by
  unfold DataMove.injected
  cases m with
  | inject p => cases h; rfl
  | read =>
    rw [List.append_nil]
    rcases (read_cases h).2 with htraffic | ⟨p, htraffic⟩ <;> rw [htraffic]
    rfl
  | write =>
    rw [List.append_nil]
    rcases (write_step h).traffic with htraffic | ⟨p, hd⟩
    · rw [htraffic]
    · rcases Traffic.dequeue_cases hd with ⟨rest, -, heq⟩ | ⟨rest, -, -, heq⟩ <;> rw [heq]
  | receive buf length =>
    simp only [step] at h
    split_ifs at h
    cases h
    exact (List.append_nil _).symm
  | waitComplete done =>
    simp only [step] at h
    split_ifs at h
    cases h
    exact (List.append_nil _).symm
  | stopReader => cases h; exact (List.append_nil _).symm
  | stopWriter => cases h; exact (List.append_nil _).symm
  | wakeWriter => cases h; exact (List.append_nil _).symm

theorem step_injected (h : s.step charSigned m = some t) (hm : m.injects = false)
    (hs : s.traffic.injected = []) : t.traffic.injected = [] := by
  rw [injected_step h, hs]
  cases m with
  | inject p => cases hm
  | _ => rfl

/-- What the reader has passed on and what it holds are some of what arrived. -/
theorem step_relayed {past : List Packet} (h : s.step charSigned m = some t)
    (hs : (s.traffic.relayed ++ s.reader.pc.held s.endpoint).Sublist past) :
    (t.traffic.relayed ++ t.reader.pc.held t.endpoint).Sublist
      (past ++ m.arrivals s.endpoint) ∧ t.endpoint = s.endpoint := by
  have hfront : s.traffic.relayed.Sublist past := (List.sublist_append_left _ _).trans hs
  unfold DataMove.arrivals
  cases m with
  | read =>
    rw [List.append_nil]
    cases read_step h with
    | stop | receive | nothing | drop => exact ⟨(List.append_nil _).symm ▸ hfront, rfl⟩
    | @data buf length hpc hlength =>
      have hheld : ReaderPc.held s.endpoint (.received buf length) =
          [Packet.new s.endpoint buf (UInt16.ofInt length)] := if_pos hlength
      rw [hpc, hheld] at hs
      exact ⟨hs, rfl⟩
    | first hpc | test hpc | pass hpc =>
      rw [hpc] at hs
      exact ⟨hs, rfl⟩
    | send hpc =>
      rw [hpc] at hs
      exact ⟨(List.append_nil _).symm ▸ hs, rfl⟩
  | write =>
    rw [List.append_nil]
    cases write_step h with
    | dequeue _ hd =>
      rcases Traffic.dequeue_cases hd with ⟨rest, -, heq⟩ | ⟨rest, -, -, heq⟩ <;> rw [heq] <;>
        exact ⟨hs, rfl⟩
    | _ => exact ⟨hs, rfl⟩
  | receive buf length =>
    simp only [step] at h
    split_ifs at h with hpc
    cases h
    exact ⟨hfront.append (List.Sublist.refl _), rfl⟩
  | waitComplete done =>
    simp only [step] at h
    split_ifs at h
    cases h
    exact ⟨(List.append_nil past).symm ▸ hs, rfl⟩
  | inject p => cases h; exact ⟨(List.append_nil past).symm ▸ hs, rfl⟩
  | stopReader => cases h; exact ⟨(List.append_nil past).symm ▸ hs, rfl⟩
  | stopWriter => cases h; exact ⟨(List.append_nil past).symm ▸ hs, rfl⟩
  | wakeWriter => cases h; exact ⟨(List.append_nil past).symm ▸ hs, rfl⟩

/-- What the writer hands over comes from the reader's proxy or from an injector. -/
theorem exists_sources {filters : List Plugin} {moves : List DataMove}
    (hrun : Runs.run (step charSigned) (new endpoint filters) moves = some s) :
    ∃ relayed injected merged, s.writer.sent <+: transmitted merged ∧
      Shuffle relayed injected merged ∧ relayed.Sublist (moves.flatMap (DataMove.arrivals endpoint)) ∧
      injected.Sublist (moves.flatMap DataMove.injected) := by
  have hdelivers : s.Delivers :=
    Runs.invariant Delivers (fun _ _ _ h => step_delivers h) hrun (delivers_new endpoint filters)
  have hordered : s.traffic.Ordered :=
    Runs.invariant (fun t : DataRelay => t.traffic.Ordered) (fun _ _ _ h => step_ordered h) hrun
      Traffic.ordered_new
  have hrelayed : (s.traffic.relayed ++ s.reader.pc.held s.endpoint).Sublist
      ([] ++ moves.flatMap (DataMove.arrivals endpoint)) ∧ s.endpoint = endpoint := by
    refine Runs.invariant_of_history (fun (t : DataRelay) past =>
      (t.traffic.relayed ++ t.reader.pc.held t.endpoint).Sublist past ∧ t.endpoint = endpoint)
      (fun t m u past h _ ht => ?_) (Runs.along_true _ _) hrun ⟨List.Sublist.refl [], rfl⟩
    obtain ⟨hsub, hend⟩ := step_relayed h ht.1
    rw [ht.2] at hsub hend
    exact ⟨hsub, hend⟩
  have hinjected : s.traffic.injected = [] ++ moves.flatMap DataMove.injected :=
    Runs.invariant_of_history (fun (t : DataRelay) past => t.traffic.injected = past)
      (fun _ _ _ _ h _ ht => by rw [injected_step h, ht]) (Runs.along_true _ _) hrun rfl
  refine ⟨_, _, _, hdelivers.prefixed, hdelivers.merged, ?_, ?_⟩
  · exact hordered.relayed.taken_sublist.trans ((List.sublist_append_left _ _).trans hrelayed.1)
  · rw [List.nil_append] at hinjected
    rw [← hinjected]
    exact hordered.injected.taken_sublist

theorem transmit_of_mem_receivedPacket {buf : Option (List Byte)} {length : ℤ} {p : Packet}
    (h : p ∈ receivedPacket endpoint buf length) : p.transmit = true := by
  unfold receivedPacket at h
  split_ifs at h
  · rw [List.mem_singleton.1 h]
    rfl
  · obtain ⟨b, -, rfl⟩ := List.mem_map.1 h
    rfl

theorem transmit_of_mem_arrivals {p : Packet} (h : p ∈ m.arrivals endpoint) : p.transmit = true := by
  cases m with
  | receive buf length => exact transmit_of_mem_receivedPacket h
  | _ => exact absurd h List.not_mem_nil

/-- With nothing injected, what the relay has of packets that all ask to be handed over. -/
theorem Delivers.relayed_thinned {past : List Packet} (h : s.Delivers)
    (hthins : Thins endpoint s past) (hordered : s.traffic.Ordered)
    (hinjected : s.traffic.injected = []) (htransmit : ∀ p ∈ past, p.transmit = true)
    (hreader : s.reader.pc ≠ .finished) (hwriter : s.writer.pc ≠ .finished) :
    ∃ decided, past = decided ++ s.reader.pc.held endpoint ∧
      Thinned Packet.IsZlp decided (s.writer.sent ++ s.writer.held ++ s.waiting) := by
  obtain ⟨decided, hpast, hthin, -⟩ := hthins.selects hreader
  rw [hthins.endpoint] at hpast
  refine ⟨decided, hpast, ?_⟩
  -- All that was taken out was relayed, so it arrived and asks to be handed over.
  have htaken : s.writer.dequeued = s.traffic.relayedDequeued := by
    have hnone : s.traffic.injectedDequeued = [] := by
      have := hordered.injected.taken_sublist
      rw [hinjected] at this
      exact List.sublist_nil.1 this
    have hmerged := h.merged
    rw [hnone] at hmerged
    exact hmerged.eq_of_nil_right
  obtain ⟨front, hfront, hsent⟩ := h.handed hwriter
  have hall : ∀ p ∈ front, p.transmit = true := by
    intro p hp
    apply htransmit
    rw [hpast]
    apply List.mem_append_left
    apply hthin.sublist.subset
    apply hordered.relayed.taken_sublist.subset
    rw [← htaken, hfront]
    exact List.mem_append_left _ hp
  have hhanded : s.writer.sent ++ s.writer.held = s.traffic.relayedDequeued := by
    rw [← htaken, hfront, hsent, transmitted, List.filter_eq_self.2 hall]
  rw [hhanded, hthins.lossless]
  exact hthin

/-- **Transparency.**  In a run with room in the lane and no injected packet, with both threads still
going: of the packets that arrived, the reader holds the last or none, and the others are, in their order,
handed over, in the writer's hands or waiting, with nothing left out but zero-length packets directly
behind another one. -/
theorem relay_transparent (charSigned : Bool) (endpoint : Byte) (filters : List Plugin)
    (moves : List DataMove) (s : DataRelay)
    (hrun : Runs.run (step charSigned) (new endpoint filters) moves = some s)
    (hP : Runs.Along (step charSigned)
      (fun t m => t.traffic.queue.q.length < QUEUE_MAX ∧ m.injects = false)
      (new endpoint filters) moves)
    (hreader : s.reader.pc ≠ .finished) (hwriter : s.writer.pc ≠ .finished) :
    ∃ decided, moves.flatMap (DataMove.arrivals endpoint) = decided ++ s.reader.pc.held endpoint ∧
      Thinned Packet.IsZlp decided (s.writer.sent ++ s.writer.held ++ s.waiting) := by
  have hdelivers : s.Delivers :=
    Runs.invariant Delivers (fun _ _ _ h => step_delivers h) hrun (delivers_new endpoint filters)
  have hthins : Thins endpoint s ([] ++ moves.flatMap (DataMove.arrivals endpoint)) :=
    Runs.invariant_of_history (Thins endpoint)
      (fun _ _ _ _ hstep hP h => h.step hstep hP.1) hP hrun (thins_new endpoint filters)
  have hordered : s.traffic.Ordered :=
    Runs.invariant (fun t : DataRelay => t.traffic.Ordered) (fun _ _ _ h => step_ordered h) hrun
      Traffic.ordered_new
  have hinjected : s.traffic.injected = [] :=
    Runs.invariant_of_along (fun t : DataRelay => t.traffic.injected = [])
      (fun _ _ _ h hP => step_injected h hP.2) hP hrun rfl
  refine hdelivers.relayed_thinned hthins hordered hinjected (fun p hp => ?_) hreader hwriter
  obtain ⟨m, -, hm⟩ := List.mem_flatMap.1 hp
  exact transmit_of_mem_arrivals hm

/-- Data, two zero-length packets of which the second comes when the first is still in the lane, and data
again; the writer has taken three packets out and holds the last. -/
def relayThree : List DataMove :=
  dataThenZlps ++ [.read, .receive (some [2]) 1, .read, .read, .write, .write, .write, .write,
    .write, .waitComplete true, .write, .write, .write, .write, .write, .waitComplete true,
    .write, .write, .write]

theorem relay_transparent_relayThree :
    ∃ s, Runs.run (step true) (new 0x81 []) relayThree = some s ∧
      s.writer.sent = [Packet.new 0x81 (some [1]) 1, Packet.new 0x81 (some []) 0] ∧
      ∃ decided, relayThree.flatMap (DataMove.arrivals 0x81) = decided ++ s.reader.pc.held 0x81 ∧
        Thinned Packet.IsZlp decided (s.writer.sent ++ s.writer.held ++ s.waiting) := by
  have hP : Runs.Along (step true)
      (fun t m => t.traffic.queue.q.length < QUEUE_MAX ∧ m.injects = false) (new 0x81 []) relayThree := by
    decide
  exact ⟨_, rfl, rfl, relay_transparent true 0x81 [] relayThree _ rfl hP (by decide) (by decide)⟩

/-! ## Nothing is left behind -/

/-- What the two threads can come to without anything from outside. -/
abbrev Works (charSigned : Bool) : DataRelay → DataRelay → Prop :=
  Runs.Reaches (step charSigned) DataMove.IsOwn

/-- The writer has come round to its next dequeue and has handed over what it held. -/
structure Settles (charSigned : Bool) (s t : DataRelay) : Prop where
  works : Works charSigned s t
  pc : t.writer.pc = .dequeuing
  going : t.writer.pleaseStop = false
  reader : t.reader = s.reader
  traffic : t.traffic = s.traffic
  sent : t.writer.sent = s.writer.sent ++ transmitted s.writer.held

theorem Settles.of_works (h : Settles charSigned u t) (hworks : Works charSigned s u)
    (hreader : u.reader = s.reader) (htraffic : u.traffic = s.traffic)
    (hsent : u.writer.sent ++ transmitted u.writer.held =
      s.writer.sent ++ transmitted s.writer.held) : Settles charSigned s t :=
  ⟨hworks.trans h.works, h.pc, h.going, h.reader.trans hreader, h.traffic.trans htraffic,
    h.sent.trans hsent⟩

/-- The reader comes round to its next `receive_data`; what it held is passed on, dropped from a full
lane or left out as one zero-length packet too many. -/
structure Rests (charSigned : Bool) (s t : DataRelay) : Prop where
  works : Works charSigned s t
  pc : t.reader.pc = .receiving
  writer : t.writer = s.writer
  pending : s.traffic.pending <+: t.traffic.pending

theorem Rests.of_works (h : Rests charSigned u t) (hworks : Works charSigned s u)
    (hwriter : u.writer = s.writer) (hpending : s.traffic.pending <+: u.traffic.pending) :
    Rests charSigned s t :=
  ⟨hworks.trans h.works, h.pc, h.writer.trans hwriter, hpending.trans h.pending⟩

theorem pending_relay (T : Traffic) (p : Packet) : T.pending <+: (T.relay p).pending := by
  unfold Traffic.pending Traffic.relay
  rw [SafeQueue.enqueue_eq]
  by_cases hroom : T.queue.q.length < QUEUE_MAX
  · dsimp only
    rw [Lane.offer_of_lt hroom, Lane.filled_append_some, ← List.append_assoc]
    exact List.prefix_append _ _
  · have hsame : Lane.offer QUEUE_MAX T.queue.q (some p) = T.queue.q :=
      Lane.offer_of_le (Nat.not_lt.1 hroom)
    dsimp only
    exact hsame.symm ▸ List.prefix_refl _

theorem works_write (h : s.write charSigned = some t) : Works charSigned s t :=
  .single (i := DataMove.write) trivial h

theorem works_read (h : s.read = some t) : Works charSigned s t :=
  .single (i := DataMove.read) trivial h

theorem works_waitComplete (hpc : s.writer.pc = .waiting) :
    Works charSigned s { s with writer := { s.writer with
      pc := .top, writing := false, events := s.writer.events ++ [.waitComplete true] } } :=
  .single (i := DataMove.waitComplete true) rfl (if_pos hpc)

section Settles

variable (charSigned)

theorem settles_idle (hpc : s.writer.pc = .top) (hgo : s.writer.pleaseStop = false)
    (hwriting : s.writer.writing = false) : ∃ t, Settles charSigned s t := by
  have hnext : s.write charSigned =
      some { s with writer := { s.writer with pc := .dequeuing } } := by
    simp [write, hpc, hgo, hwriting]
  refine ⟨_, works_write hnext, rfl, hgo, rfl, rfl, ?_⟩
  rw [held_of_pc (by rw [hpc]; decide), transmitted_nil, List.append_nil]
  rfl

theorem settles_waiting (hpc : s.writer.pc = .waiting) (hgo : s.writer.pleaseStop = false) :
    ∃ t, Settles charSigned s t := by
  obtain ⟨t, ht⟩ := settles_idle charSigned (s := { s with writer :=
    { s.writer with
      pc := .top, writing := false, events := s.writer.events ++ [.waitComplete true] } }) rfl hgo rfl
  refine ⟨t, ht.of_works (works_waitComplete hpc) rfl rfl ?_⟩
  rw [held_of_pc (w := s.writer) (by rw [hpc]; decide), sent_append rfl]
  exact congrArg (· ++ _) (List.append_nil _)

theorem settles_top (hpc : s.writer.pc = .top) (hgo : s.writer.pleaseStop = false) :
    ∃ t, Settles charSigned s t := by
  by_cases hwriting : s.writer.writing = true
  · have hwait : s.write charSigned =
        some { s with writer := { s.writer with pc := .waiting } } := by
      simp [write, hpc, hgo, hwriting]
    obtain ⟨t, ht⟩ := settles_waiting charSigned
      (s := { s with writer := { s.writer with pc := .waiting } }) rfl hgo
    refine ⟨t, ht.of_works (works_write hwait) rfl rfl ?_⟩
    rw [held_of_pc (w := s.writer) (by rw [hpc]; decide)]
    rfl
  · exact settles_idle charSigned hpc hgo (by simpa using hwriting)

theorem settles_filtered {p : Packet} (hpc : s.writer.pc = .filtered)
    (hgo : s.writer.pleaseStop = false) (hp : s.writer.p = some p) :
    ∃ t, Settles charSigned s t := by
  have hheld : s.writer.held = [p] := by
    unfold DataWriter.held
    rw [hpc, hp]
    rfl
  cases htransmit : p.transmit with
  | true =>
    have hsend : s.write charSigned = some { s with writer := { s.writer with
        pc := .top, writing := true, events := s.writer.events ++ [.sendData p] } } := by
      simp [write, hpc, hgo, hp, htransmit]
    obtain ⟨t, ht⟩ := settles_top charSigned (s := { s with writer := { s.writer with
      pc := .top, writing := true, events := s.writer.events ++ [.sendData p] } }) rfl hgo
    refine ⟨t, ht.of_works (works_write hsend) rfl rfl ?_⟩
    rw [hheld, transmitted_of_transmit htransmit, sent_append rfl]
    exact List.append_nil _
  | false =>
    have hwithhold : s.write charSigned = some { s with writer := { s.writer with pc := .top } } := by
      simp [write, hpc, hgo, hp, htransmit]
    obtain ⟨t, ht⟩ := settles_top charSigned
      (s := { s with writer := { s.writer with pc := .top } }) rfl hgo
    refine ⟨t, ht.of_works (works_write hwithhold) rfl rfl ?_⟩
    rw [hheld, transmitted_of_withheld htransmit]
    rfl

theorem settles_dequeued (hpc : s.writer.pc = .dequeued) (hgo : s.writer.pleaseStop = false) :
    ∃ t, Settles charSigned s t := by
  cases hp : s.writer.p with
  | none =>
    have hskip : s.write charSigned = some { s with writer := { s.writer with pc := .top } } := by
      simp [write, hpc, hgo, hp]
    obtain ⟨t, ht⟩ := settles_top charSigned
      (s := { s with writer := { s.writer with pc := .top } }) rfl hgo
    refine ⟨t, ht.of_works (works_write hskip) rfl rfl ?_⟩
    unfold DataWriter.held
    rw [hpc, hp]
    rfl
  | some p =>
    have hfilter : s.write charSigned = some { s with writer := { s.writer with
        pc := .filtered, p := some p,
        filters := (filterStage charSigned Plugin.slot s.writer.filters p).plugins } } := by
      simp [write, hpc, hgo, hp, filterStage_slot_packet]
    obtain ⟨t, ht⟩ := settles_filtered charSigned (s := { s with writer :=
      { s.writer with
        pc := .filtered, p := some p,
        filters := (filterStage charSigned Plugin.slot s.writer.filters p).plugins } }) rfl hgo rfl
    refine ⟨t, ht.of_works (works_write hfilter) rfl rfl ?_⟩
    unfold DataWriter.held
    rw [hpc, hp]
    rfl

theorem settles (hobeys : s.writer.Obeys) (hpc : s.writer.pc ≠ .finished)
    (hgo : s.writer.pleaseStop = false) : ∃ t, Settles charSigned s t := by
  cases h : s.writer.pc with
  | top => exact settles_top charSigned h hgo
  | dequeued => exact settles_dequeued charSigned h hgo
  | waiting => exact settles_waiting charSigned h hgo
  | finished => exact absurd h hpc
  | dequeuing =>
    refine ⟨s, .refl s, h, hgo, rfl, rfl, ?_⟩
    rw [held_of_pc (by rw [h]; decide), transmitted_nil, List.append_nil]
  | filtered =>
    obtain ⟨ph, -, hfits⟩ := hobeys
    unfold DataWriter.Fits at hfits
    rw [h] at hfits
    obtain ⟨-, p, hp, -⟩ := hfits
    exact settles_filtered charSigned h hgo hp

/-- The writer takes everything out of both lanes and hands it over. -/
theorem drains (hobeys : s.writer.Obeys) (hpc : s.writer.pc ≠ .finished)
    (hgo : s.writer.pleaseStop = false) : ∃ t, Works charSigned s t ∧ t.reader = s.reader ∧
      t.writer.pc = .dequeuing ∧ t.traffic.queue.size = 0 ∧
      t.writer.sent = s.writer.sent ++ transmitted (s.writer.held ++ s.traffic.pending) := by
  obtain ⟨u, hu⟩ := settles charSigned hobeys hpc hgo
  generalize hn : s.traffic.queue.size = n
  induction n generalizing s u with
  | zero =>
    refine ⟨u, hu.works, hu.reader, hu.pc, by rw [hu.traffic, hn], ?_⟩
    have hempty : s.traffic.pending = [] := by
      unfold SafeQueue.size at hn
      have hp : s.traffic.queue.qPriority = [] := List.length_eq_zero_iff.1 (by omega)
      have hq : s.traffic.queue.q = [] := List.length_eq_zero_iff.1 (by omega)
      unfold Traffic.pending
      rw [hp, hq]
      rfl
    rw [hu.sent, hempty, List.append_nil]
  | succ n ih =>
    obtain ⟨item, traffic, hd, hsize, hpending⟩ :=
      Traffic.exists_dequeue (t := s.traffic) (by rw [hn]; exact Nat.succ_ne_zero n)
    have htake : u.write charSigned = some { u with
        writer := { u.writer with
          pc := .dequeued, p := item, events := u.writer.events ++ [.dequeue item] }
        traffic } := by
      simp [write, hu.pc, hu.traffic, hd]
    have hworks := works_write htake
    generalize hv : ({ u with
        writer := { u.writer with
          pc := .dequeued, p := item, events := u.writer.events ++ [.dequeue item] }
        traffic } : DataRelay) = v at hworks
    have hpc' : v.writer.pc ≠ .finished := by rw [← hv]; exact WriterPc.noConfusion
    have hgo' : v.writer.pleaseStop = false := by rw [← hv]; exact hu.going
    have hsent : v.writer.sent = u.writer.sent := by
      rw [← hv]
      exact (sent_append rfl).trans (List.append_nil _)
    have hheld : v.writer.held = item.toList := by rw [← hv]; rfl
    have hobeys' : v.writer.Obeys :=
      (hu.works.trans hworks).invariant (fun t : DataRelay => t.writer.Obeys)
        (fun _ _ _ h => step_obeys h) hobeys
    obtain ⟨w, hw⟩ := settles charSigned hobeys' hpc' hgo'
    have hlast : v.traffic.queue.size = n := by
      rw [← hv]
      exact Nat.succ.inj (hsize.trans hn)
    obtain ⟨t, hwt, hreader, htpc, hempty, htsent⟩ := ih hobeys' hpc' hgo' w hw hlast
    refine ⟨t, (hu.works.trans hworks).trans hwt, ?_, htpc, hempty, ?_⟩
    · rw [hreader, ← hv]
      exact hu.reader
    · have htraffic : v.traffic.pending = traffic.pending := by rw [← hv]
      rw [htsent, hsent, hu.sent, hheld, htraffic, ← hpending, transmitted_append s.writer.held,
        List.append_assoc]

theorem rests_top (hpc : s.reader.pc = .top) (hgo : s.reader.pleaseStop = false) :
    ∃ t, Rests charSigned s t := by
  have hreceive : s.read = some { s with reader := { s.reader with pc := .receiving } } := by
    simp [read, hpc, hgo]
  exact ⟨_, works_read hreceive, rfl, rfl, List.prefix_refl _⟩

theorem rests_sending {p : Packet} {zlp : Bool} (hpc : s.reader.pc = .sending p zlp)
    (hgo : s.reader.pleaseStop = false) : ∃ t, Rests charSigned s t := by
  have hsend : s.read = some { s with
      reader := { s.reader with pc := .top, zlpCount := if zlp then s.reader.zlpCount + 1 else 0 }
      traffic := s.traffic.relay p } := by
    simp [read, hpc]
  obtain ⟨t, ht⟩ := rests_top charSigned (s := { s with
      reader := { s.reader with pc := .top, zlpCount := if zlp then s.reader.zlpCount + 1 else 0 }
      traffic := s.traffic.relay p }) rfl hgo
  exact ⟨t, ht.of_works (works_read hsend) rfl (pending_relay s.traffic p)⟩

theorem rests_of_read (r : DataReader) (hread : s.read = some { s with reader := r })
    (h : ∃ t, Rests charSigned { s with reader := r } t) : ∃ t, Rests charSigned s t := by
  obtain ⟨t, ht⟩ := h
  exact ⟨t, ht.of_works (works_read hread) rfl (List.prefix_refl _)⟩

theorem rests_testing {buf : List Byte} (hpc : s.reader.pc = .testing buf)
    (hgo : s.reader.pleaseStop = false) : ∃ t, Rests charSigned s t := by
  by_cases hempty : s.traffic.queue.empty = true
  · apply rests_of_read charSigned
      { s.reader with pc := .sending (Packet.new s.endpoint (some buf) 0) true }
    · simp [read, hpc, hempty]
    · exact rests_sending charSigned rfl hgo
  · apply rests_of_read charSigned { s.reader with pc := .top, zlpCount := s.reader.zlpCount + 1 }
    · simp [read, hpc, hempty]
    · exact rests_top charSigned rfl hgo

theorem rests_received {buf : Option (List Byte)} {length : ℤ}
    (hpc : s.reader.pc = .received buf length) (hgo : s.reader.pleaseStop = false) :
    ∃ t, Rests charSigned s t := by
  by_cases hlength : length = 0
  · cases buf with
    | none =>
      apply rests_of_read charSigned { s.reader with pc := .top }
      · simp [read, hpc, hgo, hlength]
      · exact rests_top charSigned rfl hgo
    | some buf =>
      by_cases hcount : s.reader.zlpCount = 0
      · apply rests_of_read charSigned
          { s.reader with pc := .sending (Packet.new s.endpoint (some buf) 0) true }
        · simp [read, hpc, hgo, hlength, hcount]
        · exact rests_sending charSigned rfl hgo
      · apply rests_of_read charSigned { s.reader with pc := .testing buf }
        · simp [read, hpc, hgo, hlength, hcount]
        · exact rests_testing charSigned rfl hgo
  · apply rests_of_read charSigned
      { s.reader with pc := .sending (Packet.new s.endpoint buf (UInt16.ofInt length)) false }
    · simp [read, hpc, hgo, hlength]
    · exact rests_sending charSigned rfl hgo

theorem rests (hpc : s.reader.pc ≠ .finished) (hgo : s.reader.pleaseStop = false) :
    ∃ t, Rests charSigned s t := by
  cases h : s.reader.pc with
  | top => exact rests_top charSigned h hgo
  | receiving => exact ⟨s, .refl s, h, rfl, List.prefix_refl _⟩
  | received buf length => exact rests_received charSigned h hgo
  | testing buf => exact rests_testing charSigned h hgo
  | sending p zlp => exact rests_sending charSigned h hgo
  | finished => exact absurd h hpc

end Settles

/-- **Nothing is left behind.**  From every state that a run comes to before either thread is asked to
stop, the two threads can go on by themselves until the reader waits for its proxy, both lanes are empty
and the writer waits for the next packet; by then everything that was in the writer's hands and in the
queue and asks for it has been handed over, next and in this order. -/
theorem relay_drains (charSigned : Bool) (endpoint : Byte) (filters : List Plugin)
    (moves : List DataMove) (s : DataRelay)
    (hrun : Runs.run (step charSigned) (new endpoint filters) moves = some s)
    (hreader : s.reader.pc ≠ .finished ∧ s.reader.pleaseStop = false)
    (hwriter : s.writer.pc ≠ .finished ∧ s.writer.pleaseStop = false) :
    ∃ t, Works charSigned s t ∧ t.reader.pc = .receiving ∧ t.writer.pc = .dequeuing ∧
      t.traffic.queue.size = 0 ∧
      s.writer.sent ++ transmitted (s.writer.held ++ s.traffic.pending) <+: t.writer.sent := by
  have hobeys : s.writer.Obeys :=
    Runs.invariant (fun t : DataRelay => t.writer.Obeys) (fun _ _ _ h => step_obeys h) hrun
      ⟨.ready, rfl, by simp [DataWriter.Fits, new]⟩
  obtain ⟨u, hu⟩ := rests charSigned hreader.1 hreader.2
  have hobeys' : u.writer.Obeys := by rw [hu.writer]; exact hobeys
  obtain ⟨t, hworks, hreader', hpc, hempty, hsent⟩ := drains charSigned hobeys'
    (by rw [hu.writer]; exact hwriter.1) (by rw [hu.writer]; exact hwriter.2)
  refine ⟨t, hu.works.trans hworks, ?_, hpc, hempty, ?_⟩
  · rw [hreader']
    exact hu.pc
  · obtain ⟨rest, hrest⟩ := hu.pending
    rw [hsent, hu.writer, ← hrest, ← List.append_assoc, transmitted_append (_ ++ _),
      ← List.append_assoc]
    exact List.prefix_append _ _

/-- From the state with a relayed packet waiting behind the injected one just taken out. -/
theorem relay_drains_relayThenInject :
    ∃ s t, Runs.run (step true) (new 0x81 []) relayThenInject = some s ∧ Works true s t ∧
      t.traffic.queue.size = 0 ∧
      [Packet.new 0x81 (some [2]) 1, Packet.new 0x81 (some [1]) 1] <+: t.writer.sent := by
  obtain ⟨t, hworks, -, -, hempty, hsent⟩ := relay_drains true 0x81 [] relayThenInject _ rfl
    ⟨by decide, rfl⟩ ⟨by decide, rfl⟩
  exact ⟨_, t, rfl, hworks, hempty, hsent⟩

end DataRelay

end UsbProxy
