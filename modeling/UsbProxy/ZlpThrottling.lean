import UsbProxy.DataRelay
import UsbProxy.Library.Thinning

/-!
# Zero-length packets in `relay_read`

`relay_read` counts the zero-length packets since the last packet with data.  The first it passes on
always, a later one only if it finds both lanes of the queue empty; the test is outside the lock, so the
writer and the injectors go on between it and the `enqueue`.  The counter is an `unsigned`: `Counted` is
where it does not wrap and where `wLength` holds the length received.
-/

namespace UsbProxy

open Thinning

def Packet.IsZlp (p : Packet) : Prop := p.wLength = 0

instance : DecidablePred Packet.IsZlp := fun p => inferInstanceAs (Decidable (p.wLength = 0))

/-- The packet `receive_data` brought, if any: with no length a buffer makes it a zero-length packet. -/
def receivedPacket (endpoint : Byte) (buf : Option (List Byte)) (length : ℤ) : List Packet :=
  if length ≠ 0 then [Packet.new endpoint buf (UInt16.ofInt length)]
  else buf.toList.map fun buf => Packet.new endpoint (some buf) 0

/-- What a move brings the reader. -/
def DataMove.arrivals (endpoint : Byte) : DataMove → List Packet
  | .receive buf length => receivedPacket endpoint buf length
  | _ => []

/-- What the reader holds and has not decided on or not passed on yet. -/
def ReaderPc.held (endpoint : Byte) : ReaderPc → List Packet
  | .received buf length => receivedPacket endpoint buf length
  | .testing buf => [Packet.new endpoint (some buf) 0]
  | .sending p _ => [p]
  | _ => []

namespace DataRelay

/-! ## What the reader can do -/

/-- All the reader can do: stop, call `receive_data`, make a packet of what came, look at the queue, pass
a packet on or drop it. -/
inductive ReaderStep (s : DataRelay) : DataRelay → Prop
  | stop : ReaderStep s { s with reader := { s.reader with pc := .finished, pleaseStop := false } }
  | receive (hpc : s.reader.pc = .top) :
      ReaderStep s { s with reader := { s.reader with pc := .receiving } }
  | data {buf : Option (List Byte)} {length : ℤ} (hpc : s.reader.pc = .received buf length)
      (hlength : length ≠ 0) :
      ReaderStep s { s with reader :=
        { s.reader with
          pc := .sending (Packet.new s.endpoint buf (UInt16.ofInt length)) false } }
  | nothing (hpc : s.reader.pc = .received none 0) :
      ReaderStep s { s with reader := { s.reader with pc := .top } }
  | first {buf : List Byte} (hpc : s.reader.pc = .received (some buf) 0)
      (hcount : s.reader.zlpCount = 0) :
      ReaderStep s { s with reader :=
        { s.reader with pc := .sending (Packet.new s.endpoint (some buf) 0) true } }
  | test {buf : List Byte} (hpc : s.reader.pc = .received (some buf) 0)
      (hcount : s.reader.zlpCount ≠ 0) :
      ReaderStep s { s with reader := { s.reader with pc := .testing buf } }
  | pass {buf : List Byte} (hpc : s.reader.pc = .testing buf)
      (hempty : s.traffic.queue.empty = true) :
      ReaderStep s { s with reader :=
        { s.reader with pc := .sending (Packet.new s.endpoint (some buf) 0) true } }
  | drop {buf : List Byte} (hpc : s.reader.pc = .testing buf) :
      ReaderStep s { s with reader :=
        { s.reader with pc := .top, zlpCount := s.reader.zlpCount + 1 } }
  | send {p : Packet} {zlp : Bool} (hpc : s.reader.pc = .sending p zlp) :
      ReaderStep s { s with
        reader := { s.reader with
          pc := .top, zlpCount := if zlp then s.reader.zlpCount + 1 else 0 }
        traffic := s.traffic.relay p }

variable {charSigned : Bool} {s t : DataRelay} {m : DataMove} {endpoint : Byte}

theorem read_step (h : s.read = some t) : ReaderStep s t := by
  unfold read at h
  cases hpc : s.reader.pc <;> simp only [hpc, reduceCtorEq] at h
  case top =>
    split_ifs at h
    · cases h; exact .stop
    · cases h; exact .receive hpc
  case received buf length =>
    split_ifs at h with hstop hlength hcount
    · cases h; exact .stop
    · cases h; exact .data hpc hlength
    · obtain rfl : length = 0 := not_not.1 hlength
      cases buf with
      | none => cases h; exact .nothing hpc
      | some buf => cases h; exact .first hpc hcount
    · obtain rfl : length = 0 := not_not.1 hlength
      cases buf with
      | none => cases h; exact .nothing hpc
      | some buf => cases h; exact .test hpc hcount
  case testing buf =>
    split_ifs at h with hempty
    · cases h; exact .pass hpc hempty
    · cases h; exact .drop hpc
  case sending p zlp => cases h; exact .send hpc

/-! ## The invariant -/

/-- The counter does not wrap and `wLength` does not lose the length: a condition on the state before
the move and on what `receive_data` gives. -/
def Counted (s : DataRelay) : DataMove → Prop
  | .receive _ length => length ≠ 0 → UInt16.ofInt length ≠ 0
  | .read =>
    match s.reader.pc with
    | .testing _ | .sending _ true => s.reader.zlpCount + 1 ≠ 0
    | _ => True
  | _ => True

instance (s : DataRelay) (m : DataMove) : Decidable (s.Counted m) :=
  match m with
  | .receive _ _ => inferInstanceAs (Decidable (_ → _))
  | .read => by
    unfold Counted
    dsimp only
    split <;> infer_instance
  | .write | .waitComplete _ | .inject _ | .stopReader | .stopWriter | .wakeWriter => isTrue trivial

/-- The relayed packets that wait in the queue. -/
abbrev waiting (s : DataRelay) : List Packet := Lane.filled s.traffic.queue.q

/-- The packets that arrived up to the one the reader holds are thinned out to those it passed on, and
what it counted since the last data ends with a zero-length packet. -/
def Selects (s : DataRelay) (past : List Packet) : Prop :=
  s.reader.pc ≠ .finished → ∃ decided, past = decided ++ s.reader.pc.held s.endpoint ∧
    Thinned Packet.IsZlp decided s.traffic.relayed ∧
      (s.reader.zlpCount ≠ 0 → Closed Packet.IsZlp decided)

/-- What the reader has made of the packets that arrived, whether or not its counter is right: it only
looks at the queue when it has counted something, and only counts zero-length packets. -/
structure Thins (endpoint : Byte) (s : DataRelay) (past : List Packet) : Prop where
  endpoint : s.endpoint = endpoint
  lossless : s.traffic.RelayedLossless
  tested : ∀ buf, s.reader.pc = .testing buf → s.reader.zlpCount ≠ 0
  flagged : ∀ p, s.reader.pc = .sending p true → p.IsZlp
  selects : s.Selects past

/-- The counter against the end of the lane, by where the reader stands: as long as nothing was counted,
the lane does not end with a zero-length packet. -/
def Guarded (s : DataRelay) : Prop :=
  match s.reader.pc with
  | .top | .receiving => s.reader.zlpCount = 0 → ¬ Closed Packet.IsZlp s.waiting
  | .received _ length =>
    (s.reader.zlpCount = 0 → ¬ Closed Packet.IsZlp s.waiting) ∧
      (length ≠ 0 → UInt16.ofInt length ≠ 0)
  | .testing _ => True
  | .sending _ true => ¬ Closed Packet.IsZlp s.waiting
  | .sending p false => ¬ p.IsZlp
  | .finished => True

structure Throttles (endpoint : Byte) (s : DataRelay) (past : List Packet) : Prop
    extends Thins endpoint s past where
  spaced : Spaced Packet.IsZlp s.waiting
  guarded : s.Guarded

theorem thins_new (endpoint : Byte) (filters : List Plugin) :
    Thins endpoint (new endpoint filters) [] where
  endpoint := rfl
  lossless := rfl
  tested := fun _ => ReaderPc.noConfusion
  flagged := fun _ => ReaderPc.noConfusion
  selects := fun _ => ⟨[], rfl, .nil, fun h => absurd rfl h⟩

theorem throttles_new (endpoint : Byte) (filters : List Plugin) :
    Throttles endpoint (new endpoint filters) [] where
  toThins := thins_new endpoint filters
  spaced := spaced_nil
  guarded := fun _ => not_closed_nil

/-! ## Moves of the others -/

/-- A move that leaves the reader where it is and at most takes packets from the front of the lane. -/
structure Front (s t : DataRelay) : Prop where
  endpoint : t.endpoint = s.endpoint
  pc : t.reader.pc = s.reader.pc
  count : t.reader.zlpCount = s.reader.zlpCount
  relayed : t.traffic.relayed = s.traffic.relayed
  lossless : s.traffic.RelayedLossless → t.traffic.RelayedLossless
  waiting : ∃ front, s.waiting = front ++ t.waiting

theorem Thins.front {past : List Packet} (h : Thins endpoint s past) (hfront : Front s t) :
    Thins endpoint t past where
  endpoint := hfront.endpoint.trans h.endpoint
  lossless := hfront.lossless h.lossless
  tested := by
    rw [hfront.pc, hfront.count]
    exact h.tested
  flagged := by
    rw [hfront.pc]
    exact h.flagged
  selects := by
    have hsel := h.selects
    unfold Selects at hsel ⊢
    rw [hfront.pc, hfront.count, hfront.endpoint, hfront.relayed]
    exact hsel

theorem Throttles.front {past : List Packet} (h : Throttles endpoint s past) (hfront : Front s t) :
    Throttles endpoint t past where
  toThins := h.toThins.front hfront
  spaced := by
    obtain ⟨front, hwaiting⟩ := hfront.waiting
    have := h.spaced
    rw [hwaiting] at this
    exact this.of_append
  guarded := by
    obtain ⟨front, hwaiting⟩ := hfront.waiting
    have hopen : ¬ Closed Packet.IsZlp s.waiting → ¬ Closed Packet.IsZlp t.waiting := by
      rw [hwaiting]
      exact fun hc hc' => hc (hc'.of_append front)
    have hg := h.guarded
    unfold Guarded at hg ⊢
    rw [hfront.pc, hfront.count]
    cases hs : s.reader.pc with
    | sending p zlp =>
      rw [hs] at hg
      cases zlp with
      | true => exact hopen hg
      | false => exact hg
    | received buf length =>
      rw [hs] at hg
      exact ⟨fun h0 => hopen (hg.1 h0), hg.2⟩
    | top => rw [hs] at hg; exact fun h0 => hopen (hg h0)
    | receiving => rw [hs] at hg; exact fun h0 => hopen (hg h0)
    | testing buf => trivial
    | finished => trivial

theorem waiting_dequeue {item : Option Packet} {u : Traffic}
    (h : s.traffic.dequeue = some (item, u)) :
    ∃ front, s.waiting = front ++ Lane.filled u.queue.q ∧ u.relayed = s.traffic.relayed := by
  rcases Traffic.dequeue_cases h with ⟨rest, -, rfl⟩ | ⟨rest, -, hq, rfl⟩
  · exact ⟨[], rfl, rfl⟩
  · refine ⟨item.toList, ?_, rfl⟩
    show Lane.filled s.traffic.queue.q = _
    rw [hq, Lane.filled_cons]

theorem front_write (hstep : WriterStep s t) : Front s t := by
  cases hstep with
  | dequeue _ hd =>
    obtain ⟨front, hfront, hrelayed⟩ := waiting_dequeue hd
    exact ⟨rfl, rfl, rfl, hrelayed, fun hl => hl.dequeue hd, front, hfront⟩
  | _ => exact ⟨rfl, rfl, rfl, rfl, id, [], rfl⟩

theorem front_step (hstep : s.step charSigned m = some t)
    (hothers : m ≠ .read ∧ ∀ buf length, m ≠ .receive buf length) : Front s t := by
  cases m with
  | receive buf length => exact absurd rfl (hothers.2 buf length)
  | read => exact absurd rfl hothers.1
  | write => exact front_write (write_step hstep)
  | waitComplete done =>
    simp only [DataRelay.step] at hstep
    split_ifs at hstep
    cases hstep
    exact ⟨rfl, rfl, rfl, rfl, id, [], rfl⟩
  | inject p =>
    cases hstep
    refine ⟨rfl, rfl, rfl, rfl, fun hl => hl.inject p, [], ?_⟩
    show Lane.filled _ = Lane.filled (s.traffic.queue.enqueuePriority (some p)).q
    rw [SafeQueue.enqueuePriority_eq]
  | stopReader =>
    cases hstep
    exact ⟨rfl, rfl, rfl, rfl, id, [], rfl⟩
  | stopWriter =>
    cases hstep
    exact ⟨rfl, rfl, rfl, rfl, id, [], rfl⟩
  | wakeWriter =>
    cases hstep
    refine ⟨rfl, rfl, rfl, rfl, fun hl => hl.wake, [], ?_⟩
    show Lane.filled _ = Lane.filled (s.traffic.queue.enqueue none).q
    rw [SafeQueue.enqueue_eq, Lane.filled_offer_none]

/-! ## Moves of the reader -/

theorem waiting_relay (hroom : s.traffic.queue.q.length < QUEUE_MAX) (p : Packet) :
    Lane.filled (s.traffic.relay p).queue.q = s.waiting ++ [p] := by
  unfold Traffic.relay
  rw [SafeQueue.enqueue_eq, Lane.offer_of_lt hroom, Lane.filled_append_some]

theorem Thins.read {past : List Packet} (hstep : ReaderStep s t) (h : Thins endpoint s past)
    (hroom : s.traffic.queue.q.length < QUEUE_MAX) : Thins endpoint t past := by
  obtain ⟨hendpoint, hlossless, htested, hflagged, hselects⟩ := h
  unfold Selects at hselects
  cases hstep with
  | stop =>
    exact ⟨hendpoint, hlossless, fun _ => ReaderPc.noConfusion, fun _ => ReaderPc.noConfusion,
      fun hne => absurd rfl hne⟩
  | receive hpc =>
    rw [hpc] at hselects
    exact ⟨hendpoint, hlossless, fun _ => ReaderPc.noConfusion, fun _ => ReaderPc.noConfusion,
      fun _ => hselects (by decide)⟩
  | @data buf length hpc hlength =>
    rw [hpc] at hselects
    refine ⟨hendpoint, hlossless, fun _ => ReaderPc.noConfusion, fun p hp => ?_, fun _ => ?_⟩
    · exact absurd (ReaderPc.sending.inj hp).2 Bool.false_ne_true
    · obtain ⟨decided, rfl, hthin, hclosed⟩ := hselects (by simp)
      refine ⟨decided, ?_, hthin, hclosed⟩
      show _ ++ receivedPacket s.endpoint buf length = _
      unfold receivedPacket
      rw [if_pos hlength]
      rfl
  | nothing hpc =>
    rw [hpc] at hselects
    exact ⟨hendpoint, hlossless, fun _ => ReaderPc.noConfusion, fun _ => ReaderPc.noConfusion,
      fun _ => hselects (by simp)⟩
  | first hpc _ =>
    rw [hpc] at hselects
    refine ⟨hendpoint, hlossless, fun _ => ReaderPc.noConfusion, fun p hp => ?_,
      fun _ => hselects (by simp)⟩
    exact (ReaderPc.sending.inj hp).1 ▸ rfl
  | test hpc hcount =>
    rw [hpc] at hselects
    exact ⟨hendpoint, hlossless, fun _ _ => hcount, fun _ => ReaderPc.noConfusion,
      fun _ => hselects (by simp)⟩
  | pass hpc _ =>
    rw [hpc] at hselects
    refine ⟨hendpoint, hlossless, fun _ => ReaderPc.noConfusion, fun p hp => ?_,
      fun _ => hselects (by simp)⟩
    exact (ReaderPc.sending.inj hp).1 ▸ rfl
  | @drop buf hpc =>
    rw [hpc] at hselects
    refine ⟨hendpoint, hlossless, fun _ => ReaderPc.noConfusion, fun _ => ReaderPc.noConfusion,
      fun _ => ?_⟩
    obtain ⟨decided, rfl, hthin, hclosed⟩ := hselects (by simp)
    refine ⟨_, (List.append_nil _).symm, hthin.drop _ rfl (hclosed (htested buf hpc)), fun _ => ?_⟩
    exact closed_append_singleton.2 rfl
  | @send p zlp hpc =>
    rw [hpc] at hselects
    obtain ⟨decided, rfl, hthin, -⟩ := hselects (by simp)
    refine ⟨hendpoint, hlossless.relay hroom p, fun _ => ReaderPc.noConfusion,
      fun _ => ReaderPc.noConfusion, fun _ =>
        ⟨decided ++ [p], (List.append_nil _).symm, hthin.keep p, fun hne => ?_⟩⟩
    cases zlp with
    | true => exact closed_append_singleton.2 (hflagged p hpc)
    | false => exact absurd rfl hne

theorem Throttles.read {past : List Packet} (hstep : ReaderStep s t) (h : Throttles endpoint s past)
    (hroom : s.traffic.queue.q.length < QUEUE_MAX) (hcounted : s.Counted .read) :
    Throttles endpoint t past := by
  have hthins := h.toThins.read hstep hroom
  have hflagged := h.flagged
  have hspaced := h.spaced
  have hguarded := h.guarded
  unfold Guarded at hguarded
  unfold Counted at hcounted
  cases hstep with
  | stop => exact ⟨hthins, hspaced, trivial⟩
  | receive hpc =>
    rw [hpc] at hguarded
    exact ⟨hthins, hspaced, hguarded⟩
  | data hpc hlength =>
    rw [hpc] at hguarded
    exact ⟨hthins, hspaced, hguarded.2 hlength⟩
  | nothing hpc =>
    rw [hpc] at hguarded
    exact ⟨hthins, hspaced, hguarded.1⟩
  | first hpc hcount =>
    rw [hpc] at hguarded
    exact ⟨hthins, hspaced, hguarded.1 hcount⟩
  | test => exact ⟨hthins, hspaced, trivial⟩
  | pass _ hempty =>
    have hq : s.traffic.queue.q = [] := by
      rw [SafeQueue.empty, Bool.and_eq_true] at hempty
      exact List.isEmpty_iff.1 hempty.1
    refine ⟨hthins, hspaced, ?_⟩
    show ¬ Closed Packet.IsZlp (Lane.filled s.traffic.queue.q)
    rw [hq]
    exact not_closed_nil
  | drop hpc =>
    rw [hpc] at hcounted
    exact ⟨hthins, hspaced, fun h0 => absurd h0 hcounted⟩
  | @send p zlp hpc =>
    rw [hpc] at hguarded hcounted
    have hwaiting := waiting_relay hroom p
    cases zlp with
    | true =>
      refine ⟨hthins, ?_, fun h0 => absurd h0 hcounted⟩
      show Spaced _ (Lane.filled (s.traffic.relay p).queue.q)
      rw [hwaiting]
      exact hspaced.append_singleton fun _ => hguarded
    | false =>
      refine ⟨hthins, ?_, fun _ => ?_⟩
      · show Spaced _ (Lane.filled (s.traffic.relay p).queue.q)
        rw [hwaiting]
        exact hspaced.append_singleton fun hp => absurd hp hguarded
      · show ¬ Closed _ (Lane.filled (s.traffic.relay p).queue.q)
        rw [hwaiting, closed_append_singleton]
        exact hguarded

theorem Thins.receive {past : List Packet} {buf : Option (List Byte)} {length : ℤ}
    (hpc : s.reader.pc = .receiving) (h : Thins endpoint s past) :
    Thins endpoint { s with reader := { s.reader with pc := .received buf length } }
      (past ++ receivedPacket endpoint buf length) := by
  obtain ⟨hendpoint, hlossless, -, -, hselects⟩ := h
  unfold Selects at hselects
  rw [hpc] at hselects
  refine ⟨hendpoint, hlossless, fun _ => ReaderPc.noConfusion, fun _ => ReaderPc.noConfusion,
    fun _ => ?_⟩
  obtain ⟨decided, hpast, hthin, hclosed⟩ := hselects (by decide)
  refine ⟨decided, ?_, hthin, hclosed⟩
  rw [hpast, List.append_assoc, ← hendpoint]
  rfl

theorem Throttles.receive {past : List Packet} {buf : Option (List Byte)} {length : ℤ}
    (hpc : s.reader.pc = .receiving) (hlength : length ≠ 0 → UInt16.ofInt length ≠ 0)
    (h : Throttles endpoint s past) :
    Throttles endpoint { s with reader := { s.reader with pc := .received buf length } }
      (past ++ receivedPacket endpoint buf length) := by
  have hguarded := h.guarded
  unfold Guarded at hguarded
  rw [hpc] at hguarded
  exact ⟨h.toThins.receive hpc, h.spaced, hguarded, hlength⟩

/-! ## Every move -/

theorem Thins.step {past : List Packet} (hstep : s.step charSigned m = some t)
    (hroom : s.traffic.queue.q.length < QUEUE_MAX) (h : Thins endpoint s past) :
    Thins endpoint t (past ++ m.arrivals endpoint) := by
  unfold DataMove.arrivals
  cases m with
  | receive buf length =>
    simp only [DataRelay.step] at hstep
    split_ifs at hstep with hpc
    cases hstep
    exact h.receive hpc
  | read =>
    rw [List.append_nil]
    exact h.read (read_step hstep) hroom
  | _ =>
    rw [List.append_nil]
    exact h.front (front_step hstep ⟨DataMove.noConfusion, fun _ _ => DataMove.noConfusion⟩)

/-- With room in the lane and without a wrap of the counter. -/
theorem Throttles.step {past : List Packet} (hstep : s.step charSigned m = some t)
    (hP : s.traffic.queue.q.length < QUEUE_MAX ∧ s.Counted m) (h : Throttles endpoint s past) :
    Throttles endpoint t (past ++ m.arrivals endpoint) := by
  unfold DataMove.arrivals
  cases m with
  | receive buf length =>
    simp only [DataRelay.step] at hstep
    split_ifs at hstep with hpc
    cases hstep
    exact h.receive hpc hP.2
  | read =>
    rw [List.append_nil]
    exact h.read (read_step hstep) hP.1 hP.2
  | _ =>
    rw [List.append_nil]
    exact h.front (front_step hstep ⟨DataMove.noConfusion, fun _ _ => DataMove.noConfusion⟩)

/-! ## Whole runs -/

/-- **In every run with room in the lane, where the counter does not wrap and no length is lost in
`wLength`: what the reader passed on is what arrived but for zero-length packets directly behind another
one, none of it is lost, and the lane never holds two zero-length packets side by side, so at most one
more of them than of the others.** -/
theorem zlp_throttled (charSigned : Bool) (endpoint : Byte) (filters : List Plugin)
    (moves : List DataMove) (s : DataRelay)
    (hrun : Runs.run (step charSigned) (new endpoint filters) moves = some s)
    (hP : Runs.Along (step charSigned)
      (fun t m => t.traffic.queue.q.length < QUEUE_MAX ∧ t.Counted m) (new endpoint filters) moves) :
    (s.reader.pc = .top ∨ s.reader.pc = .receiving →
      Thinned Packet.IsZlp (moves.flatMap (DataMove.arrivals endpoint)) s.traffic.relayed) ∧
    s.traffic.relayedDequeued ++ Lane.filled s.traffic.queue.q = s.traffic.relayed ∧
    (Lane.filled s.traffic.queue.q).IsChain (fun p q => ¬ (p.IsZlp ∧ q.IsZlp)) ∧
    (Lane.filled s.traffic.queue.q).countP (fun p => p.IsZlp) ≤
      (Lane.filled s.traffic.queue.q).countP (fun p => ¬ p.IsZlp) + 1 := by
  have h : Throttles endpoint s ([] ++ moves.flatMap (DataMove.arrivals endpoint)) :=
    Runs.invariant_of_history (Throttles endpoint) (fun _ _ _ _ hstep hP h => h.step hstep hP) hP hrun
      (throttles_new endpoint filters)
  refine ⟨fun hpc => ?_, h.lossless, h.spaced, h.spaced.countP_le⟩
  obtain ⟨decided, hpast, hthin, -⟩ := h.selects (by rcases hpc with hpc | hpc <;> simp [hpc])
  rw [List.nil_append] at hpast
  have hheld : s.reader.pc.held s.endpoint = [] := by rcases hpc with hpc | hpc <;> rw [hpc] <;> rfl
  rw [hheld, List.append_nil] at hpast
  rwa [hpast]

/-- A packet with data and two zero-length packets behind it; nobody dequeues. -/
def dataThenZlps : List DataMove :=
  [.read, .receive (some [1]) 1, .read, .read,
    .read, .receive (some []) 0, .read, .read,
    .read, .receive (some []) 0, .read, .read]

theorem zlp_throttled_dataThenZlps :
    ∃ s, Runs.run (step true) (new 0x81 []) dataThenZlps = some s ∧
      s.traffic.relayed = [Packet.new 0x81 (some [1]) 1, Packet.new 0x81 (some []) 0] ∧
      (Lane.filled s.traffic.queue.q).IsChain (fun p q => ¬ (p.IsZlp ∧ q.IsZlp)) := by
  have hP : Runs.Along (step true)
      (fun t m => t.traffic.queue.q.length < QUEUE_MAX ∧ t.Counted m) (new 0x81 []) dataThenZlps := by
    decide
  exact ⟨_, rfl, rfl, (zlp_throttled true 0x81 [] dataThenZlps _ rfl hP).2.2.1⟩

/-! ## The counter wraps -/

/-- One zero-length packet arrives and is decided on. -/
def zlpRound : List DataMove := [.read, .receive (some []) 0, .read, .read]

/-- The reader behind zero-length packets only, `count` of them; the first is in the lane. -/
def backlog (count : UInt32) : DataRelay :=
  { new 0x81 [] with
    reader := { pc := .top, pleaseStop := false, zlpCount := count }
    traffic := Traffic.new.relay (Packet.new 0x81 (some []) 0) }

theorem run_backlog {count : UInt32} (h : count ≠ 0) :
    Runs.run (step true) (backlog count) zlpRound = some (backlog (count + 1)) := by
  simp [Runs.run, zlpRound, step, read, backlog, h, Traffic.new, Traffic.relay, SafeQueue.new,
    SafeQueue.enqueue, SafeQueue.empty]

theorem along_backlog (count : UInt32) :
    Runs.Along (step true) (fun t _ => t.traffic.queue.q.length < QUEUE_MAX) (backlog count)
      zlpRound := by
  by_cases h : count = 0 <;>
    simp [h, Runs.Along, zlpRound, step, read, backlog, Traffic.new, Traffic.relay, SafeQueue.new,
      SafeQueue.enqueue, SafeQueue.empty, QUEUE_MAX]

theorem run_zlpRound : Runs.run (step true) (new 0x81 []) zlpRound = some (backlog 1) := rfl

theorem along_zlpRound :
    Runs.Along (step true) (fun t _ => t.traffic.queue.q.length < QUEUE_MAX) (new 0x81 [])
      zlpRound := by decide

/-- The counter goes on counting until it has counted to `2 ^ 32`. -/
theorem run_backlog_rounds (n : ℕ) (h : n + 1 ≤ UInt32.size) :
    Runs.run (step true) (backlog 1) (List.replicate n zlpRound).flatten =
        some (backlog (UInt32.ofNat (n + 1))) ∧
      Runs.Along (step true) (fun t _ => t.traffic.queue.q.length < QUEUE_MAX) (backlog 1)
        (List.replicate n zlpRound).flatten := by
  induction n with
  | zero => exact ⟨rfl, trivial⟩
  | succ n ih =>
    obtain ⟨hrun, halong⟩ := ih (by omega)
    have hne : UInt32.ofNat (n + 1) ≠ 0 := by
      intro h0
      have htoNat : (UInt32.ofNat (n + 1)).toNat = n + 1 := UInt32.toNat_ofNat_of_lt' h
      rw [h0] at htoNat
      exact Nat.succ_ne_zero n htoNat.symm
    rw [List.replicate_succ', List.flatten_append, List.flatten_singleton]
    refine ⟨?_, ?_⟩
    · rw [Runs.run_append_eq_some]
      refine ⟨_, hrun, ?_⟩
      rw [run_backlog hne, UInt32.ofNat_add (n + 1) 1]
      rfl
    · rw [Runs.along_append]
      refine ⟨halong, fun t ht => ?_⟩
      obtain rfl := Option.some.inj (hrun.symm.trans ht)
      exact along_backlog _

/-- `2 ^ 32` zero-length packets arrive and nobody dequeues: the counter is back at 0 and the next one
goes into the lane behind the first. -/
theorem not_zlp_throttled :
    ¬ ∀ (charSigned : Bool) (endpoint : Byte) (filters : List Plugin) (moves : List DataMove)
      (s : DataRelay), Runs.run (step charSigned) (new endpoint filters) moves = some s →
        Runs.Along (step charSigned) (fun t _ => t.traffic.queue.q.length < QUEUE_MAX)
          (new endpoint filters) moves →
        (Lane.filled s.traffic.queue.q).IsChain (fun p q => ¬ (p.IsZlp ∧ q.IsZlp)) := by
  intro h
  obtain ⟨n, hn⟩ : ∃ n, n + 1 = UInt32.size := ⟨_, rfl⟩
  obtain ⟨hrun, halong⟩ := run_backlog_rounds n hn.le
  rw [hn] at hrun
  have hend := h true 0x81 [] (zlpRound ++ ((List.replicate n zlpRound).flatten ++ zlpRound))
    { backlog 1 with
      traffic := (backlog 0).traffic.relay (Packet.new 0x81 (some []) 0) } ?_ ?_
  · revert hend
    decide
  · exact (Runs.run_append_eq_some _).2 ⟨_, run_zlpRound,
      (Runs.run_append_eq_some _).2 ⟨_, hrun, rfl⟩⟩
  · refine Runs.along_append.2 ⟨along_zlpRound, fun t ht => ?_⟩
    obtain rfl := Option.some.inj (run_zlpRound.symm.trans ht)
    refine Runs.along_append.2 ⟨halong, fun t ht => ?_⟩
    obtain rfl := Option.some.inj (hrun.symm.trans ht)
    exact along_backlog _

end DataRelay

end UsbProxy
