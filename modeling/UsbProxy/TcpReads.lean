import UsbProxy.TcpData
import UsbProxy.ZlpThrottling

/-!
# Reads that fail

`TCP_Helper::receive_data` shortens its buffer to what `read` returns.  For -1 that is no size a block can
have: the buffer becomes a null pointer, the length stays -1, and `relay_read` takes it for data of 65535
bytes.  The reader here is that of the relay of a data endpoint; `sound_iff` says in which runs it passes
on nothing but what was read.
-/

namespace UsbProxy

/-- What `poll` and `read` come to. -/
inductive SocketRead
  /-- `poll` times out or fails, or `revents` is not `POLLIN`. -/
  | idle
  /-- `read` returns -1. -/
  | failure
  /-- `read` returns the number of these bytes, 0 at the end of the stream. -/
  | bytes (bytes : List Byte) (h : bytes.length ≤ TCP_BUFFER_SIZE)

/-- `realloc` of a block to a smaller size, converted to a `size_t`: a negative one cannot be had.
Whether the size 0 gives a block or a null pointer is left to the library. -/
def realloc (keepsEmpty : Bool) (block : List Byte) (size : ℤ) : Option (List Byte) :=
  if size < 0 then none
  else if size = 0 then if keepsEmpty then some [] else none
  else some (block.take size.toNat)

namespace SocketRead

/-- `*length` behind `read`. -/
def count : SocketRead → ℤ
  | idle => 0
  | failure => -1
  | bytes bs _ => bs.length

/-- The block of `malloc` behind `read`; what was not written reads as zero. -/
def block : SocketRead → List Byte
  | bytes bs _ => bs.takeD TCP_BUFFER_SIZE 0
  | _ => List.replicate TCP_BUFFER_SIZE 0

/-- `TCP_Helper::receive_data`, called with a null pointer and the length 0. -/
def receiveData (keepsEmpty : Bool) : SocketRead → Option (List Byte) × ℤ
  | idle => (none, 0)
  | r => (realloc keepsEmpty r.block r.count, r.count)

/-- The packet of the bytes that were read; the end of the stream gives a zero-length packet where it
gives a block. -/
def packet (keepsEmpty : Bool) (endpoint : Byte) : SocketRead → Option Packet
  | idle | failure => none
  | bytes bs _ =>
    if bs = [] ∧ keepsEmpty = false then none
    else some (Packet.new endpoint (some bs) (UInt16.ofInt bs.length))

end SocketRead

/-- The relay of a data endpoint whose proxy is a TCP one, with what its reads came to so far. -/
structure TcpRelay where
  relay : DataRelay
  reads : List SocketRead

/-- The reader's call of `receive_data`, or a move of the relay that is no such call. -/
inductive TcpMove
  | receive (r : SocketRead)
  | move (m : DataMove)

namespace TcpRelay

def new (endpoint : Byte) (filters : List Plugin) : TcpRelay := ⟨.new endpoint filters, []⟩

def step (charSigned keepsEmpty : Bool) (s : TcpRelay) : TcpMove → Option TcpRelay
  | .receive r =>
    (s.relay.step charSigned (.receive (r.receiveData keepsEmpty).1 (r.receiveData keepsEmpty).2)).map
      fun relay => ⟨relay, s.reads ++ [r]⟩
  | .move (.receive _ _) => none
  | .move m => (s.relay.step charSigned m).map fun relay => { s with relay }

/-- The packets the reader calls `enqueue` with, the one it is about to enqueue included. -/
def passed (s : TcpRelay) : List Packet :=
  s.relay.traffic.relayed ++
    match s.relay.reader.pc with
    | .sending p _ => [p]
    | _ => []

/-- Every packet that goes to the queue has the data its length says, and is what a read brought that
did not fail, in this order. -/
structure Sound (keepsEmpty : Bool) (s : TcpRelay) : Prop where
  data : ∀ p ∈ s.passed, p.wLength ≠ 0 → ∃ bs, p.data = some bs ∧ p.wLength.toNat ≤ bs.length
  reads : s.passed.Sublist (s.reads.filterMap (SocketRead.packet keepsEmpty s.relay.endpoint))

/-- A reader that comes out of a read that failed finds its stop flag up. -/
def Stopped (s : TcpRelay) : TcpMove → Prop
  | .move .read => s.relay.reader.pc = .received none (-1) → s.relay.reader.pleaseStop = true
  | _ => True

instance (s : TcpRelay) (m : TcpMove) : Decidable (s.Stopped m) :=
  match m with
  | .move .read => inferInstanceAs (Decidable (_ → _))
  | .move (.receive _ _) | .move .write | .move (.waitComplete _) | .move (.inject _)
  | .move .stopReader | .move .stopWriter | .move .wakeWriter | .receive _ => isTrue trivial

end TcpRelay

/-! ## One read -/

section Read

variable {keepsEmpty : Bool} {endpoint : Byte} {r : SocketRead} {p : Packet}

theorem receiveData_bytes (bs : List Byte) (h : bs.length ≤ TCP_BUFFER_SIZE) :
    (SocketRead.bytes bs h).receiveData keepsEmpty =
      (if bs = [] ∧ keepsEmpty = false then none else some bs, (bs.length : ℤ)) := by
  refine Prod.ext ?_ rfl
  show realloc keepsEmpty (bs.takeD TCP_BUFFER_SIZE 0) bs.length = _
  unfold realloc
  rw [if_neg (Int.not_lt.2 (Int.natCast_nonneg bs.length)), Int.toNat_natCast]
  cases bs with
  | nil => cases keepsEmpty <;> rfl
  | cons b bs =>
    rw [if_neg (by rw [List.length_cons]; omega), if_neg fun hnil => List.cons_ne_nil b bs hnil.1,
      takeD_of_length_le 0 h, List.take_left]

/-- What the reader makes of a read that did not fail is the packet of its bytes. -/
theorem receivedPacket_eq (h : r.receiveData keepsEmpty ≠ (none, -1)) :
    receivedPacket endpoint (r.receiveData keepsEmpty).1 (r.receiveData keepsEmpty).2 =
      (r.packet keepsEmpty endpoint).toList := by
  cases r with
  | idle => rfl
  | failure => exact absurd rfl h
  | bytes bs hle =>
    rw [receiveData_bytes]
    cases bs with
    | nil => cases keepsEmpty <;> rfl
    | cons b bs =>
      have hcons : ¬ (b :: bs = [] ∧ keepsEmpty = false) := fun hnil => List.cons_ne_nil b bs hnil.1
      have hlen : ((b :: bs).length : ℤ) ≠ 0 := by rw [List.length_cons]; omega
      have hpacket : (SocketRead.bytes (b :: bs) hle).packet keepsEmpty endpoint =
          some (Packet.new endpoint (some (b :: bs)) (UInt16.ofInt (b :: bs).length)) := by
        rw [SocketRead.packet, if_neg hcons]
      rw [hpacket, if_neg hcons]
      exact if_pos hlen

theorem data_of_packet (h : r.packet keepsEmpty endpoint = some p) :
    ∃ bs, p.data = some bs ∧ p.wLength.toNat = bs.length := by
  cases r with
  | idle => cases h
  | failure => cases h
  | bytes bs hlen =>
    rw [SocketRead.packet] at h
    split_ifs at h
    rw [← Option.some.inj h]
    refine ⟨bs, rfl, toNat_ofInt_of_lt ?_⟩
    exact Nat.lt_of_le_of_lt hlen (by decide)

end Read

namespace TcpRelay

/-! ## The invariant -/

/-- The packets of the reads so far that did not fail. -/
def brought (keepsEmpty : Bool) (s : TcpRelay) : List Packet :=
  s.reads.filterMap (SocketRead.packet keepsEmpty s.relay.endpoint)

/-- What the reader passed on is among the packets that were read, in this order, and with what it holds
it still is unless that comes of a read that failed. -/
structure Tracks (keepsEmpty : Bool) (s : TcpRelay) : Prop where
  held : s.relay.reader.pc ≠ .received none (-1) →
    (s.relay.traffic.relayed ++ s.relay.reader.pc.held s.relay.endpoint).Sublist (s.brought keepsEmpty)
  relayed : s.relay.traffic.relayed.Sublist (s.brought keepsEmpty)

variable {charSigned keepsEmpty : Bool} {s t : TcpRelay} {m : TcpMove} {endpoint : Byte}

theorem tracks_new (keepsEmpty : Bool) (endpoint : Byte) (filters : List Plugin) :
    (new endpoint filters).Tracks keepsEmpty where
  held := fun _ => List.Sublist.refl []
  relayed := List.Sublist.refl []

theorem Tracks.sound (h : s.Tracks keepsEmpty) : s.Sound keepsEmpty := by
  have hreads : s.passed.Sublist (s.brought keepsEmpty) := by
    unfold passed
    cases hpc : s.relay.reader.pc with
    | sending p zlp =>
      have := h.held (by rw [hpc]; exact fun h => by cases h)
      rwa [hpc] at this
    | _ => rw [List.append_nil]; exact h.relayed
  refine ⟨fun p hp _ => ?_, hreads⟩
  obtain ⟨r, -, hr⟩ := List.mem_filterMap.1 (hreads.subset hp)
  obtain ⟨bs, hbs, hlen⟩ := data_of_packet hr
  exact ⟨bs, hbs, hlen.le⟩

theorem Tracks.of_same (h : s.Tracks keepsEmpty) (hreads : t.reads = s.reads)
    (hendpoint : t.relay.endpoint = s.relay.endpoint) (hpc : t.relay.reader.pc = s.relay.reader.pc)
    (hrelayed : t.relay.traffic.relayed = s.relay.traffic.relayed) : t.Tracks keepsEmpty := by
  have hbrought : t.brought keepsEmpty = s.brought keepsEmpty := by
    unfold brought
    rw [hreads, hendpoint]
  refine ⟨?_, ?_⟩
  · rw [hpc, hrelayed, hendpoint, hbrought]
    exact h.held
  · rw [hrelayed, hbrought]
    exact h.relayed

theorem Tracks.of_held (h : s.Tracks keepsEmpty) (hreads : t.reads = s.reads)
    (hendpoint : t.relay.endpoint = s.relay.endpoint)
    (hfailed : s.relay.reader.pc ≠ .received none (-1))
    (hheld : (t.relay.traffic.relayed ++ t.relay.reader.pc.held t.relay.endpoint).Sublist
      (s.relay.traffic.relayed ++ s.relay.reader.pc.held s.relay.endpoint)) : t.Tracks keepsEmpty := by
  have hbrought : t.brought keepsEmpty = s.brought keepsEmpty := by
    unfold brought
    rw [hreads, hendpoint]
  have hsub := hheld.trans (h.held hfailed)
  refine ⟨fun _ => ?_, ?_⟩
  · rw [hbrought]
    exact hsub
  · rw [hbrought]
    exact (List.sublist_append_left _ _).trans hsub

end TcpRelay

namespace DataRelay

variable {charSigned : Bool} {s t : DataRelay} {m : DataMove}

theorem reader_of_step (hread : m ≠ .read) (hreceive : ∀ buf length, m ≠ .receive buf length)
    (h : s.step charSigned m = some t) :
    t.endpoint = s.endpoint ∧ t.reader.pc = s.reader.pc ∧ t.traffic.relayed = s.traffic.relayed := by
  cases m with
  | read => exact absurd rfl hread
  | receive buf length => exact absurd rfl (hreceive buf length)
  | write =>
    cases write_step h with
    | dequeue _ hd =>
      obtain ⟨-, -, hrelayed⟩ := waiting_dequeue hd
      exact ⟨rfl, rfl, hrelayed⟩
    | _ => exact ⟨rfl, rfl, rfl⟩
  | waitComplete done =>
    simp only [step] at h
    split_ifs at h
    cases h
    exact ⟨rfl, rfl, rfl⟩
  | inject p => cases h; exact ⟨rfl, rfl, rfl⟩
  | stopReader => cases h; exact ⟨rfl, rfl, rfl⟩
  | stopWriter => cases h; exact ⟨rfl, rfl, rfl⟩
  | wakeWriter => cases h; exact ⟨rfl, rfl, rfl⟩

/-- A reader that is asked to stop does so; one that is not makes a packet of a length that is not 0. -/
theorem read_received {buf : Option (List Byte)} {length : ℤ}
    (hpc : s.reader.pc = .received buf length) (hlength : length ≠ 0) :
    s.read = some { s with reader :=
      if s.reader.pleaseStop then { s.reader with pc := .finished, pleaseStop := false }
      else { s.reader with pc := .sending (Packet.new s.endpoint buf (UInt16.ofInt length)) false } } := by
  unfold read
  simp only [hpc]
  split_ifs <;> rfl

end DataRelay

namespace TcpRelay

variable {charSigned keepsEmpty : Bool} {s t : TcpRelay} {m : TcpMove}

theorem Tracks.read (h : s.Tracks keepsEmpty) (hP : s.Stopped (.move .read))
    (hstep : s.step charSigned keepsEmpty (.move .read) = some t) : t.Tracks keepsEmpty := by
  obtain ⟨relay, hrelay, rfl⟩ := Option.map_eq_some_iff.1 hstep
  have hstep' : s.relay.read = some relay := hrelay
  by_cases hfailed : s.relay.reader.pc = .received none (-1)
  · rw [DataRelay.read_received hfailed (by decide), if_pos (hP hfailed)] at hstep'
    obtain rfl := Option.some.inj hstep'
    refine ⟨fun _ => ?_, h.relayed⟩
    show (_ ++ []).Sublist _
    rw [List.append_nil]
    exact h.relayed
  · have hread := DataRelay.read_step hstep'
    refine h.of_held rfl ?_ hfailed ?_
    · cases hread <;> rfl
    · cases hread with
      | stop => exact List.Sublist.append_left (List.nil_sublist _) _
      | receive hpc => rw [hpc]; exact List.Sublist.refl _
      | @data buf length hpc hlength =>
        have hheld : (ReaderPc.received buf length).held s.relay.endpoint =
            [Packet.new s.relay.endpoint buf (UInt16.ofInt length)] := if_pos hlength
        rw [hpc, hheld]
        exact List.Sublist.refl _
      | nothing hpc => rw [hpc]; exact List.Sublist.refl _
      | first hpc hcount => rw [hpc]; exact List.Sublist.refl _
      | test hpc hcount => rw [hpc]; exact List.Sublist.refl _
      | pass hpc hempty => rw [hpc]; exact List.Sublist.refl _
      | drop hpc => exact List.Sublist.append_left (List.nil_sublist _) _
      | @send p zlp hpc =>
        rw [hpc]
        show (s.relay.traffic.relayed ++ [p] ++ []).Sublist _
        rw [List.append_nil]
        exact List.Sublist.refl _

theorem Tracks.receive {r : SocketRead} (h : s.Tracks keepsEmpty)
    (hstep : s.step charSigned keepsEmpty (.receive r) = some t) : t.Tracks keepsEmpty := by
  obtain ⟨relay, hrelay, rfl⟩ := Option.map_eq_some_iff.1 hstep
  simp only [DataRelay.step] at hrelay
  split_ifs at hrelay with hpc
  cases hrelay
  have hbrought : brought keepsEmpty
      { relay := { s.relay with reader := { s.relay.reader with
          pc := .received (r.receiveData keepsEmpty).1 (r.receiveData keepsEmpty).2 } }
        reads := s.reads ++ [r] } =
      s.brought keepsEmpty ++ (r.packet keepsEmpty s.relay.endpoint).toList := by
    unfold brought
    rw [List.filterMap_append]
    cases h : r.packet keepsEmpty s.relay.endpoint <;> simp [h]
  refine ⟨fun hne => ?_, ?_⟩
  · have hfailed : r.receiveData keepsEmpty ≠ (none, -1) := by
      intro h
      rw [h] at hne
      exact hne rfl
    rw [hbrought, ← receivedPacket_eq hfailed]
    exact h.relayed.append (List.Sublist.refl _)
  · rw [hbrought]
    exact h.relayed.trans (List.sublist_append_left _ _)

theorem Tracks.step (h : s.Tracks keepsEmpty) (hP : s.Stopped m)
    (hstep : s.step charSigned keepsEmpty m = some t) : t.Tracks keepsEmpty := by
  cases m with
  | receive r => exact h.receive hstep
  | move m =>
    by_cases hread : m = .read
    · subst hread
      exact h.read hP hstep
    · have hreceive : ∀ buf length, m ≠ .receive buf length := by
        rintro buf length rfl
        cases hstep
      have hmove : s.step charSigned keepsEmpty (.move m) =
          (s.relay.step charSigned m).map fun relay => { s with relay } := by
        cases m with
        | receive buf length => exact absurd rfl (hreceive buf length)
        | _ => rfl
      rw [hmove] at hstep
      obtain ⟨relay, hrelay, rfl⟩ := Option.map_eq_some_iff.1 hstep
      obtain ⟨hendpoint, hpc, hrelayed⟩ := DataRelay.reader_of_step hread hreceive hrelay
      exact h.of_same rfl hendpoint hpc hrelayed

/-- The next state is sound exactly when a failed read is not passed on. -/
theorem Tracks.sound_step_iff (h : s.Tracks keepsEmpty) :
    (∀ t, s.step charSigned keepsEmpty m = some t → t.Sound keepsEmpty) ↔ s.Stopped m := by
  constructor
  · intro hsound
    cases m with
    | receive r => trivial
    | move m =>
      by_cases hread : m = .read
      · subst hread
        intro hfailed
        by_contra hstop
        have hrelay := DataRelay.read_received hfailed (by decide)
        rw [if_neg hstop] at hrelay
        have hpassed := (hsound _ (Option.map_eq_some_iff.2 ⟨_, hrelay, rfl⟩)).data
          (Packet.new s.relay.endpoint none 65535)
          (List.mem_append_right _ (List.mem_singleton.2 rfl)) (show (65535 : UInt16) ≠ 0 by decide)
        obtain ⟨bs, hbs, -⟩ := hpassed
        cases hbs
      · cases m with
        | read => exact absurd rfl hread
        | _ => trivial
  · exact fun hP t hstep => (h.step hP hstep).sound

/-- **The reader passes on nothing but what was read, in every state a run comes through, exactly when
it is asked to stop behind every read that failed and before it looks at the result.** -/
theorem sound_iff (charSigned keepsEmpty : Bool) (endpoint : Byte) (filters : List Plugin)
    (moves : List TcpMove) :
    (∀ past t, past <+: moves →
        Runs.run (step charSigned keepsEmpty) (new endpoint filters) past = some t →
        t.Sound keepsEmpty) ↔
      Runs.Along (step charSigned keepsEmpty) Stopped (new endpoint filters) moves :=
  Runs.reached_forall_iff (Tracks keepsEmpty) (fun _ _ _ hstep hP h => h.step hP hstep)
    (fun _ _ h => h.sound_step_iff) (tracks_new keepsEmpty endpoint filters)
    (tracks_new keepsEmpty endpoint filters).sound moves

/-- A read that fails puts 65535 bytes behind a null pointer into the queue. -/
theorem sound_fails :
    let moves : List TcpMove := [.move .read, .receive .failure, .move .read, .move .read]
    ((Runs.run (step true false) (new 0x81 []) moves).map fun t => t.relay.traffic.relayed) =
        some [Packet.new 0x81 none 65535] ∧
      ¬ ∀ past t, past <+: moves → Runs.run (step true false) (new 0x81 []) past = some t →
        t.Sound false := by
  refine ⟨rfl, fun h => ?_⟩
  obtain ⟨bs, hbs, -⟩ := (h _ _ (List.prefix_refl _) rfl).data (Packet.new 0x81 none 65535)
    (by decide) (by decide)
  cases hbs

end TcpRelay

end UsbProxy
