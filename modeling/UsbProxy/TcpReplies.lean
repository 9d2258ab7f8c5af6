import UsbProxy.Library.Runs
import UsbProxy.TcpControl

/-!
# Control replies over TCP

A reply to a control request has a status byte and, when it has data, their length in front, but nothing
that says which request it answers, and `control_request` reads once.  A session is a sequence of
requests, each with the replies that arrive until its read; `controlReplies_iff` says in which sessions
every request gets its own reply or none.
-/

namespace UsbProxy

/-! ## A reply -/

/-- What `HostProxy_TCP` is told to answer. -/
inductive TcpReply
  | stall
  | ack
  | data (bytes : List Byte)

/-- `stall_ep`, `control_ack` and `send_data` on endpoint 0; no more data than were asked for. -/
def TcpReply.bytes (wLength : UInt16) : TcpReply → List Byte
  | .stall => [1]
  | .ack => [0, 0, 0]
  | .data bytes => HostProxyTCP.sendData 0 (bytes.take wLength.toNat)

inductive ControlResult
  /-- `-1`. -/
  | failure
  /-- `0`, with the bytes copied to `dataptr`. -/
  | returns (data : List Byte)
  /-- The copy reads behind the buffer. -/
  | overreads
  deriving DecidableEq, Repr

def TcpReply.result (wLength : UInt16) : TcpReply → ControlResult
  | .stall => .failure
  | .ack => .returns []
  | .data bytes => .returns (bytes.take wLength.toNat)

/-- What `DeviceProxy_TCP::control_request` makes of the bytes it read. -/
def DeviceProxyTCP.readReply (wLength : UInt16) : List Byte → ControlResult
  | [] => .failure
  | status :: buf =>
    if status ≠ 0 then .failure
    else
      match buf with
      | hi :: lo :: data =>
        let usblen := hi.toNat * 256 + lo.toNat
        let nbytes := min usblen wLength.toNat
        if nbytes ≤ data.length then .returns (data.take nbytes) else .overreads
      | _ => .overreads

/-- The reads one write arrives in. -/
def arrivals (bytes : List Byte) : List (List Byte) :=
  (List.range ((bytes.length + (TCP_BUFFER_SIZE - 1)) / TCP_BUFFER_SIZE)).map fun k =>
    (bytes.drop (TCP_BUFFER_SIZE * k)).take TCP_BUFFER_SIZE

/-- A write that fits in the buffer arrives in one read, a longer one begins with a full buffer. -/
theorem exists_arrivals {bytes : List Byte} (hne : bytes ≠ []) :
    ∃ rest, arrivals bytes = bytes.take TCP_BUFFER_SIZE :: rest ∧
      (bytes.length ≤ TCP_BUFFER_SIZE → rest = []) := by
  have hpos := List.length_pos_iff.2 hne
  have hsize : TCP_BUFFER_SIZE = 1456 := rfl
  obtain ⟨n, hn⟩ : ∃ n, (bytes.length + (TCP_BUFFER_SIZE - 1)) / TCP_BUFFER_SIZE = n + 1 :=
    ⟨_, (Nat.sub_add_cancel (Nat.div_pos (by omega) (by omega))).symm⟩
  unfold arrivals
  rw [hn, List.range_succ_eq_map, List.map_cons, Nat.mul_zero, List.drop_zero]
  refine ⟨_, rfl, fun hle => ?_⟩
  have hone : n = 0 := by
    rw [hsize] at hn hle
    omega
  rw [hone]
  rfl

theorem TcpReply.bytes_ne_nil (wLength : UInt16) (reply : TcpReply) : reply.bytes wLength ≠ [] := by
  cases reply <;> simp [bytes, HostProxyTCP.sendData]

theorem DeviceProxyTCP.readReply_header (wLength : UInt16) (hi lo : Byte) (data : List Byte) :
    readReply wLength (0 :: hi :: lo :: data) =
      if min (hi.toNat * 256 + lo.toNat) wLength.toNat ≤ data.length then
        .returns (data.take (min (hi.toNat * 256 + lo.toNat) wLength.toNat))
      else .overreads := by
  simp [readReply]

theorem header_length {n : ℕ} (h : n < 65536) :
    (UInt8.ofNat (n / 256)).toNat * 256 + (UInt8.ofNat (n % 256)).toNat = n := by
  rw [UInt8.toNat_ofNat_of_lt' (show n / 256 < 256 by omega),
    UInt8.toNat_ofNat_of_lt' (show n % 256 < 256 by omega)]
  omega

/-- One read gives back what was answered exactly when the whole reply fits in it. -/
theorem readReply_iff (wLength : UInt16) (reply : TcpReply) :
    DeviceProxyTCP.readReply wLength ((reply.bytes wLength).take TCP_BUFFER_SIZE) =
      reply.result wLength ↔ (reply.bytes wLength).length ≤ TCP_BUFFER_SIZE := by
  have hsize : TCP_BUFFER_SIZE = 1453 + 3 := rfl
  cases reply with
  | stall =>
    refine iff_of_true rfl ?_
    show 1 ≤ TCP_BUFFER_SIZE
    omega
  | ack =>
    refine iff_of_true ?_ (show 3 ≤ TCP_BUFFER_SIZE by omega)
    have hread : (TcpReply.ack.bytes wLength).take TCP_BUFFER_SIZE = [0, 0, 0] := by
      rw [hsize]
      rfl
    have hzero : min ((0 : Byte).toNat * 256 + (0 : Byte).toNat) wLength.toNat = 0 := Nat.zero_min _
    rw [hread, DeviceProxyTCP.readReply_header, hzero]
    rfl
  | data bytes =>
    show DeviceProxyTCP.readReply wLength
      ((HostProxyTCP.sendData 0 (bytes.take wLength.toNat)).take TCP_BUFFER_SIZE) =
        .returns (bytes.take wLength.toNat) ↔
      (HostProxyTCP.sendData 0 (bytes.take wLength.toNat)).length ≤ TCP_BUFFER_SIZE
    have hle : (bytes.take wLength.toNat).length ≤ wLength.toNat := List.length_take_le ..
    have hlt := wLength.toNat_lt
    generalize bytes.take wLength.toNat = sent at hle
    have hbytes : HostProxyTCP.sendData 0 sent =
        0 :: UInt8.ofNat (sent.length / 256) :: UInt8.ofNat (sent.length % 256) :: sent := rfl
    rw [hbytes, hsize]
    simp only [List.take_succ_cons, List.length_cons]
    rw [DeviceProxyTCP.readReply_header, header_length (Nat.lt_of_le_of_lt hle hlt),
      Nat.min_eq_left hle, List.length_take]
    by_cases hfits : sent.length ≤ 1453
    · rw [if_pos (by omega), List.take_of_length_le hfits, List.take_length]
      exact iff_of_true rfl (by omega)
    · rw [if_neg (by omega)]
      exact iff_of_false (fun h => by cases h) (by omega)

/-! ## Sessions -/

/-- A request with its number. -/
structure AskedRequest where
  id : ℕ
  wLength : UInt16

/-- A reply with the request it was made for. -/
structure GivenReply where
  request : AskedRequest
  reply : TcpReply

def GivenReply.bytes (g : GivenReply) : List Byte := g.reply.bytes g.request.wLength

/-- The connection of endpoint 0, seen from the device proxy. -/
structure ControlLink where
  count : ℕ
  /-- The requests the peer may still answer, in the order it got them. -/
  outstanding : List AskedRequest
  /-- The reads that wait in the socket, each with the number of the request it answers. -/
  inbox : List (ℕ × List Byte)

/-- A call of `control_request`: the setup packet, and the replies that arrive between the last read and
the one of this call, each behind a number of requests that are passed over. -/
structure ControlRound where
  setupPacket : CtrlRequest
  replies : List (ℕ × TcpReply)

/-- The peer answers in order; nothing comes of a reply to no request. -/
def give : List AskedRequest → List (ℕ × TcpReply) → List GivenReply × List AskedRequest
  | outstanding, [] => ([], outstanding)
  | outstanding, (passed, reply) :: replies =>
    match outstanding.drop passed with
    | [] => ([], [])
    | request :: outstanding =>
      let r := give outstanding replies
      (⟨request, reply⟩ :: r.1, r.2)

/-- What one call did: the replies that came to its read, what it read and what it returned. -/
structure ControlReport where
  request : AskedRequest
  given : List GivenReply
  read : Option (ℕ × List Byte)
  result : ControlResult

namespace ControlLink

def new : ControlLink := { count := 0, outstanding := [], inbox := [] }

/-- The request a call sends. -/
def request (s : ControlLink) (r : ControlRound) : AskedRequest := ⟨s.count, r.setupPacket.wLength⟩

def given (s : ControlLink) (r : ControlRound) : List GivenReply × List AskedRequest :=
  give (s.outstanding ++ [s.request r]) r.replies

/-- What waits in the socket when the call polls. -/
def waiting (s : ControlLink) (r : ControlRound) : List (ℕ × List Byte) :=
  s.inbox ++ (s.given r).1.flatMap fun g => (arrivals g.bytes).map fun bs => (g.request.id, bs)

/-- `DeviceProxy_TCP::control_request`; a poll that times out leaves the length 0. -/
def report (s : ControlLink) (r : ControlRound) : ControlReport where
  request := s.request r
  given := (s.given r).1
  read := (s.waiting r).head?
  result := DeviceProxyTCP.readReply r.setupPacket.wLength (((s.waiting r).head?.map Prod.snd).getD [])

def step (s : ControlLink) (r : ControlRound) : Option ControlLink :=
  some { count := s.count + 1, outstanding := (s.given r).2, inbox := (s.waiting r).tail }

end ControlLink

/-- Failure because no reply came in time, or the status and data of the reply to this very request. -/
def ControlReport.Right (e : ControlReport) : Prop :=
  match e.read with
  | none => e.result = .failure ∧ ∀ g ∈ e.given, g.request.id ≠ e.request.id
  | some (id, _) => id = e.request.id ∧ ∃ g ∈ e.given, g.request.id = e.request.id ∧
      e.result = g.reply.result e.request.wLength

/-- No reply to an earlier request arrives any more, and the reply to this one fits in one read. -/
def ControlLink.OnTime (s : ControlLink) (r : ControlRound) : Prop :=
  ∀ g ∈ (s.given r).1, g.request.id = s.count ∧ g.bytes.length ≤ TCP_BUFFER_SIZE

/-! ## Which reply a call reads -/

/-- Replies and what may still be answered are in the order of the requests. -/
theorem give_sublist (outstanding : List AskedRequest) (replies : List (ℕ × TcpReply)) :
    ((give outstanding replies).1.map GivenReply.request ++ (give outstanding replies).2).Sublist
      outstanding := by
  induction replies generalizing outstanding with
  | nil => exact List.Sublist.refl _
  | cons answer replies ih =>
    obtain ⟨passed, reply⟩ := answer
    have hdrop := List.drop_sublist passed outstanding
    unfold give
    cases h : outstanding.drop passed with
    | nil => exact List.nil_sublist _
    | cons request later =>
      rw [h] at hdrop
      exact ((ih later).cons_cons request).trans hdrop

namespace ControlLink

/-- Between two calls on time nothing waits, and the requests are numbered in their order. -/
structure Inv (s : ControlLink) : Prop where
  inbox : s.inbox = []
  outstanding_lt : ∀ a ∈ s.outstanding, a.id < s.count
  outstanding_sorted : s.outstanding.Pairwise fun a b => a.id < b.id

theorem inv_new : new.Inv := ⟨rfl, fun _ h => absurd h List.not_mem_nil, List.Pairwise.nil⟩

variable {s : ControlLink} {r : ControlRound}

theorem Inv.asked_sorted (hs : s.Inv) (r : ControlRound) :
    (s.outstanding ++ [s.request r]).Pairwise fun a b => a.id < b.id := by
  refine List.pairwise_append.2 ⟨hs.outstanding_sorted, List.pairwise_singleton _ _, ?_⟩
  intro a ha b hb
  rw [List.mem_singleton.1 hb]
  exact hs.outstanding_lt a ha

theorem Inv.asked_cases (hs : s.Inv) {a : AskedRequest} (ha : a ∈ s.outstanding ++ [s.request r]) :
    a.id < s.count ∨ a = s.request r := by
  rcases List.mem_append.1 ha with h | h
  · exact .inl (hs.outstanding_lt a h)
  · exact .inr (List.mem_singleton.1 h)

theorem given_sublist (s : ControlLink) (r : ControlRound) :
    ((s.given r).1.map GivenReply.request ++ (s.given r).2).Sublist
      (s.outstanding ++ [s.request r]) := give_sublist _ _

theorem Inv.answered (hs : s.Inv) {g : GivenReply} {rest : List GivenReply}
    (hgiven : (s.given r).1 = g :: rest) (hid : g.request.id = s.count) :
    g.request = s.request r ∧ rest = [] := by
  have hsub := given_sublist s r
  have hsorted := (hs.asked_sorted r).sublist hsub
  rw [hgiven, List.map_cons, List.cons_append] at hsub hsorted
  constructor
  · rcases hs.asked_cases (hsub.subset List.mem_cons_self) with h | h
    · exact absurd hid h.ne
    · exact h
  · cases rest with
    | nil => rfl
    | cons later rest =>
      have hlt : g.request.id < later.request.id :=
        List.rel_of_pairwise_cons hsorted (by simp)
      have hmem : later.request ∈ s.outstanding ++ [s.request r] := hsub.subset (by simp)
      rcases hs.asked_cases hmem with h | h
      · omega
      · rw [h, hid] at hlt
        exact absurd hlt (lt_irrefl s.count)

theorem Inv.waiting_nil (hs : s.Inv) (hgiven : (s.given r).1 = []) : s.waiting r = [] := by
  unfold waiting
  rw [hs.inbox, hgiven]
  rfl

/-- The first read is the beginning of the first reply. -/
theorem Inv.exists_waiting (hs : s.Inv) {g : GivenReply} {rest : List GivenReply}
    (hgiven : (s.given r).1 = g :: rest) :
    ∃ later, s.waiting r = (g.request.id, g.bytes.take TCP_BUFFER_SIZE) :: later ∧
      (rest = [] → g.bytes.length ≤ TCP_BUFFER_SIZE → later = []) := by
  obtain ⟨reads, hreads, hone⟩ := exists_arrivals (g.reply.bytes_ne_nil g.request.wLength)
  unfold waiting
  rw [hs.inbox, hgiven, List.flatMap_cons, show arrivals g.bytes = _ from hreads]
  refine ⟨_, rfl, fun hrest hfits => ?_⟩
  rw [hrest, hone hfits]
  rfl

/-- Under the invariant a call gets its own reply or none exactly when it is on time. -/
theorem Inv.right_iff (hs : s.Inv) (r : ControlRound) : (s.report r).Right ↔ s.OnTime r := by
  unfold ControlReport.Right OnTime report
  cases hgiven : (s.given r).1 with
  | nil =>
    rw [hs.waiting_nil hgiven]
    exact iff_of_true ⟨rfl, List.forall_mem_nil _⟩ (List.forall_mem_nil _)
  | cons g rest =>
    obtain ⟨later, hwaiting, -⟩ := hs.exists_waiting hgiven
    rw [hwaiting]
    by_cases hid : g.request.id = s.count
    · obtain ⟨hrequest, rfl⟩ := hs.answered hgiven hid
      have hlength : g.request.wLength = r.setupPacket.wLength := by rw [hrequest]; rfl
      have hread := readReply_iff r.setupPacket.wLength g.reply
      simp only [List.mem_singleton, forall_eq, exists_eq_left, GivenReply.bytes, hlength]
      constructor
      · rintro ⟨-, -, hresult⟩
        exact ⟨hid, hread.1 hresult⟩
      · rintro ⟨-, hfits⟩
        exact ⟨hid, hid, hread.2 hfits⟩
    · exact iff_of_false (fun h => hid h.1) fun h => hid (h g List.mem_cons_self).1

theorem Inv.step (hs : s.Inv) {t : ControlLink} (ht : s.step r = some t) (htime : s.OnTime r) :
    t.Inv := by
  have hsub := given_sublist s r
  cases ht
  refine ⟨?_, fun a ha => ?_, ?_⟩
  · show (s.waiting r).tail = []
    cases hgiven : (s.given r).1 with
    | nil => rw [hs.waiting_nil hgiven]; rfl
    | cons g rest =>
      obtain ⟨hid, hfits⟩ := htime g (by rw [hgiven]; exact List.mem_cons_self)
      obtain ⟨later, hwaiting, hlater⟩ := hs.exists_waiting hgiven
      rw [hwaiting, hlater (hs.answered hgiven hid).2 hfits]
      rfl
  · show a.id < s.count + 1
    rcases hs.asked_cases (hsub.subset (List.mem_append_right _ ha)) with h | h
    · omega
    · rw [h]
      exact Nat.lt_succ_self s.count
  · exact (hs.asked_sorted r).sublist ((List.sublist_append_right _ _).trans hsub)

end ControlLink

/-- **Control replies.**  In a session every call returns its own reply, or fails because none came in
time, exactly when no reply to an earlier call arrives any more and every reply fits in one read. -/
theorem controlReplies_iff (rounds : List ControlRound) :
    (∀ e ∈ Runs.outputs ControlLink.step ControlLink.report .new rounds, e.Right) ↔
      Runs.Along ControlLink.step ControlLink.OnTime .new rounds :=
  Runs.outputs_forall_iff ControlLink.Inv
    (fun _ _ _ ht htime hs => hs.step ht htime) (fun _ r hs => hs.right_iff r) ControlLink.inv_new
    rounds

/-- GET_DESCRIPTOR of the device. -/
def getDeviceDescriptor : CtrlRequest :=
  { bRequestType := 0x80, bRequest := 6, wValue := 0x100, wIndex := 0, wLength := 18 }

/-- Nobody answers the first request in time; the second one returns the data of the first. -/
theorem not_controlReplies_late :
    ¬ ∀ rounds : List ControlRound,
      ∀ e ∈ Runs.outputs ControlLink.step ControlLink.report .new rounds, e.Right := by
  intro h
  have hright := h [⟨getDeviceDescriptor, []⟩, ⟨setIdle, [(0, .data [18, 1])]⟩]
    _ (List.mem_cons_of_mem _ List.mem_cons_self)
  exact absurd hright.1 (by decide)

end UsbProxy
