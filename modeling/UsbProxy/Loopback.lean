import Mathlib.Data.List.Pairwise
import UsbProxy.Library.Lanes
import UsbProxy.Library.Rings
import UsbProxy.Packet

/-!
# The loopback device

`DeviceProxy_Loopback` keeps what it is sent in a ring of `BUF_LEN` packets.  `send_data` takes a
copy of the ring's packet, puts the length and a fresh copy of the payload into that, and does not
store it back.  `calls_spec` says what `receive_data` answers in every run, `stored_eq` that the
ring counts as a queue of at most `BUF_LEN` payloads does, and `isFifo_iff` on which runs the device
is that queue.
-/

namespace UsbProxy

open Rings

def BUF_LEN : ℕ := 100

/-- `struct pkt`; an address is that of an allocation. -/
structure LoopbackPkt where
  length : ℤ
  data : Option ℕ
  deriving DecidableEq, Repr

/-- A loopback device, with the payloads that `malloc` made room for and the addresses given to
`free`. -/
structure Loopback extends Ring where
  buffer : List LoopbackPkt
  heap : List (List Byte)
  freed : List ℕ
  deriving DecidableEq, Repr

/-- What `receive_data` makes of `*length` and of `*dataptr`, which it may leave as it was. -/
structure LoopbackReply where
  length : ℤ
  dataptr : Option (Option ℕ)
  deriving DecidableEq, Repr

/-- The calls; the endpoint, its attributes and its packet size are not looked at. -/
inductive LoopbackCall
  | sendData (payload : List Byte)
  | receiveData
  deriving DecidableEq, Repr

namespace Loopback

/-- `connect` of a new device. -/
def connect : Loopback where
  head := 0
  tail := 0
  full := false
  buffer := List.replicate BUF_LEN { length := 0, data := none }
  heap := []
  freed := []

def slot (s : Loopback) (i : ℕ) : LoopbackPkt := s.buffer.getD i { length := 0, data := none }

def sendData (s : Loopback) (payload : List Byte) : Loopback :=
  if s.head = s.tail ∧ s.full = true then s
  else
    -- The packet with the length and the copy is a local variable; the ring's only loses its data.
    { heap := s.heap ++ [payload]
      freed := s.freed ++ (s.slot s.tail).data.toList
      buffer := s.buffer.set s.tail { s.slot s.tail with data := none }
      head := s.head
      tail := (s.tail + 1) % BUF_LEN
      full := s.head == (s.tail + 1) % BUF_LEN }

def receiveData (s : Loopback) : LoopbackReply × Loopback :=
  if s.head = s.tail ∧ s.full = false then ({ length := 0, dataptr := none }, s)
  else
    let next := s.slot s.head
    ({ length := next.length, dataptr := some next.data },
      { s with
        head := (s.head + 1) % BUF_LEN
        full := !((s.head + 1) % BUF_LEN == s.tail) })

/-- The answers of the `receive_data` calls and the device afterwards. -/
def calls : Loopback → List LoopbackCall → List LoopbackReply × Loopback
  | s, [] => ([], s)
  | s, .sendData payload :: cs => calls (s.sendData payload) cs
  | s, .receiveData :: cs =>
    let rest := calls s.receiveData.2 cs
    (s.receiveData.1 :: rest.1, rest.2)

/-! ## The queue -/

/-- A queue of at most `BUF_LEN` payloads: what each `receive_data` takes, and what is left. -/
def queue : List (List Byte) → List LoopbackCall → List (Option (List Byte)) × List (List Byte)
  | q, [] => ([], q)
  | q, .sendData payload :: cs => queue (Lane.offer BUF_LEN q payload) cs
  | q, .receiveData :: cs =>
    let rest := queue q.tail cs
    (q.head? :: rest.1, rest.2)

/-- An answer is what was taken: its length is 0 exactly when that is nothing, and its pointer is to
an allocation of its own that holds the payload. -/
structure Answers (s : Loopback) (taken : Option (List Byte)) (r : LoopbackReply) : Prop where
  length_eq_zero : r.length = 0 ↔ taken = none
  payload : ∀ p, taken = some p → r.length = p.length ∧
    ∃ a, r.dataptr = some (some a) ∧ s.heap[a]? = some p ∧ a ∉ s.freed

/-- The device is the queue, and no buffer is handed out twice. -/
def IsFifo (cs : List LoopbackCall) : Prop :=
  List.Forall₂ (Answers (connect.calls cs).2) (queue [] cs).1 (connect.calls cs).1 ∧
    ((connect.calls cs).1.filterMap fun r => r.dataptr.join).Nodup

/-! ## What the ring holds -/

/-- The ring has a packet for every payload of the queue, and they are all empty. -/
structure Refines (s : Loopback) (q : List (List Byte)) : Prop where
  fits : Fits BUF_LEN s.toRing
  length_buffer : s.buffer.length = BUF_LEN
  lengths : ∀ i, (s.slot i).length = 0
  contents_eq : contents BUF_LEN s.toRing s.slot = q.map fun _ => { length := 0, data := none }

variable {s : Loopback} {q : List (List Byte)}

theorem refines_connect : connect.Refines [] := by
  refine ⟨⟨by decide, by decide⟩, List.length_replicate, fun i => ?_, rfl⟩
  unfold slot connect
  rw [List.getD_eq_getElem?_getD, List.getElem?_replicate]
  split_ifs <;> rfl

theorem Refines.stored_eq (h : s.Refines q) : stored BUF_LEN s.toRing = q.length := by
  rw [← length_contents s.slot, h.contents_eq, List.length_map]

theorem slot_set (s : Loopback) (p : LoopbackPkt) (h : s.tail < s.buffer.length) (ring : Ring)
    (heap : List (List Byte)) (freed : List ℕ) :
    slot ⟨ring, s.buffer.set s.tail p, heap, freed⟩ = Function.update s.slot s.tail p := by
  ext1 i
  unfold slot
  dsimp only
  rw [List.getD_eq_getElem?_getD, List.getElem?_set]
  by_cases hi : s.tail = i
  · rw [if_pos hi, if_pos h, ← hi, Function.update_self]
    rfl
  · rw [if_neg hi, Function.update_of_ne (Ne.symm hi), List.getD_eq_getElem?_getD]

/-- A payload is dropped exactly by a full queue; otherwise the ring gets a packet without it. -/
theorem Refines.sendData (h : s.Refines q) (payload : List Byte) :
    (s.sendData payload).Refines (Lane.offer BUF_LEN q payload) := by
  have hfull := h.fits.stored_eq_iff
  rw [h.stored_eq] at hfull
  unfold Loopback.sendData
  by_cases hdrop : s.head = s.tail ∧ s.full = true
  · rw [if_pos hdrop, Lane.offer_of_le (hfull.2 hdrop).ge]
    exact h
  · have hroom : q.length < BUF_LEN := by
      refine lt_of_le_of_ne ?_ fun heq => hdrop (hfull.1 heq)
      rw [← h.stored_eq]
      exact h.fits.stored_le
    have hpkt : { s.slot s.tail with data := none } = LoopbackPkt.mk 0 none := by
      rw [← h.lengths s.tail]
    have hslot := slot_set s (LoopbackPkt.mk 0 none)
      (by rw [h.length_buffer]; exact h.fits.tail_lt) (push BUF_LEN s.toRing) (s.heap ++ [payload])
      (s.freed ++ (s.slot s.tail).data.toList)
    rw [if_neg hdrop, Lane.offer_of_lt hroom, hpkt]
    refine ⟨h.fits.push, ?_, fun i => ?_, ?_⟩
    · exact List.length_set.trans h.length_buffer
    · refine (congrArg (fun f => (f i).length) hslot).trans ?_
      by_cases hi : i = s.tail
      · rw [hi, Function.update_self]
      · rw [Function.update_of_ne hi, h.lengths]
    · refine (congrArg (contents BUF_LEN _) hslot).trans ?_
      rw [List.map_append, ← h.contents_eq]
      exact h.fits.contents_push (by rw [h.stored_eq]; exact hroom) s.slot _

/-- Nothing is answered exactly by an empty queue; otherwise the answer is an empty packet. -/
theorem Refines.receiveData (h : s.Refines q) :
    s.receiveData.1 = { length := 0, dataptr := q.head?.map fun _ => none } ∧
      s.receiveData.2.Refines q.tail := by
  have hempty := h.fits.stored_eq_zero_iff
  rw [h.stored_eq] at hempty
  unfold Loopback.receiveData
  by_cases hnone : s.head = s.tail ∧ s.full = false
  · obtain rfl := List.eq_nil_of_length_eq_zero (hempty.2 hnone)
    rw [if_pos hnone]
    exact ⟨rfl, h⟩
  · cases q with
    | nil => exact absurd (hempty.1 rfl) hnone
    | cons p q =>
      have hpop := h.fits.contents_pop (by rw [h.stored_eq]; exact Nat.succ_ne_zero _) s.slot
      rw [h.contents_eq, List.map_cons, List.cons.injEq] at hpop
      rw [if_neg hnone]
      dsimp only
      rw [← hpop.1]
      exact ⟨rfl, h.fits.pop, h.length_buffer, h.lengths, hpop.2.symm⟩

/-- **Every run.**  The answers are empty ones, for what the queue has and for what it has not. -/
theorem calls_spec (cs : List LoopbackCall) (h : s.Refines q) :
    (s.calls cs).1 = (queue q cs).1.map (fun taken =>
        { length := 0, dataptr := taken.map fun _ => none }) ∧
      (s.calls cs).2.Refines (queue q cs).2 := by
  induction cs generalizing s q with
  | nil => exact ⟨rfl, h⟩
  | cons c cs ih =>
    cases c with
    | sendData payload => exact ih (h.sendData payload)
    | receiveData =>
      obtain ⟨hreply, hnext⟩ := h.receiveData
      obtain ⟨hrest, hafter⟩ := ih hnext
      refine ⟨?_, hafter⟩
      unfold calls queue
      dsimp only
      rw [hrest, hreply, List.map_cons]

/-- **Counting.**  The ring is never wrong about how much was stored. -/
theorem stored_eq (cs : List LoopbackCall) :
    stored BUF_LEN (connect.calls cs).2.toRing = (queue [] cs).2.length :=
  (calls_spec cs refines_connect).2.stored_eq

/-! ## Which runs are right -/

/-- An empty answer is right for nothing. -/
theorem answers_empty_iff (s : Loopback) (taken : Option (List Byte)) :
    s.Answers taken { length := 0, dataptr := taken.map fun _ => none } ↔ taken = none := by
  constructor
  · intro h
    exact h.length_eq_zero.1 rfl
  · rintro rfl
    exact ⟨iff_of_true rfl rfl, fun p hp => by cases hp⟩

theorem forall₂_empty_iff (s : Loopback) (taken : List (Option (List Byte))) :
    List.Forall₂ s.Answers taken
        (taken.map fun taken => { length := 0, dataptr := taken.map fun _ => none }) ↔
      ∀ o ∈ taken, o = none := by
  rw [List.forall₂_map_right_iff, List.forall₂_same]
  exact forall₂_congr fun o _ => answers_empty_iff s o

theorem filterMap_dataptr (taken : List (Option (List Byte))) :
    ((taken.map fun taken => LoopbackReply.mk 0 (taken.map fun _ => none)).filterMap fun r =>
      r.dataptr.join) = [] := by
  rw [List.filterMap_map, List.filterMap_eq_nil_iff]
  intro o _
  cases o <;> rfl

/-- A queue with something in it gives something to the next `receive_data`. -/
theorem queue_none_iff_of_ne (cs : List LoopbackCall) (hq : q ≠ []) :
    (∀ o ∈ (queue q cs).1, o = none) ↔ ∀ d ∈ cs, d ≠ .receiveData := by
  induction cs generalizing q with
  | nil =>
    exact iff_of_true (fun o ho => absurd ho List.not_mem_nil) fun d hd => absurd hd List.not_mem_nil
  | cons c cs ih =>
    rw [List.forall_mem_cons]
    cases c with
    | sendData payload =>
      rw [and_iff_right LoopbackCall.noConfusion]
      exact ih (Lane.offer_ne_nil (by decide))
    | receiveData =>
      refine iff_of_false (fun h => ?_) fun h => h.1 rfl
      exact hq (List.head?_eq_none_iff.1 (h q.head? (List.mem_cons_self ..)))

theorem queue_none_iff (cs : List LoopbackCall) :
    (∀ o ∈ (queue [] cs).1, o = none) ↔
      cs.Pairwise fun c d => c ≠ .receiveData → d ≠ .receiveData := by
  induction cs with
  | nil => exact iff_of_true (fun o ho => absurd ho List.not_mem_nil) List.Pairwise.nil
  | cons c cs ih =>
    rw [List.pairwise_cons]
    cases c with
    | sendData payload =>
      refine (queue_none_iff_of_ne cs (Lane.offer_ne_nil (by decide))).trans ?_
      constructor
      · intro h
        exact ⟨fun d hd _ => h d hd, List.pairwise_of_forall_mem_list fun c _ d hd _ => h d hd⟩
      · rintro ⟨h, -⟩ d hd
        exact h d hd LoopbackCall.noConfusion
    | receiveData =>
      rw [and_iff_right fun d _ hne => absurd rfl hne, ← ih]
      exact List.forall_mem_cons.trans (and_iff_right rfl)

/-- **The loopback device.**  A run makes it the queue exactly when nothing is received after
something was sent. -/
theorem isFifo_iff (cs : List LoopbackCall) :
    IsFifo cs ↔ cs.Pairwise fun c d => c ≠ .receiveData → d ≠ .receiveData := by
  unfold IsFifo
  rw [(calls_spec cs refines_connect).1, filterMap_dataptr, forall₂_empty_iff,
    and_iff_left List.nodup_nil]
  exact queue_none_iff cs

/-- Three bytes are sent; nothing comes back. -/
theorem isFifo_fails : ¬ IsFifo [.sendData [1, 2, 3], .receiveData] := by
  rintro ⟨h, -⟩
  cases h with
  | cons h _ => exact absurd (h.length_eq_zero.1 rfl) (by decide)

end Loopback

end UsbProxy
