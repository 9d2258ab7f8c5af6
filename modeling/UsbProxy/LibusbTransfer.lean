import UsbProxy.DataRelaying
import UsbProxy.Library.Resending
import UsbProxy.LibusbInterfaces

/-!
# `DeviceProxy_LibUSB::send_data`

A bulk transfer that fails or comes out short is made again, up to five times, from the start of the
buffer: `dataptr` and `length` do not move.  What libusb answers to the transfers is an input, the value
of `please_stop` at the end of each round included.
-/

namespace UsbProxy

open Resending

def MAX_ATTEMPTS : ℕ := 5

def USB_ENDPOINT_XFER_CONTROL : Byte := 0
def USB_ENDPOINT_XFER_BULK : Byte := 2
def USB_ENDPOINT_XFER_INT : Byte := 3

/-- What a transfer of `length` bytes comes to, and `please_stop` behind it. -/
structure TransferOutcome (length : ℕ) where
  rc : LibusbError
  transferred : Fin (length + 1)
  pleaseStop : Bool
  deriving DecidableEq, Repr

/-- What `send_data` asks of libusb, with the buffer it passes. -/
inductive LibusbCall (length : ℕ)
  | bulkTransfer (endpoint : Byte) (dataptr : Vector Byte length) (outcome : TransferOutcome length)
  | interruptTransfer (endpoint : Byte) (dataptr : Vector Byte length)
      (outcome : TransferOutcome length)
  | clearHalt (endpoint : Byte)

namespace TransferOutcome

variable {length : ℕ}

def halted (o : TransferOutcome length) : Bool := o.rc == .pipe || o.rc == .timeout

def incomplete (o : TransferOutcome length) : Bool := o.transferred.val != length

/-- The first and the last part of the loop's condition. -/
def again (o : TransferOutcome length) : Bool := (o.halted || o.incomplete) && !o.pleaseStop

end TransferOutcome

namespace LibusbCall

variable {length : ℕ}

def outcome? : LibusbCall length → Option (TransferOutcome length)
  | bulkTransfer _ _ o => some o
  | interruptTransfer _ _ o => some o
  | clearHalt _ => none

/-- What the device accepts: the first `transferred` bytes of the buffer. -/
def accepted : LibusbCall length → List Byte
  | bulkTransfer _ dataptr o => dataptr.toList.take o.transferred
  | interruptTransfer _ dataptr o => dataptr.toList.take o.transferred
  | clearHalt _ => []

end LibusbCall

namespace DeviceProxyLibUSB

variable {length : ℕ}

/-- The `do .. while` of a bulk endpoint behind `attempt` rounds: the outcomes of its further transfers.
`bulkAttempts_succ` says that `MAX_ATTEMPTS` ends it before the fuel can. -/
def bulkAttempts (outcomes : ℕ → TransferOutcome length) :
    (fuel attempt : ℕ) → List (TransferOutcome length)
  | 0, _ => []
  | fuel + 1, attempt =>
    let o := outcomes attempt
    let attempt := attempt + 1
    o :: if (o.halted || o.incomplete) && decide (attempt < MAX_ATTEMPTS) && !o.pleaseStop then
      bulkAttempts outcomes fuel attempt
    else []

/-- One round of the loop: the transfer, and the halt cleared behind it. -/
def bulkRound (endpoint : Byte) (dataptr : Vector Byte length) (o : TransferOutcome length) :
    List (LibusbCall length) :=
  .bulkTransfer endpoint dataptr o :: if o.halted then [.clearHalt endpoint] else []

/-- `outcomes` are the answers to the transfers in their order. -/
def sendData (p : DeviceProxyLibUSB) (endpoint attributes : Byte) (dataptr : Vector Byte length)
    (outcomes : ℕ → TransferOutcome length) : List (LibusbCall length) :=
  if !p.endpointInterfaceClaimed endpoint then []
  else
    let xfertype := attributes &&& USB_ENDPOINT_XFERTYPE_MASK
    if xfertype = USB_ENDPOINT_XFER_CONTROL then []
    else if xfertype = USB_ENDPOINT_XFER_ISOC then []
    else if xfertype = USB_ENDPOINT_XFER_BULK then
      (bulkAttempts outcomes MAX_ATTEMPTS 0).flatMap (bulkRound endpoint dataptr)
    else if xfertype = USB_ENDPOINT_XFER_INT then [.interruptTransfer endpoint dataptr (outcomes 0)]
    else []

/-- What the device accepts over all calls. -/
def acceptedBy (calls : List (LibusbCall length)) : List Byte := calls.flatMap LibusbCall.accepted

/-- The device has a prefix of the buffer, and all of it where the last transfer was successful and
complete. -/
def SentOnce (dataptr : Vector Byte length) (calls : List (LibusbCall length)) : Prop :=
  acceptedBy calls <+: dataptr.toList ∧
    ∀ o, (calls.filterMap LibusbCall.outcome?).getLast? = some o → o.rc = .success →
      o.transferred = length → acceptedBy calls = dataptr.toList

/-- Two of the transfers do not both get bytes across: with every earlier one calling for another, `i` and
`j` are made. -/
def OneTransfers (outcomes : ℕ → TransferOutcome length) : Prop :=
  ∀ i j, i < j → j < MAX_ATTEMPTS → (∀ k < j, (outcomes k).again = true) →
    (outcomes i).transferred.val = 0 ∨ (outcomes j).transferred.val = 0

/-! ## The attempts -/

section Attempts

variable {outcomes : ℕ → TransferOutcome length}

theorem bulkAttempts_succ (fuel attempt : ℕ) (h : attempt + (fuel + 1) = MAX_ATTEMPTS) :
    bulkAttempts outcomes (fuel + 1) attempt =
      outcomes attempt ::
        if (outcomes attempt).again = true then bulkAttempts outcomes fuel (attempt + 1) else [] := by
  rw [bulkAttempts, TransferOutcome.again]
  cases fuel with
  | zero =>
    have hlast : ¬ attempt + 1 < MAX_ATTEMPTS := by omega
    simp [bulkAttempts, hlast]
  | succ fuel =>
    have hmore : attempt + 1 < MAX_ATTEMPTS := by omega
    simp [hmore]

/-- The `j`-th attempt is made behind outcomes that all call for another one. -/
theorem bulkAttempts_getElem? (fuel attempt j : ℕ) (h : attempt + fuel = MAX_ATTEMPTS) :
    (bulkAttempts outcomes fuel attempt)[j]? =
      if j < fuel ∧ ∀ k < j, (outcomes (attempt + k)).again = true then
        some (outcomes (attempt + j))
      else none := by
  induction fuel generalizing attempt j with
  | zero => simp [bulkAttempts]
  | succ fuel ih =>
    rw [bulkAttempts_succ fuel attempt h]
    cases j with
    | zero => simp
    | succ j =>
      rw [List.getElem?_cons_succ]
      have hsplit : (∀ k < j + 1, (outcomes (attempt + k)).again = true) ↔
          (outcomes attempt).again = true ∧
            ∀ k < j, (outcomes (attempt + 1 + k)).again = true := by
        rw [Nat.forall_lt_succ_left]
        simp only [Nat.add_zero, Nat.add_assoc, Nat.add_comm 1]
      by_cases hagain : (outcomes attempt).again = true
      · rw [if_pos hagain, ih (attempt + 1) j (by omega)]
        simp only [hsplit, hagain, true_and, Nat.add_lt_add_iff_right, Nat.add_assoc,
          Nat.add_comm 1]
      · rw [if_neg hagain, List.getElem?_nil, if_neg]
        exact fun hmade => hagain (hsplit.1 hmade.2).1

/-- The counts of the attempts, as `taken` wants them. -/
def counts (outcomes : ℕ → TransferOutcome length) : List ℕ :=
  (bulkAttempts outcomes MAX_ATTEMPTS 0).map fun o => o.transferred.val

theorem counts_getElem? (j : ℕ) :
    (counts outcomes)[j]? =
      if j < MAX_ATTEMPTS ∧ ∀ k < j, (outcomes k).again = true then
        some (outcomes j).transferred.val
      else none := by
  rw [counts, List.getElem?_map, bulkAttempts_getElem? MAX_ATTEMPTS 0 j (Nat.zero_add _)]
  simp only [Nat.zero_add]
  split_ifs <;> rfl

theorem single_counts_iff : Single (counts outcomes) ↔ OneTransfers outcomes := by
  unfold Single OneTransfers
  rw [List.pairwise_iff_getElem]
  constructor
  · intro h i j hij hj hagain
    obtain ⟨hi', hie⟩ := List.getElem?_eq_some_iff.1
      ((counts_getElem? i).trans (if_pos ⟨hij.trans hj, fun k hk => hagain k (hk.trans hij)⟩))
    obtain ⟨hj', hje⟩ := List.getElem?_eq_some_iff.1
      ((counts_getElem? j).trans (if_pos ⟨hj, hagain⟩))
    rw [← hie, ← hje]
    exact h i j hi' hj' hij
  · intro h i j hi hj hij
    have hie : (counts outcomes)[i]? = _ := counts_getElem? i
    have hje : (counts outcomes)[j]? = _ := counts_getElem? j
    rw [List.getElem?_eq_getElem hi] at hie
    rw [List.getElem?_eq_getElem hj] at hje
    split_ifs at hie with hmadei
    split_ifs at hje with hmadej
    rw [Option.some.inj hie, Option.some.inj hje]
    exact h i j hij hmadej.1 hmadej.2

/-! ## What the device has -/

theorem acceptedBy_rounds (endpoint : Byte) (dataptr : Vector Byte length)
    (os : List (TransferOutcome length)) :
    acceptedBy (os.flatMap (bulkRound endpoint dataptr)) =
      taken dataptr.toList (os.map fun o => o.transferred.val) := by
  induction os with
  | nil => rfl
  | cons o os ih =>
    unfold acceptedBy at ih
    rw [acceptedBy, List.flatMap_cons, List.flatMap_append, ih, List.map_cons, taken_cons]
    congr 1
    unfold bulkRound
    split_ifs <;> simp [LibusbCall.accepted]

theorem outcomes_rounds (endpoint : Byte) (dataptr : Vector Byte length)
    (os : List (TransferOutcome length)) :
    (os.flatMap (bulkRound endpoint dataptr)).filterMap LibusbCall.outcome? = os := by
  induction os with
  | nil => rfl
  | cons o os ih =>
    rw [List.flatMap_cons, List.filterMap_append, ih]
    unfold bulkRound
    split_ifs <;> rfl

/-- A complete last transfer makes a prefix the whole. -/
theorem sentOnce_rounds_iff (endpoint : Byte) (dataptr : Vector Byte length)
    (os : List (TransferOutcome length)) :
    SentOnce dataptr (os.flatMap (bulkRound endpoint dataptr)) ↔
      taken dataptr.toList (os.map fun o => o.transferred.val) <+: dataptr.toList := by
  unfold SentOnce
  rw [acceptedBy_rounds, outcomes_rounds]
  refine and_iff_left_of_imp fun hprefix o hlast _ hcomplete => ?_
  refine taken_eq_of_isPrefix hprefix ?_
  rw [Vector.length_toList]
  exact List.mem_map.2 ⟨o, List.mem_of_getLast? hlast, hcomplete⟩

theorem sendData_bulk (p : DeviceProxyLibUSB) {endpoint attributes : Byte}
    (h : attributes &&& USB_ENDPOINT_XFERTYPE_MASK = USB_ENDPOINT_XFER_BULK)
    (hc : p.endpointInterfaceClaimed endpoint = true) (dataptr : Vector Byte length) :
    p.sendData endpoint attributes dataptr outcomes =
      (bulkAttempts outcomes MAX_ATTEMPTS 0).flatMap (bulkRound endpoint dataptr) := by
  unfold sendData
  rw [hc, h]
  rfl

theorem sendData_unclaimed (p : DeviceProxyLibUSB) {endpoint : Byte} (attributes : Byte)
    (hc : p.endpointInterfaceClaimed endpoint = false) (dataptr : Vector Byte length) :
    p.sendData endpoint attributes dataptr outcomes = [] := by
  unfold sendData
  rw [hc]
  rfl

theorem sentOnce_nil (dataptr : Vector Byte length) : SentOnce dataptr [] :=
  ⟨List.nil_prefix, fun _ h => nomatch h⟩

theorem counts_le : ∀ b ∈ counts outcomes, b ≤ length := by
  intro b hb
  obtain ⟨o, -, rfl⟩ := List.mem_map.1 hb
  exact o.transferred.is_le

theorem forall_vector_iff {P : List Byte → Prop} :
    (∀ dataptr : Vector Byte length, P dataptr.toList) ↔ ∀ data, data.length = length → P data := by
  constructor
  · intro h data hdata
    exact h ⟨data.toArray, hdata⟩
  · exact fun h dataptr => h _ dataptr.length_toList

/-- **Whatever buffer is sent to a bulk endpoint, the device has a prefix of it, and all of it behind a
successful complete transfer, exactly when the endpoint is not claimed or no two transfers of the loop
both get bytes across.** -/
theorem sendData_sentOnce_iff (p : DeviceProxyLibUSB) (endpoint attributes : Byte)
    (hbulk : attributes &&& USB_ENDPOINT_XFERTYPE_MASK = USB_ENDPOINT_XFER_BULK)
    (outcomes : ℕ → TransferOutcome length) :
    (∀ dataptr : Vector Byte length,
      SentOnce dataptr (p.sendData endpoint attributes dataptr outcomes)) ↔
      (p.endpointInterfaceClaimed endpoint = true → OneTransfers outcomes) := by
  cases hc : p.endpointInterfaceClaimed endpoint with
  | false =>
    refine iff_of_true (fun dataptr => ?_) fun h => nomatch h
    rw [sendData_unclaimed p attributes hc]
    exact sentOnce_nil dataptr
  | true =>
    have : Nontrivial Byte := ⟨0, 1, by decide⟩
    rw [eq_self, true_imp_iff, ← single_counts_iff, ← taken_isPrefix_iff (α := Byte) counts_le,
      ← forall_vector_iff]
    refine forall_congr' fun dataptr => ?_
    rw [sendData_bulk p hbulk hc]
    exact sentOnce_rounds_iff endpoint dataptr _

end Attempts

/-- A proxy whose OUT endpoint 2 belongs to the claimed interface 0. -/
def claimedOut : DeviceProxyLibUSB :=
  ((new true).setEndpointInterface 0x02 0).claimInterface 0 .success

/-- The device stalls, then takes everything. -/
def stalled (attempt : ℕ) : TransferOutcome 3 :=
  if attempt = 0 then ⟨.pipe, 0, false⟩ else ⟨.success, 3, false⟩

theorem sendData_sentOnce_stalled :
    (0x02 : Byte) &&& USB_ENDPOINT_XFERTYPE_MASK = USB_ENDPOINT_XFER_BULK ∧
      SentOnce #v[10, 20, 30] (claimedOut.sendData 0x02 0x02 #v[10, 20, 30] stalled) := by
  refine ⟨rfl, (sendData_sentOnce_iff claimedOut 0x02 0x02 rfl stalled).2 (fun _ => ?_) _⟩
  intro i j hij _ hagain
  cases i with
  | zero => exact .inl rfl
  | succ i =>
    have := hagain (i + 1) hij
    exact nomatch this

/-- The transfer times out behind its first byte, and the second attempt sends both. -/
def timedOutShort (attempt : ℕ) : TransferOutcome 2 :=
  if attempt = 0 then ⟨.timeout, 1, false⟩ else ⟨.success, 2, false⟩

theorem not_sendData_sentOnce :
    ¬ ∀ (p : DeviceProxyLibUSB) (endpoint attributes : Byte) (length : ℕ)
      (dataptr : Vector Byte length) (outcomes : ℕ → TransferOutcome length),
      attributes &&& USB_ENDPOINT_XFERTYPE_MASK = USB_ENDPOINT_XFER_BULK →
        SentOnce dataptr (p.sendData endpoint attributes dataptr outcomes) := by
  intro h
  have hprefix : [1, 1, 0] <+: ([1, 0] : List Byte) :=
    (h claimedOut 0x02 0x02 2 #v[1, 0] timedOutShort rfl).1
  revert hprefix
  decide

end DeviceProxyLibUSB

end UsbProxy
