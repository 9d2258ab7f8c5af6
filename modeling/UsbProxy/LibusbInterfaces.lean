import Mathlib.Logic.Function.Basic
import UsbProxy.Library.Runs
import UsbProxy.Packet

/-!
# Claimed interfaces in `DeviceProxy_LibUSB`

The proxy keeps one entry for each endpoint number: the interface it belongs to and whether that
interface is claimed.  An IN and an OUT endpoint of the same number share the entry, and the flag is
written only where the entry already names the interface.  `InterfaceBook` keeps what the calls said,
by whole addresses and by interfaces.
-/

namespace UsbProxy

inductive LibusbError
  | success
  | io
  | invalidParam
  | access
  | noDevice
  | notFound
  | busy
  | timeout
  | overflow
  | pipe
  | interrupted
  | noMem
  | notSupported
  | other
  deriving DecidableEq, Repr

/-- An entry of `epInterfaces`. -/
structure EpInterface where
  interface : Byte
  defined : Bool
  claimed : Bool
  deriving DecidableEq, Repr

structure DeviceProxyLibUSB where
  /-- Whether `dev_handle` is set. -/
  devHandle : Bool
  epInterfaces : Fin 16 → EpInterface

namespace DeviceProxyLibUSB

/-- What the constructors leave, with or without a handle found since. -/
def new (devHandle : Bool) : DeviceProxyLibUSB where
  devHandle := devHandle
  epInterfaces := fun _ => ⟨0, false, false⟩

def isConnected (p : DeviceProxyLibUSB) : Bool := p.devHandle

/-- `endpoint & 0x0F`. -/
def slot (endpoint : Byte) : Fin 16 :=
  ⟨(endpoint &&& 0x0F).toNat % 16, Nat.mod_lt _ (Nat.succ_pos 15)⟩

def entry (p : DeviceProxyLibUSB) (endpoint : Byte) : EpInterface := p.epInterfaces (slot endpoint)

def endpointInterfaceClaimed (p : DeviceProxyLibUSB) (endpoint : Byte) : Bool :=
  if !(p.entry endpoint).defined then false
  else if !(p.entry endpoint).claimed then false
  else true

def setEndpointInterface (p : DeviceProxyLibUSB) (endpoint interface : Byte) : DeviceProxyLibUSB :=
  { p with
    epInterfaces := Function.update p.epInterfaces (slot endpoint)
      { p.entry endpoint with defined := true, interface := interface } }

/-- The loop over `epInterfaces` in `claim_interface` and `release_interface`. -/
def setClaimed (p : DeviceProxyLibUSB) (interface : Byte) (claimed : Bool) : DeviceProxyLibUSB :=
  { p with
    epInterfaces := fun i =>
      if (p.epInterfaces i).defined && (p.epInterfaces i).interface == interface then
        { p.epInterfaces i with claimed := claimed }
      else p.epInterfaces i }

/-- `rc` is what `libusb_claim_interface` returns. -/
def claimInterface (p : DeviceProxyLibUSB) (interface : Byte) (rc : LibusbError) :
    DeviceProxyLibUSB :=
  if p.isConnected then
    if rc ≠ .success then p else p.setClaimed interface true
  else p

/-- `rc` is what `libusb_release_interface` returns. -/
def releaseInterface (p : DeviceProxyLibUSB) (interface : Byte) (rc : LibusbError) :
    DeviceProxyLibUSB :=
  if p.isConnected then
    if rc ≠ .success ∧ rc ≠ .notFound ∧ rc ≠ .noDevice then p else p.setClaimed interface false
  else p

/-! ## The entries behind the calls -/

section Entries

variable {p : DeviceProxyLibUSB} {endpoint interface : Byte}

theorem endpointInterfaceClaimed_iff :
    p.endpointInterfaceClaimed endpoint = true ↔
      (p.entry endpoint).defined = true ∧ (p.entry endpoint).claimed = true := by
  unfold endpointInterfaceClaimed
  cases (p.entry endpoint).defined <;> cases (p.entry endpoint).claimed <;> decide

theorem entry_setEndpointInterface (e : Byte) :
    (p.setEndpointInterface endpoint interface).entry e =
      if slot e = slot endpoint then { p.entry endpoint with defined := true, interface := interface }
      else p.entry e :=
  Function.update_apply ..

theorem entry_setClaimed (value : Bool) (e : Byte) :
    (p.setClaimed interface value).entry e =
      if (p.entry e).defined && (p.entry e).interface == interface then
        { p.entry e with claimed := value }
      else p.entry e := rfl

/-- A declaration leaves every flag as it is, also that of the endpoint it is about. -/
theorem setEndpointInterface_claimed (e : Byte) :
    ((p.setEndpointInterface endpoint interface).entry e).claimed = (p.entry e).claimed := by
  rw [entry_setEndpointInterface]
  split_ifs with h
  · show (p.epInterfaces (slot endpoint)).claimed = (p.epInterfaces (slot e)).claimed
    rw [h]
  · rfl

theorem setEndpointInterface_defined (e : Byte) :
    ((p.setEndpointInterface endpoint interface).entry e).defined = true ↔
      slot e = slot endpoint ∨ (p.entry e).defined = true := by
  rw [entry_setEndpointInterface]
  split_ifs with h
  · exact iff_of_true rfl (.inl h)
  · rw [or_iff_right h]

theorem setClaimed_defined (value : Bool) (e : Byte) :
    ((p.setClaimed interface value).entry e).defined = (p.entry e).defined := by
  rw [entry_setClaimed]
  split_ifs <;> rfl

theorem setClaimed_claimed (value : Bool) (e : Byte) :
    ((p.setClaimed interface value).entry e).claimed =
      if (p.entry e).defined = true ∧ (p.entry e).interface = interface then value
      else (p.entry e).claimed := by
  rw [entry_setClaimed]
  simp only [Bool.and_eq_true, beq_iff_eq]
  split_ifs <;> rfl

/-- Only an entry that names an interface is flagged. -/
def FlagsDefined (p : DeviceProxyLibUSB) : Prop :=
  ∀ endpoint, (p.entry endpoint).claimed = true → (p.entry endpoint).defined = true

theorem flagsDefined_new (devHandle : Bool) : (new devHandle).FlagsDefined :=
  fun _ h => Bool.noConfusion h

theorem FlagsDefined.claimed_iff (h : p.FlagsDefined) :
    p.endpointInterfaceClaimed endpoint = true ↔ (p.entry endpoint).claimed = true :=
  endpointInterfaceClaimed_iff.trans (and_iff_right_of_imp (h endpoint))

theorem FlagsDefined.setEndpointInterface (h : p.FlagsDefined) (endpoint interface : Byte) :
    (p.setEndpointInterface endpoint interface).FlagsDefined := by
  intro e he
  rw [setEndpointInterface_claimed] at he
  exact setEndpointInterface_defined e |>.2 (.inr (h e he))

theorem FlagsDefined.setClaimed (h : p.FlagsDefined) (interface : Byte) (value : Bool) :
    (p.setClaimed interface value).FlagsDefined := by
  intro e he
  rw [setClaimed_claimed] at he
  rw [setClaimed_defined]
  split_ifs at he with hi
  · exact hi.1
  · exact h e he

theorem FlagsDefined.claimInterface (h : p.FlagsDefined) (interface : Byte) (rc : LibusbError) :
    (p.claimInterface interface rc).FlagsDefined := by
  unfold DeviceProxyLibUSB.claimInterface
  split_ifs
  · exact h
  · exact h.setClaimed interface true
  · exact h

theorem releaseInterface_of_isConnected (h : p.isConnected = true) (rc : LibusbError) :
    p.releaseInterface interface rc =
      if rc = .success ∨ rc = .notFound ∨ rc = .noDevice then p.setClaimed interface false
      else p := by
  unfold releaseInterface
  rw [if_pos h]
  cases rc <;> rfl

theorem FlagsDefined.releaseInterface (h : p.FlagsDefined) (interface : Byte) (rc : LibusbError) :
    (p.releaseInterface interface rc).FlagsDefined := by
  unfold DeviceProxyLibUSB.releaseInterface
  split_ifs
  · exact h
  · exact h.setClaimed interface false
  · exact h

end Entries

end DeviceProxyLibUSB

/-! ## The calls and what they say -/

/-- The 30 addresses of data endpoints: `0x01`–`0x0f` and `0x81`–`0x8f`. -/
abbrev EndpointAddress : Type := { b : Byte // b &&& 0x70 = 0 ∧ b &&& 0x0f ≠ 0 }

/-- What the calls said: the interface declared last for each address, and the interfaces that are
claimed. -/
structure InterfaceBook where
  declared : EndpointAddress → Option Byte
  claimed : Byte → Bool

namespace InterfaceBook

def empty : InterfaceBook := ⟨fun _ => none, fun _ => false⟩

def declare (b : InterfaceBook) (endpoint : EndpointAddress) (interface : Byte) : InterfaceBook :=
  { b with declared := Function.update b.declared endpoint (some interface) }

def claim (b : InterfaceBook) (interface : Byte) : InterfaceBook :=
  { b with claimed := Function.update b.claimed interface true }

def release (b : InterfaceBook) (interface : Byte) : InterfaceBook :=
  { b with claimed := Function.update b.claimed interface false }

/-- The interface declared for the address is claimed. -/
def Claimed (b : InterfaceBook) (ep : EndpointAddress) : Prop :=
  ∃ i, b.declared ep = some i ∧ b.claimed i = true

variable {b : InterfaceBook} {ep : EndpointAddress} {interface : Byte}

theorem claimed_declare (endpoint : EndpointAddress) :
    (b.declare endpoint interface).Claimed ep ↔
      if ep = endpoint then b.claimed interface = true else b.Claimed ep := by
  unfold Claimed declare
  simp only [Function.update_apply]
  split_ifs
  · exact ⟨fun ⟨_, hi, hc⟩ => Option.some.inj hi ▸ hc, fun hc => ⟨interface, rfl, hc⟩⟩
  · rfl

theorem claimed_claim :
    (b.claim interface).Claimed ep ↔ b.declared ep = some interface ∨ b.Claimed ep := by
  unfold Claimed claim
  simp only [Function.update_apply]
  constructor
  · rintro ⟨i, hi, hc⟩
    split_ifs at hc with hii
    · exact .inl (hii ▸ hi)
    · exact .inr ⟨i, hi, hc⟩
  · rintro (hi | ⟨i, hi, hc⟩)
    · exact ⟨interface, hi, if_pos rfl⟩
    · exact ⟨i, hi, by rw [hc, ite_self]⟩

theorem claimed_release :
    (b.release interface).Claimed ep ↔ b.declared ep ≠ some interface ∧ b.Claimed ep := by
  unfold Claimed release
  simp only [Function.update_apply]
  constructor
  · rintro ⟨i, hi, hc⟩
    split_ifs at hc with hii
    exact ⟨fun h => hii (Option.some.inj (hi.symm.trans h)), i, hi, hc⟩
  · rintro ⟨hne, i, hi, hc⟩
    refine ⟨i, hi, ?_⟩
    rwa [if_neg]
    rintro rfl
    exact hne hi

end InterfaceBook

inductive InterfaceCall
  | setEndpointInterface (endpoint : EndpointAddress) (interface : Byte)
  | claimInterface (interface : Byte) (rc : LibusbError)
  | releaseInterface (interface : Byte) (rc : LibusbError)

/-- The proxy and the book of the calls made on it. -/
structure InterfaceRun where
  proxy : DeviceProxyLibUSB
  book : InterfaceBook

namespace InterfaceRun

open Runs

def new (devHandle : Bool) : InterfaceRun := ⟨.new devHandle, .empty⟩

/-- Which results end a claim of the interface: success, and with `lenient` also the two that say that
there is no claim any more. -/
def released (lenient : Bool) (rc : LibusbError) : Bool :=
  rc == .success || lenient && (rc == .notFound || rc == .noDevice)

def after (lenient : Bool) (s : InterfaceRun) : InterfaceCall → InterfaceRun
  | .setEndpointInterface endpoint interface =>
    ⟨s.proxy.setEndpointInterface endpoint interface, s.book.declare endpoint interface⟩
  | .claimInterface interface rc =>
    ⟨s.proxy.claimInterface interface rc,
      if s.proxy.isConnected && rc == .success then s.book.claim interface else s.book⟩
  | .releaseInterface interface rc =>
    ⟨s.proxy.releaseInterface interface rc,
      if s.proxy.isConnected && released lenient rc then s.book.release interface else s.book⟩

def step (lenient : Bool) (s : InterfaceRun) (call : InterfaceCall) : Option InterfaceRun :=
  some (s.after lenient call)

/-- `endpoint_interface_claimed` tells what the calls said. -/
def Agrees (s : InterfaceRun) : Prop :=
  ∀ ep : EndpointAddress, s.proxy.endpointInterfaceClaimed ep = true ↔ s.book.Claimed ep

/-- The entry of the address names the interface that was declared for the address, or neither is
`interface`. -/
def Names (s : InterfaceRun) (ep : EndpointAddress) (interface : Byte) : Prop :=
  ((s.proxy.entry ep).defined = true ∧ (s.proxy.entry ep).interface = interface) ↔
    s.book.declared ep = some interface

/-- What a call needs so that the table goes on telling what the calls said.

* A declaration writes no flag: the entry must be flagged already exactly when the interface is claimed.
* A claim must find the interface in the entries of the addresses it was declared for and in no other,
  as far as they are not flagged; a release the same, as far as they are.
* A release that leaves the claim standing must find it in no flagged entry. -/
def Kept (lenient : Bool) (s : InterfaceRun) : InterfaceCall → Prop
  | .setEndpointInterface endpoint interface =>
    s.proxy.endpointInterfaceClaimed endpoint = s.book.claimed interface
  | .claimInterface interface rc =>
    s.proxy.isConnected = true → rc = .success →
      ∀ ep : EndpointAddress, s.proxy.endpointInterfaceClaimed ep = false → s.Names ep interface
  | .releaseInterface interface rc =>
    s.proxy.isConnected = true → rc = .success ∨ rc = .notFound ∨ rc = .noDevice →
      ∀ ep : EndpointAddress, s.proxy.endpointInterfaceClaimed ep = true →
        if released lenient rc then s.Names ep interface
        else (s.proxy.entry ep).interface ≠ interface

/-! ## One call -/

section Steps

variable {lenient : Bool} {s : InterfaceRun}

theorem flagsDefined_after (h : s.proxy.FlagsDefined) (call : InterfaceCall) :
    (s.after lenient call).proxy.FlagsDefined := by
  cases call with
  | setEndpointInterface endpoint interface => exact h.setEndpointInterface endpoint interface
  | claimInterface interface rc => exact h.claimInterface interface rc
  | releaseInterface interface rc => exact h.releaseInterface interface rc

theorem agrees_declare (h : s.proxy.FlagsDefined) (hs : s.Agrees) (endpoint : EndpointAddress)
    (interface : Byte) :
    Agrees ⟨s.proxy.setEndpointInterface endpoint interface, s.book.declare endpoint interface⟩ ↔
      s.proxy.endpointInterfaceClaimed endpoint = s.book.claimed interface := by
  have hflag : ∀ ep : EndpointAddress,
      (s.proxy.setEndpointInterface endpoint interface).endpointInterfaceClaimed ep = true ↔
        s.proxy.endpointInterfaceClaimed ep = true := by
    intro ep
    rw [(h.setEndpointInterface endpoint interface).claimed_iff, h.claimed_iff,
      DeviceProxyLibUSB.setEndpointInterface_claimed]
  rw [Bool.eq_iff_iff]
  unfold Agrees
  simp only [hflag, InterfaceBook.claimed_declare]
  constructor
  · intro hall
    rw [hall endpoint, if_pos rfl]
  · intro hnew ep
    split_ifs with hep
    · rw [hep, hnew]
    · exact hs ep

theorem claimed_setClaimed (h : s.proxy.FlagsDefined) (interface : Byte) (value : Bool)
    (ep : Byte) :
    (s.proxy.setClaimed interface value).endpointInterfaceClaimed ep = true ↔
      if (s.proxy.entry ep).defined = true ∧ (s.proxy.entry ep).interface = interface then
        value = true
      else s.proxy.endpointInterfaceClaimed ep = true := by
  rw [(h.setClaimed interface value).claimed_iff, h.claimed_iff,
    DeviceProxyLibUSB.setClaimed_claimed]
  split_ifs <;> rfl

theorem agrees_claim (h : s.proxy.FlagsDefined) (hs : s.Agrees) (interface : Byte) :
    Agrees ⟨s.proxy.setClaimed interface true, s.book.claim interface⟩ ↔
      ∀ ep : EndpointAddress, s.proxy.endpointInterfaceClaimed ep = false → s.Names ep interface := by
  refine forall_congr' fun ep => ?_
  rw [claimed_setClaimed h, InterfaceBook.claimed_claim, ← hs ep]
  unfold Names
  cases hc : s.proxy.endpointInterfaceClaimed ep with
  | true => simp
  | false => split_ifs with hn <;> simp [hn]

theorem agrees_release (h : s.proxy.FlagsDefined) (hs : s.Agrees) (interface : Byte) :
    Agrees ⟨s.proxy.setClaimed interface false, s.book.release interface⟩ ↔
      ∀ ep : EndpointAddress, s.proxy.endpointInterfaceClaimed ep = true → s.Names ep interface := by
  refine forall_congr' fun ep => ?_
  rw [claimed_setClaimed h, InterfaceBook.claimed_release, ← hs ep]
  unfold Names
  cases hc : s.proxy.endpointInterfaceClaimed ep with
  | true => split_ifs with hn <;> simp [hn]
  | false => simp

/-- A release that leaves the claim standing. -/
theorem agrees_clear (h : s.proxy.FlagsDefined) (hs : s.Agrees) (interface : Byte) :
    Agrees ⟨s.proxy.setClaimed interface false, s.book⟩ ↔
      ∀ ep : EndpointAddress, s.proxy.endpointInterfaceClaimed ep = true →
        (s.proxy.entry ep).interface ≠ interface := by
  refine forall_congr' fun ep => ?_
  rw [claimed_setClaimed h, ← hs ep]
  cases hc : s.proxy.endpointInterfaceClaimed ep with
  | true => simp [(DeviceProxyLibUSB.endpointInterfaceClaimed_iff.1 hc).1]
  | false => simp

/-- A call keeps the table true to the book exactly under `Kept`. -/
theorem agrees_after (h : s.proxy.FlagsDefined) (hs : s.Agrees) (call : InterfaceCall) :
    (s.after lenient call).Agrees ↔ s.Kept lenient call := by
  cases call with
  | setEndpointInterface endpoint interface => exact agrees_declare h hs endpoint interface
  | claimInterface interface rc =>
    unfold after DeviceProxyLibUSB.claimInterface Kept
    by_cases hcon : s.proxy.isConnected = true
    · by_cases hrc : rc = .success
      · simpa [hcon, hrc] using agrees_claim h hs interface
      · simpa [hcon, hrc] using hs
    · simpa [hcon] using hs
  | releaseInterface interface rc =>
    unfold after Kept
    by_cases hcon : s.proxy.isConnected = true
    · by_cases hrc : rc = .success ∨ rc = .notFound ∨ rc = .noDevice
      · cases hl : released lenient rc with
        | true =>
          simpa [DeviceProxyLibUSB.releaseInterface_of_isConnected hcon, hcon, hrc, hl] using
            agrees_release h hs interface
        | false =>
          simpa [DeviceProxyLibUSB.releaseInterface_of_isConnected hcon, hcon, hrc, hl] using
            agrees_clear h hs interface
      · have hl : released lenient rc = false := by
          push Not at hrc
          simp [released, hrc]
        simpa [DeviceProxyLibUSB.releaseInterface_of_isConnected hcon, hrc, hl] using hs
    · simpa [DeviceProxyLibUSB.releaseInterface, hcon] using hs

end Steps

theorem agrees_new (devHandle : Bool) : (new devHandle).Agrees := by
  intro ep
  exact iff_of_false Bool.false_ne_true fun ⟨_, hi, _⟩ => nomatch hi

/-- **In every state a sequence of calls comes through, `endpoint_interface_claimed` tells for each
address whether the interface declared last for it is claimed, exactly when every call finds the table
as `Kept` says**, whether or not a release that finds no claim counts. -/
theorem claimed_iff_declared_claimed (devHandle lenient : Bool) (calls : List InterfaceCall) :
    (∀ made t, made <+: calls → run (step lenient) (new devHandle) made = some t →
      ∀ ep : EndpointAddress, t.proxy.endpointInterfaceClaimed ep = true ↔
        ∃ i, t.book.declared ep = some i ∧ t.book.claimed i = true) ↔
      Along (step lenient) (Kept lenient) (new devHandle) calls := by
  refine reached_forall_iff (fun s : InterfaceRun => s.proxy.FlagsDefined ∧ s.Agrees) ?_ ?_
    ⟨DeviceProxyLibUSB.flagsDefined_new devHandle, agrees_new devHandle⟩ (agrees_new devHandle) calls
  · rintro s call t ht hkept ⟨h, hs⟩
    obtain rfl := Option.some.inj ht
    exact ⟨flagsDefined_after h call, (agrees_after h hs call).2 hkept⟩
  · rintro s call ⟨h, hs⟩
    rw [← agrees_after h hs call]
    exact ⟨fun hall => hall _ rfl, fun hafter t ht => Option.some.inj ht ▸ hafter⟩

/-- Endpoint `0x81` belongs to interface 0 and `0x01` to interface 1; the manager declares both, then
claims both, and interface 1 is busy: `0x81` counts as not claimed. -/
theorem not_claimed_iff_declared_claimed :
    ¬ ∀ (devHandle lenient : Bool) (calls : List InterfaceCall) (t : InterfaceRun),
      run (step lenient) (new devHandle) calls = some t →
        ∀ ep : EndpointAddress, t.proxy.endpointInterfaceClaimed ep = true ↔
          ∃ i, t.book.declared ep = some i ∧ t.book.claimed i = true := by
  intro h
  have hclaimed := (h true false
    [.setEndpointInterface ⟨0x81, by decide⟩ 0, .setEndpointInterface ⟨0x01, by decide⟩ 1,
      .claimInterface 0 .success, .claimInterface 1 .busy] _ rfl
    ⟨0x81, by decide⟩).2 ⟨0, rfl, rfl⟩
  revert hclaimed
  decide

end InterfaceRun

end UsbProxy
