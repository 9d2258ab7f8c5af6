import UsbProxy.Configuration
import UsbProxy.Library.Iteration

/-!
# The parsing constructors

`Configuration(Device*, DeviceProxy*, int, bool)` and `Interface(Configuration*, __u8**, const __u8*)`
walk one buffer with one cursor `p`.  No loop of the two bounds its own iterations, so the walk is a
machine: a state stands at the head of a loop, and `Parser.step` runs the guard and one iteration.
`Parser.reads` are the offsets one step reads.  An object with 255 other descriptors takes no further
one: the constructor crashes, `crashed` records it, and what the walk does from there on only tells
which offsets it would come to.
-/

namespace UsbProxy

open Records Iteration

/-- The head of the loop the constructors stand at. -/
inductive Loop
  /-- `while (p<e)` of `Configuration`. -/
  | configuration
  /-- `while ( *(*p+1) != 4 && *p < e)` of `Interface`, with the descriptors collected so far. -/
  | leading (g : GenericDescriptors)
  /-- `while (*p<e && (*(*p+1))!=4)` of `Interface`, with the object and the index `ep` stands for. -/
  | descriptors (i : Interface) (ep : ℕ)
  /-- Behind the outer loop. -/
  | done

structure Parser where
  loop : Loop
  p : ℕ
  configuration : Configuration
  /-- A store through the null pointer that `realloc` has given has been reached. -/
  crashed : Bool := false

/-- The `switch` on the descriptor at `p`: the object and `ep` after it, none for a crash. -/
def Interface.switch (mem uninit : Memory) (p : ℕ) (i : Interface) (ep : ℕ) :
    Option (Interface × ℕ) :=
  if mem (p + 1) = USB_DT_ENDPOINT then some (i.setEndpoint ep (.ofMemory mem uninit p), ep + 1)
  else if mem (p + 1) = USB_DT_HID then some (i.setHid (.ofMemory mem p), ep)
  else (i.addGeneric (.ofMemory mem p)).map (·, ep)

namespace Parser

/-- Behind the 9 bytes of the header. -/
def init (mem : Memory) : Parser :=
  { loop := .configuration, p := 9, configuration := .new (.ofMemory mem 0) }

section Step

variable (mem : Memory) (uninit : ℕ → Memory) (e : ℕ)

/-- One test of a loop's guard with the iteration, or the code behind the loop, that follows it.
`uninit p` is what the object allocated for the descriptor at `p` holds before the copy. -/
def step (s : Parser) : Parser :=
  let next := s.p + (mem s.p).toNat
  match s.loop with
  | .configuration => if s.p < e then { s with loop := .leading .none } else { s with loop := .done }
  | .leading g =>
    if mem (s.p + 1) ≠ USB_DT_INTERFACE ∧ s.p < e then
      let added := g.add (.ofMemory mem s.p)
      { s with
        loop := .leading (added.getD g), p := next, crashed := s.crashed || added.isNone }
    else
      { s with loop := .descriptors (.new (.ofMemory mem (uninit s.p) s.p) g) 0, p := next }
  | .descriptors i ep =>
    if s.p < e ∧ mem (s.p + 1) ≠ USB_DT_INTERFACE then
      let filed := i.switch mem (uninit s.p) s.p ep
      let r := filed.getD (i, ep)
      { s with loop := .descriptors r.1 r.2, p := next, crashed := s.crashed || filed.isNone }
    else { s with loop := .configuration, configuration := s.configuration.addInterface i }
  | .done => s

/-- The state after `n` steps. -/
def after (n : ℕ) : Parser := (step mem uninit e)^[n] (init mem)

/-- The state is at the head of a loop of `Interface` whose guard holds: an iteration follows. -/
def Iterates (s : Parser) : Prop :=
  match s.loop with
  | .leading _ | .descriptors _ _ => s.p < e ∧ mem (s.p + 1) ≠ USB_DT_INTERFACE
  | .configuration | .done => False

/-- The offsets one step reads: the type byte of the guard, the length byte, and what is copied. -/
def reads (s : Parser) : List ℕ :=
  let length := (mem s.p).toNat
  match s.loop with
  | .configuration | .done => []
  | .leading _ => [s.p + 1, s.p] ++ List.range' s.p length
  | .descriptors _ _ =>
    if s.p < e then
      if mem (s.p + 1) = USB_DT_INTERFACE then [s.p + 1]
      else
        [s.p + 1, s.p] ++
          List.range' s.p (if mem (s.p + 1) = USB_DT_ENDPOINT then 7 else length)
    else []

end Step

end Parser

/-! ## The constructor -/

/-- A device as the constructor meets it: the bytes that answer the `n`-th control request, at most
as many as it asks for, or a failure. -/
structure DeviceProxy where
  controlRequest : ℕ → CtrlRequest → Option (List Byte)
  length_le : ∀ {n r bs}, controlRequest n r = some bs → bs.length ≤ r.wLength.toNat

/-- How a constructor can fail to return. -/
inductive Stop
  /-- `exit(1)`. -/
  | exit
  /-- A null pointer is followed. -/
  | crash
  /-- Still in a loop after the given number of steps. -/
  | running
  deriving DecidableEq, Repr

/-- What memory holds that nobody wrote: behind the received bytes, in the object made for the
descriptor at an offset, in `result`. -/
structure Uninit where
  buffer : Memory
  object : ℕ → Memory
  result : Byte

namespace Configuration

def getDescriptorRequest (idx : UInt16) (otherSpeed : Bool) (wLength : UInt16) : CtrlRequest :=
  { bRequestType := 0x80, bRequest := 6
    wValue := ((if otherSpeed then USB_DT_OTHER_SPEED_CONFIG else USB_DT_CONFIG).toUInt16 <<< 8) ||| idx
    wIndex := 0, wLength }

def getInterfaceRequest (i : ℕ) : CtrlRequest :=
  { bRequestType := 0x81, bRequest := 10, wValue := 0, wIndex := UInt16.ofNat i, wLength := 1 }

/-- `if (proxy->control_request(..) < 0) exit(1)`. -/
def request (proxy : DeviceProxy) (n : ℕ) (r : CtrlRequest) : Except Stop (List Byte) :=
  (proxy.controlRequest n r).elim (.error .exit) .ok

/-- The last loop of the constructor from the group `i` on, `n` requests having been made. -/
def activeAlternates (proxy : DeviceProxy) (uninit : Byte) (n i : ℕ) :
    (groups : List (Option InterfaceGroup)) →
      Except Stop { gs : List (Option InterfaceGroup) // gs.length = groups.length }
  | [] => pure ⟨[], rfl⟩
  | none :: _ => throw .crash
  | some g :: groups =>
    if g.alternateCount = 1 then do
      let ⟨rest, h⟩ ← activeAlternates proxy uninit n (i + 1) groups
      pure ⟨some { g with activeAlternateIndex := 0 } :: rest, congrArg (· + 1) h⟩
    else do
      let result ← request proxy n (getInterfaceRequest i)
      let ⟨rest, h⟩ ← activeAlternates proxy uninit (n + 1) (i + 1) groups
      let active : ℤ := (result.headD uninit).toNat
      pure ⟨some { g with activeAlternateIndex := active } :: rest, congrArg (· + 1) h⟩

/-- The rest of the constructor once the walk has ended without a crash. -/
def finish (proxy : DeviceProxy) (uninit : Byte) (s : Parser) : Except Stop Configuration :=
  match s.loop with
  | .done => do
    let ⟨groups, h⟩ ← activeAlternates proxy uninit 2 0 s.configuration.interfaceGroups
    pure { s.configuration with
      interfaceGroups := groups
      groups_length := h.trans s.configuration.groups_length }
  | _ => throw .running

/-- `Configuration(Device*, DeviceProxy*, int idx, bool otherSpeed)`, the walk stopped after `fuel`
steps. -/
def ofDevice (proxy : DeviceProxy) (uninit : Uninit) (idx : UInt16) (otherSpeed : Bool) (fuel : ℕ) :
    Except Stop Configuration := do
  let header ← request proxy 0 (getDescriptorRequest idx otherSpeed 9)
  let mem := Memory.ofBuffer header uninit.buffer
  let buf ← request proxy 1 (getDescriptorRequest idx otherSpeed (leWord (mem 2) (mem 3)))
  let s := Parser.after (Memory.ofBuffer buf uninit.buffer) uninit.object buf.length fuel
  if s.crashed then throw .crash else finish proxy uninit.result s

end Configuration

end UsbProxy
