import UsbProxy.Criteria
import UsbProxy.Library.Blocks
import UsbProxy.Library.Runs
import UsbProxy.LibusbInterfaces

/-!
# The handles of `DeviceProxy_LibUSB`

`connect` opens a libusb context and in it the device, and starts a thread that handles the events of the
context; `disconnect`, `reset` and the destructor give context and device back.  A `connect` that fails gives
back what it had opened and leaves the pointers to it.  Nothing but the destructor and the callback for a
device that has left tells the thread to stop, and nothing waits for it before the context is given back.

`Link` says what a proxy is good for after its calls so far and the steps of its thread; `connection_allowed`
says that the steps which are not possible there are exactly those that give something back twice, use it
afterwards, give a context back under the thread, use a null pointer or overwrite the thread.
-/

namespace UsbProxy

open Blocks

def LIBUSB_HOTPLUG_MATCH_ANY : ℤ := -1
def LIBUSB_CLASS_HUB : Byte := 9

structure DesiredDevice where
  vid : ℤ
  pid : ℤ
  hubs : Bool

/-- The test in the loop over the device list. -/
def DesiredDevice.isMet (d : DesiredDevice) (desc : UsbDeviceDescriptor) : Bool :=
  (d.hubs || desc.bDeviceClass != LIBUSB_CLASS_HUB) &&
    (d.vid == desc.idVendor.toNat || d.vid == LIBUSB_HOTPLUG_MATCH_ANY) &&
    (d.pid == desc.idProduct.toNat || d.pid == LIBUSB_HOTPLUG_MATCH_ANY)

/-- What libusb answers to the requests of one `connect`, the devices in its list each with what
`libusb_get_device_descriptor` comes to. -/
structure ConnectAnswers where
  init : LibusbError
  list : Except LibusbError (List (LibusbError × UsbDeviceDescriptor))
  openDevice : LibusbError
  autoDetach : LibusbError
  stringDescriptor : LibusbError
  registerCallback : LibusbError

/-- What `connect` returns. -/
inductive ConnectCode
  | zero
  | ENODEV
  | libusb (rc : LibusbError)
  deriving DecidableEq, Repr

/-- `libusbThread`: not joinable, at the head of the loop, in `libusb_handle_events`, or behind the loop. -/
inductive EventThread
  | absent
  | looping
  | handling
  | ended
  deriving DecidableEq, Repr

/-- What must not happen to a handle, a context or the thread. -/
inductive LinkFault
  | deregisterDead
  | closeDead
  | exitDead
  /-- `libusb_exit` while the thread handles events. -/
  | exitInUse
  | useNull
  | useDead
  | threadOverwritten
  deriving DecidableEq, Repr

structure LibusbConnection where
  desired : DesiredDevice
  context : Option ℕ
  devHandle : Option ℕ
  /-- Whether `callback_handle` is other than -1. -/
  callback : Bool
  privateContext : Bool
  privateDevice : Bool
  pleaseStop : Bool
  libusbThread : EventThread
  /-- The contexts and the device handles that libusb has open. -/
  contexts : Store Unit
  handles : Store Unit
  faults : List LinkFault

namespace LibusbConnection

/-- What the constructors leave. -/
def new (desired : DesiredDevice) : LibusbConnection where
  desired := desired
  context := none
  devHandle := none
  callback := false
  privateContext := true
  privateDevice := true
  pleaseStop := false
  libusbThread := .absent
  contexts := .empty
  handles := .empty
  faults := []

def isConnected (p : LibusbConnection) : Bool := p.devHandle.isSome

def fault (p : LibusbConnection) (f : LinkFault) : LibusbConnection :=
  { p with faults := p.faults ++ [f] }

/-! ## The calls of libusb -/

/-- The context pointer is only written by an initialization that succeeds. -/
def libusbInit (p : LibusbConnection) (rc : LibusbError) : LibusbConnection :=
  if rc = .success then { p with context := some p.contexts.next, contexts := p.contexts.malloc () } else p

def libusbOpen (p : LibusbConnection) : LibusbConnection :=
  { p with devHandle := some p.handles.next, handles := p.handles.malloc () }

def libusbExit (p : LibusbConnection) : LibusbConnection :=
  match p.context with
  | none => p
  | some c =>
    let p := if p.libusbThread = .handling then p.fault .exitInUse else p
    if (p.contexts.contents c).isSome then { p with contexts := p.contexts.free c }
    else p.fault .exitDead

def libusbClose (p : LibusbConnection) : LibusbConnection :=
  match p.devHandle with
  | none => p.fault .useNull
  | some h =>
    if (p.handles.contents h).isSome then { p with handles := p.handles.free h }
    else p.fault .closeDead

def deregisterCallback (p : LibusbConnection) : LibusbConnection :=
  match p.context with
  | none => p
  | some c => if (p.contexts.contents c).isSome then p else p.fault .deregisterDead

/-- Any function of libusb that takes the context; a null pointer stands for the default context, which
the proxy never opens. -/
def useContext (p : LibusbConnection) : LibusbConnection :=
  match p.context with
  | none => p.fault .useNull
  | some c => if (p.contexts.contents c).isSome then p else p.fault .useDead

/-- Any function of libusb that takes the handle. -/
def useHandle (p : LibusbConnection) : LibusbConnection :=
  match p.devHandle with
  | none => p.fault .useNull
  | some h => if (p.handles.contents h).isSome then p else p.fault .useDead

/-! ## The functions of the proxy -/

/-- `libusbThread = std::thread(..)`, which terminates the program if the old one is joinable. -/
def startThread (p : LibusbConnection) : LibusbConnection :=
  let p := { p with pleaseStop := false }
  if p.libusbThread ≠ .absent then p.fault .threadOverwritten else { p with libusbThread := .looping }

/-- `connect` behind `libusb_open`. -/
def setUp (p : LibusbConnection) (a : ConnectAnswers) : LibusbConnection × ConnectCode :=
  if a.autoDetach ≠ .success then (p.libusbClose.libusbExit, .libusb a.autoDetach)
  else if a.stringDescriptor ≠ .success then (p.libusbClose.libusbExit, .libusb a.stringDescriptor)
  else if !p.callback then
    if a.registerCallback ≠ .success then (p.libusbClose.libusbExit, .libusb a.registerCallback)
    else ({ p with callback := true }.startThread, .zero)
  else (p, .zero)

/-- `connect` behind `libusb_set_debug`. -/
def openDevice (p : LibusbConnection) (a : ConnectAnswers) : LibusbConnection × ConnectCode :=
  match a.list with
  | .error rc => (p.libusbExit, .libusb rc)
  | .ok list =>
    if list.any fun dvc => dvc.1 == .success && p.desired.isMet dvc.2 then
      if a.openDevice ≠ .success then
        ({ p with devHandle := none }.libusbExit, .libusb a.openDevice)
      else p.libusbOpen.setUp a
    else (p.libusbExit, .ENODEV)

/-- The beginning of an attempt.  What `libusb_init` returns is not looked at; `libusb_set_debug` is the
first to use the context. -/
def attempt (p : LibusbConnection) (init : LibusbError) : LibusbConnection :=
  ({ p with privateContext := true, privateDevice := true }.libusbInit init).useContext

def connect (p : LibusbConnection) (a : ConnectAnswers) : LibusbConnection × ConnectCode :=
  if p.devHandle.isSome then (p, .zero) else (p.attempt a.init).openDevice a

/-- The three conditions that `disconnect` and the destructor share. -/
def releaseCallback (p : LibusbConnection) : LibusbConnection :=
  if p.context.isSome && p.callback then p.deregisterCallback else p

def releaseHandle (p : LibusbConnection) : LibusbConnection :=
  if p.privateDevice && p.devHandle.isSome then p.libusbClose else p

def releaseContext (p : LibusbConnection) : LibusbConnection :=
  if p.privateContext && p.context.isSome then p.libusbExit else p

def disconnect (p : LibusbConnection) : LibusbConnection :=
  let p := { p.releaseCallback with callback := false }
  let p := { p.releaseHandle with devHandle := none }
  { p.releaseContext with context := none }

/-- `rc` is what `libusb_reset_device` returns. -/
def reset (p : LibusbConnection) (rc : LibusbError) : LibusbConnection :=
  let p := p.useHandle
  if rc = .notFound then p.disconnect else p

end LibusbConnection

/-! ## The event thread -/

/-- The thread looks at `please_stop` and calls `libusb_handle_events`, or comes back from it, where the
device may have left and the callback been called. -/
inductive ThreadMove
  | enter
  | leave (gone : Bool)
  deriving DecidableEq, Repr

namespace LibusbConnection

/-- A step of `libusbEventLoop`; a thread that is somewhere else does nothing. -/
def events (p : LibusbConnection) : ThreadMove → LibusbConnection
  | .enter =>
    if p.libusbThread ≠ .looping then p
    else if p.pleaseStop then { p with libusbThread := .ended }
    else { p with libusbThread := .handling }.useContext
  | .leave gone =>
    if p.libusbThread ≠ .handling then p
    else { p with libusbThread := .looping, pleaseStop := p.pleaseStop || gone }

/-- The destructor up to where it begins to give things back, with what the thread does meanwhile. -/
def stopping (p : LibusbConnection) (meanwhile : List ThreadMove) : LibusbConnection :=
  meanwhile.foldl events { p with pleaseStop := true }

/-- The destructor; in the end it waits for the thread, which goes on until then. -/
def destroy (p : LibusbConnection) (before after : List ThreadMove) : LibusbConnection :=
  { after.foldl events (p.stopping before).releaseCallback.releaseHandle.releaseContext with
    libusbThread := .absent }

end LibusbConnection

/-- The calls of a proxy and the steps of its thread.  `request` stands for `control_request`,
`is_highspeed`, `get_address` and `toString`, which do not look at the handle first, `interface` for
`claim_interface` and `release_interface`, which do. -/
inductive LinkMove
  | connect (answers : ConnectAnswers)
  | disconnect
  | reset (rc : LibusbError)
  | request
  | interface
  | events (m : ThreadMove)

namespace LibusbConnection

def step (p : LibusbConnection) : LinkMove → LibusbConnection
  | .connect a => (p.connect a).1
  | .disconnect => p.disconnect
  | .reset rc => p.reset rc
  | .request => p.useHandle
  | .interface => if p.isConnected then p.useHandle else p
  | .events m => p.events m

end LibusbConnection

/-! ## What a proxy is good for -/

inductive LinkState
  /-- Null pointers. -/
  | closed
  /-- The context of a failed `connect`. -/
  | stale
  /-- The context and the handle of a failed `connect`. -/
  | dangling
  | connected
  deriving DecidableEq, Repr

/-- A proxy by its state, where its thread is and whether that has been told to stop. -/
structure Link where
  state : LinkState
  thread : EventThread
  stop : Bool
  deriving DecidableEq, Repr

namespace ConnectAnswers

def finds (a : ConnectAnswers) (d : DesiredDevice) : Bool :=
  match a.list with
  | .error _ => false
  | .ok list => list.any fun dvc => dvc.1 == .success && d.isMet dvc.2

/-- Nothing fails behind `libusb_open`. -/
def settles (a : ConnectAnswers) : Bool :=
  a.autoDetach == .success && a.stringDescriptor == .success && a.registerCallback == .success

/-- The state a `connect` without a handle leads to. -/
def state (a : ConnectAnswers) (d : DesiredDevice) : LinkState :=
  if !(a.finds d && a.openDevice == .success) then .stale
  else if !a.settles then .dangling
  else .connected

end ConnectAnswers

namespace LinkState

def hasContext : LinkState → Bool
  | closed => false
  | _ => true

def hasHandle : LinkState → Bool
  | dangling | connected => true
  | _ => false

end LinkState

namespace Link

def new : Link := ⟨.closed, .absent, false⟩

/-- Only outside `libusb_handle_events` may a connected proxy be disconnected. -/
def disconnect (u : Link) : Option Link :=
  match u.state with
  | .closed => some u
  | .connected => if u.thread = .handling then none else some { u with state := .closed }
  | .stale | .dangling => none

/-- Where giving back goes wrong. -/
def Spoilt (u : Link) : Prop :=
  u.state = .stale ∨ u.state = .dangling ∨ u.state = .connected ∧ u.thread = .handling

/-- A thread that has not been told to stop needs its context. -/
def events (u : Link) : ThreadMove → Option Link
  | .enter =>
    if u.thread ≠ .looping then some u
    else if u.stop then some { u with thread := .ended }
    else if u.state = .connected then some { u with thread := .handling }
    else none
  | .leave gone =>
    if u.thread ≠ .handling then some u else some { u with thread := .looping, stop := u.stop || gone }

/-- The steps that go well. -/
def step (d : DesiredDevice) (u : Link) : LinkMove → Option Link
  | .connect a =>
    if u.state.hasHandle then some u
    else if a.init ≠ .success then none
    else if a.state d = .connected then
      if u.thread = .absent then some ⟨.connected, .looping, false⟩ else none
    else some { u with state := a.state d }
  | .disconnect => u.disconnect
  | .reset rc =>
    if u.state = .connected then if rc = .notFound then u.disconnect else some u else none
  | .request => if u.state = .connected then some u else none
  | .interface => if u.state = .dangling then none else some u
  | .events m => u.events m

end Link

namespace LibusbConnection

/-- What the pointers of a proxy are worth. -/
structure Is (d : DesiredDevice) (p : LibusbConnection) (u : Link) : Prop where
  desired : p.desired = d
  faults : p.faults = []
  owned : p.privateContext = true ∧ p.privateDevice = true
  thread : p.libusbThread = u.thread
  stop : p.pleaseStop = u.stop
  /-- The thread only handles the events of an open context. -/
  handling : u.thread = .handling → u.state = .connected
  callback : p.callback = decide (u.state = .connected)
  hasContext : p.context.isSome = u.state.hasContext
  hasHandle : p.devHandle.isSome = u.state.hasHandle
  contexts : ∀ c, p.contexts.Live c ↔ u.state = .connected ∧ p.context = some c
  handles : ∀ h, p.handles.Live h ↔ u.state = .connected ∧ p.devHandle = some h

variable {p q : LibusbConnection} {u : Link} {d : DesiredDevice}

theorem isSome_contents {α : Type*} {s : Store α} {b : ℕ} : (s.contents b).isSome = true ↔ s.Live b :=
  Option.isSome_iff_ne_none

theorem libusbExit_live {c : ℕ} (hc : p.context = some c) (hlive : p.contexts.Live c)
    (hidle : p.libusbThread ≠ .handling) : p.libusbExit = { p with contexts := p.contexts.free c } := by
  unfold libusbExit
  split
  next hnone => rw [hc] at hnone; cases hnone
  next c' hc' =>
    obtain rfl := Option.some.inj (hc.symm.trans hc')
    dsimp only
    rw [if_neg hidle, if_pos (isSome_contents.2 hlive)]

theorem libusbClose_live {h : ℕ} (hh : p.devHandle = some h) (hlive : p.handles.Live h) :
    p.libusbClose = { p with handles := p.handles.free h } := by
  unfold libusbClose
  rw [hh]
  exact if_pos (isSome_contents.2 hlive)

theorem libusbClose_dead {h : ℕ} (hh : p.devHandle = some h) (hdead : ¬ p.handles.Live h) :
    p.libusbClose = p.fault .closeDead := by
  unfold libusbClose
  rw [hh]
  exact if_neg fun h => hdead (isSome_contents.1 h)

theorem useContext_live {c : ℕ} (hc : p.context = some c) (hlive : p.contexts.Live c) :
    p.useContext = p := by
  unfold useContext
  rw [hc]
  exact if_pos (isSome_contents.2 hlive)

theorem live_malloc_free {s : Store Unit} {b : ℕ} (hnone : ∀ c, ¬ s.Live c) :
    ¬ ((s.malloc ()).free s.next).Live b := by
  rw [Store.live_free_iff, Store.live_malloc_iff]
  rintro ⟨hne, hb | hb⟩
  · exact hne hb
  · exact hnone b hb

theorem live_malloc {s : Store Unit} {b : ℕ} (hnone : ∀ c, ¬ s.Live c) :
    (s.malloc ()).Live b ↔ b = s.next := by
  rw [Store.live_malloc_iff]
  exact or_iff_left (hnone b)

/-- An attempt where libusb comes up. -/
def fresh (p : LibusbConnection) : LibusbConnection :=
  { p with
    privateContext := true, privateDevice := true
    context := some p.contexts.next, contexts := p.contexts.malloc () }

theorem attempt_success (p : LibusbConnection) : p.attempt .success = p.fresh :=
  useContext_live (p := p.fresh) rfl (Store.live_malloc_iff.2 (.inl rfl))

theorem fresh_exit (hidle : p.libusbThread ≠ .handling) :
    p.fresh.libusbExit = { p.fresh with contexts := p.fresh.contexts.free p.contexts.next } :=
  libusbExit_live rfl (Store.live_malloc_iff.2 (.inl rfl)) hidle

theorem fresh_close_exit (hidle : p.libusbThread ≠ .handling) :
    p.fresh.libusbOpen.libusbClose.libusbExit =
      { p.fresh.libusbOpen with
        handles := p.fresh.libusbOpen.handles.free p.handles.next
        contexts := p.fresh.contexts.free p.contexts.next } := by
  rw [libusbClose_live (p := p.fresh.libusbOpen) rfl (Store.live_malloc_iff.2 (.inl rfl))]
  exact libusbExit_live rfl (Store.live_malloc_iff.2 (.inl rfl)) hidle

theorem setUp_eq (hcallback : p.callback = false) (a : ConnectAnswers) : (p.setUp a).1 =
    if a.settles then { p with callback := true }.startThread else p.libusbClose.libusbExit := by
  unfold setUp ConnectAnswers.settles
  by_cases hdetach : a.autoDetach = .success
  · by_cases hstring : a.stringDescriptor = .success
    · by_cases hregister : a.registerCallback = .success <;> simp [hdetach, hstring, hregister, hcallback]
    · simp [hdetach, hstring]
  · simp [hdetach]

theorem openDevice_eq (hnone : p.devHandle = none) (hcallback : p.callback = false)
    (a : ConnectAnswers) : (p.openDevice a).1 = match a.state p.desired with
      | .connected => { p.libusbOpen with callback := true }.startThread
      | .dangling => p.libusbOpen.libusbClose.libusbExit
      | _ => p.libusbExit := by
  have hsame : { p with devHandle := none } = p := by rw [← hnone]
  have hsetUp := setUp_eq (p := p.libusbOpen) hcallback a
  unfold openDevice ConnectAnswers.state ConnectAnswers.finds
  cases a.list with
  | error rc => rfl
  | ok list =>
    dsimp only
    rw [hsame]
    by_cases hfind : (list.any fun dvc => dvc.1 == .success && p.desired.isMet dvc.2) = true
    · by_cases hopen : a.openDevice = .success
      · rw [if_pos hfind, if_neg (not_not.2 hopen), hsetUp]
        by_cases hsettles : a.settles = true <;> simp [hfind, hopen, hsettles]
      · simp [hfind, hopen]
    · simp [hfind]

/-! ## Faults stay -/

theorem faults_fault (p : LibusbConnection) (f : LinkFault) : p.faults <+: (p.fault f).faults :=
  List.prefix_append _ _

theorem faults_libusbExit (p : LibusbConnection) : p.faults <+: p.libusbExit.faults := by
  unfold libusbExit
  split
  · exact List.prefix_rfl
  · dsimp only
    split_ifs
    · exact faults_fault p .exitInUse
    · exact (faults_fault p .exitInUse).trans (faults_fault _ _)
    · exact List.prefix_rfl
    · exact faults_fault p .exitDead

theorem faults_libusbClose (p : LibusbConnection) : p.faults <+: p.libusbClose.faults := by
  unfold libusbClose
  split
  · exact faults_fault p _
  · split_ifs
    · exact List.prefix_rfl
    · exact faults_fault p _

theorem faults_deregisterCallback (p : LibusbConnection) :
    p.faults <+: p.deregisterCallback.faults := by
  unfold deregisterCallback
  split
  · exact List.prefix_rfl
  · split_ifs
    · exact List.prefix_rfl
    · exact faults_fault p _

theorem faults_startThread (p : LibusbConnection) : p.faults <+: p.startThread.faults := by
  unfold startThread
  dsimp only
  split_ifs
  · exact List.prefix_append _ _
  · exact List.prefix_rfl

theorem faults_close_exit (p : LibusbConnection) : p.faults <+: p.libusbClose.libusbExit.faults :=
  (faults_libusbClose p).trans (faults_libusbExit _)

theorem faults_setUp (p : LibusbConnection) (a : ConnectAnswers) : p.faults <+: (p.setUp a).1.faults := by
  unfold setUp
  split_ifs
  · exact faults_close_exit p
  · exact faults_close_exit p
  · exact faults_close_exit p
  · exact faults_startThread { p with callback := true }
  · exact List.prefix_rfl

theorem faults_openDevice (p : LibusbConnection) (a : ConnectAnswers) :
    p.faults <+: (p.openDevice a).1.faults := by
  unfold openDevice
  cases a.list with
  | error rc => exact faults_libusbExit p
  | ok list =>
    dsimp only
    split_ifs
    · exact faults_libusbExit { p with devHandle := none }
    · exact faults_setUp p.libusbOpen a
    · exact faults_libusbExit p

theorem faults_releaseCallback (p : LibusbConnection) : p.faults <+: p.releaseCallback.faults := by
  unfold releaseCallback
  split_ifs
  · exact faults_deregisterCallback p
  · exact List.prefix_rfl

theorem faults_releaseHandle (p : LibusbConnection) : p.faults <+: p.releaseHandle.faults := by
  unfold releaseHandle
  split_ifs
  · exact faults_libusbClose p
  · exact List.prefix_rfl

theorem faults_releaseContext (p : LibusbConnection) : p.faults <+: p.releaseContext.faults := by
  unfold releaseContext
  split_ifs
  · exact faults_libusbExit p
  · exact List.prefix_rfl

theorem faults_disconnect (p : LibusbConnection) : p.faults <+: p.disconnect.faults := by
  apply (faults_releaseCallback p).trans
  apply (faults_releaseHandle { p.releaseCallback with callback := false }).trans
  exact faults_releaseContext { { p.releaseCallback with callback := false }.releaseHandle with
    devHandle := none }

theorem faults_ne (h : p.faults <+: q.faults) (hne : p.faults ≠ []) : q.faults ≠ [] := by
  intro hq
  rw [hq] at h
  exact hne (List.prefix_nil.1 h)

theorem faults_fault_ne (p : LibusbConnection) (f : LinkFault) : (p.fault f).faults ≠ [] :=
  List.append_ne_nil_of_right_ne_nil _ (List.cons_ne_nil _ _)

theorem libusbExit_dead {c : ℕ} (hc : p.context = some c) (hdead : ¬ p.contexts.Live c) :
    p.libusbExit.faults ≠ [] := by
  have hdead' : ¬ (p.contexts.contents c).isSome = true := fun h => hdead (isSome_contents.1 h)
  have hdead'' : ¬ ((p.fault .exitInUse).contexts.contents c).isSome = true := hdead'
  unfold libusbExit
  rw [hc]
  dsimp only
  by_cases huse : p.libusbThread = .handling
  · rw [if_pos huse, if_neg hdead'']
    exact faults_fault_ne _ _
  · rw [if_neg huse, if_neg hdead']
    exact faults_fault_ne _ _

theorem libusbExit_inUse {c : ℕ} (hc : p.context = some c) (huse : p.libusbThread = .handling) :
    p.libusbExit.faults ≠ [] := by
  unfold libusbExit
  rw [hc, if_pos huse]
  dsimp only
  split_ifs
  · exact faults_fault_ne p .exitInUse
  · exact faults_fault_ne _ _

theorem useContext_dead (hdead : ∀ c, p.context = some c → ¬ p.contexts.Live c) :
    p.useContext.faults ≠ [] := by
  unfold useContext
  cases hc : p.context with
  | none => exact faults_fault_ne _ _
  | some c =>
    dsimp only
    rw [if_neg fun h => hdead c hc (isSome_contents.1 h)]
    exact faults_fault_ne _ _

/-! ## The calls one by one -/

theorem startThread_of_joinable (h : p.libusbThread ≠ .absent) : p.startThread.faults ≠ [] := by
  unfold startThread
  dsimp only
  rw [if_pos h]
  exact faults_fault_ne _ _

theorem startThread_of_absent (h : p.libusbThread = .absent) :
    p.startThread = { p with pleaseStop := false, libusbThread := .looping } := by
  unfold startThread
  dsimp only
  exact if_neg (not_not.2 h)

theorem releaseHandle_none (hnone : p.devHandle = none) : p.releaseHandle = p := by
  unfold releaseHandle
  rw [hnone, Option.isSome_none, Bool.and_false]
  rfl

theorem releaseHandle_some {b : ℕ} (hown : p.privateDevice = true) (hb : p.devHandle = some b) :
    p.releaseHandle = p.libusbClose := by
  unfold releaseHandle
  rw [hown, hb]
  rfl

theorem releaseContext_none (hnone : p.context = none) : p.releaseContext = p := by
  unfold releaseContext
  rw [hnone, Option.isSome_none, Bool.and_false]
  rfl

theorem releaseContext_some {c : ℕ} (hown : p.privateContext = true) (hc : p.context = some c) :
    p.releaseContext = p.libusbExit := by
  unfold releaseContext
  rw [hown, hc]
  rfl

theorem Is.not_live (h : Is d p u) (hstate : u.state ≠ .connected) (c : ℕ) :
    ¬ p.contexts.Live c ∧ ¬ p.handles.Live c :=
  ⟨fun hc => hstate ((h.contexts c).1 hc).1, fun hc => hstate ((h.handles c).1 hc).1⟩

theorem Is.devHandle_none (h : Is d p u) (hstate : u.state.hasHandle = false) : p.devHandle = none := by
  have := h.hasHandle
  rwa [hstate, Option.isSome_eq_false_iff, Option.isNone_iff_eq_none] at this

theorem Is.idle (h : Is d p u) (hstate : u.state ≠ .connected) : p.libusbThread ≠ .handling := by
  rw [h.thread]
  exact fun hth => hstate (h.handling hth)

theorem ConnectAnswers.state_ne_closed (a : ConnectAnswers) (d : DesiredDevice) : a.state d ≠ .closed := by
  unfold ConnectAnswers.state
  split_ifs <;> exact LinkState.noConfusion

theorem Is.connect_eq (h : Is d p u) (hhandle : u.state.hasHandle = false) {a : ConnectAnswers}
    (hinit : a.init = .success) : (p.connect a).1 = match a.state d with
      | .connected => { p.fresh.libusbOpen with callback := true }.startThread
      | .dangling => p.fresh.libusbOpen.libusbClose.libusbExit
      | _ => p.fresh.libusbExit := by
  have hnone := h.devHandle_none hhandle
  have hcallback : p.callback = false := by
    refine h.callback.trans (decide_eq_false fun hstate => ?_)
    rw [hstate] at hhandle
    cases hhandle
  unfold LibusbConnection.connect
  rw [if_neg (by rw [hnone]; exact Bool.false_ne_true), hinit, attempt_success]
  have := openDevice_eq (p := p.fresh) hnone hcallback a
  rwa [show p.fresh.desired = d from h.desired] at this

theorem Is.connect_closed (h : Is d p u) (hhandle : u.state.hasHandle = false) {a : ConnectAnswers}
    (hinit : a.init = .success) (hfails : a.state d ≠ .connected) :
    Is d (p.connect a).1 { u with state := a.state d } := by
  have hne : u.state ≠ .connected := by
    intro hstate
    rw [hstate] at hhandle
    cases hhandle
  have hnone := h.devHandle_none hhandle
  have hidle := h.idle hne
  have hcallback : p.callback = false := h.callback.trans (decide_eq_false hne)
  have hcontexts : ∀ c, ¬ p.contexts.Live c := fun c => (h.not_live hne c).1
  have hhandles : ∀ c, ¬ p.handles.Live c := fun c => (h.not_live hne c).2
  rw [h.connect_eq hhandle hinit]
  cases ha : a.state d with
  | connected => exact absurd ha hfails
  | closed => exact absurd ha (ConnectAnswers.state_ne_closed a d)
  | dangling =>
    dsimp only
    rw [fresh_close_exit hidle]
    exact
      { desired := h.desired
        faults := h.faults
        owned := ⟨rfl, rfl⟩
        thread := h.thread
        stop := h.stop
        handling := fun hth => absurd (h.handling hth) hne
        callback := hcallback
        hasContext := rfl
        hasHandle := rfl
        contexts := fun c => iff_of_false (live_malloc_free hcontexts) fun hc => LinkState.noConfusion hc.1
        handles := fun c => iff_of_false (live_malloc_free hhandles) fun hc => LinkState.noConfusion hc.1 }
  | stale =>
    dsimp only
    rw [fresh_exit hidle]
    exact
      { desired := h.desired
        faults := h.faults
        owned := ⟨rfl, rfl⟩
        thread := h.thread
        stop := h.stop
        handling := fun hth => absurd (h.handling hth) hne
        callback := hcallback
        hasContext := rfl
        hasHandle := congrArg Option.isSome hnone
        contexts := fun c => iff_of_false (live_malloc_free hcontexts) fun hc => LinkState.noConfusion hc.1
        handles := fun c => iff_of_false (hhandles c) fun hc => LinkState.noConfusion hc.1 }

theorem Is.connect_started (h : Is d p u) (hhandle : u.state.hasHandle = false) {a : ConnectAnswers}
    (hinit : a.init = .success) (hstate : a.state d = .connected) (hthread : u.thread = .absent) :
    Is d (p.connect a).1 ⟨.connected, .looping, false⟩ := by
  have hne : u.state ≠ .connected := by
    intro hstate
    rw [hstate] at hhandle
    cases hhandle
  have hcontexts : ∀ c, ¬ p.contexts.Live c := fun c => (h.not_live hne c).1
  have hhandles : ∀ c, ¬ p.handles.Live c := fun c => (h.not_live hne c).2
  rw [h.connect_eq hhandle hinit, hstate]
  dsimp only
  rw [startThread_of_absent (p := { p.fresh.libusbOpen with callback := true }) (h.thread.trans hthread)]
  exact
    { desired := h.desired
      faults := h.faults
      owned := ⟨rfl, rfl⟩
      thread := rfl
      stop := rfl
      handling := EventThread.noConfusion
      callback := rfl
      hasContext := rfl
      hasHandle := rfl
      contexts := fun c => (live_malloc hcontexts).trans (by simp [fresh, libusbOpen, eq_comm])
      handles := fun c => (live_malloc hhandles).trans (by simp [fresh, libusbOpen, eq_comm]) }

theorem Is.connect_failed (h : Is d p u) (hhandle : u.state.hasHandle = false) {a : ConnectAnswers}
    (hinit : a.init ≠ .success) : (p.connect a).1.faults ≠ [] := by
  have hne : u.state ≠ .connected := by
    intro hstate
    rw [hstate] at hhandle
    cases hhandle
  unfold LibusbConnection.connect
  rw [if_neg (by rw [h.devHandle_none hhandle]; exact Bool.false_ne_true)]
  apply faults_ne (faults_openDevice _ a)
  unfold attempt libusbInit
  rw [if_neg hinit]
  exact useContext_dead fun c _ => (h.not_live hne c).1

theorem Is.connect (h : Is d p u) (a : ConnectAnswers) :
    (∃ v, u.step d (.connect a) = some v ∧ Is d (p.connect a).1 v) ∨
      (u.step d (.connect a) = none ∧ (p.connect a).1.faults ≠ []) := by
  unfold Link.step
  dsimp only
  cases hhandle : u.state.hasHandle with
  | true =>
    refine .inl ⟨u, if_pos rfl, ?_⟩
    unfold LibusbConnection.connect
    rw [if_pos (h.hasHandle.trans hhandle)]
    exact h
  | false =>
    rw [if_neg Bool.false_ne_true]
    by_cases hinit : a.init = .success
    · rw [if_neg (not_not.2 hinit)]
      by_cases hstate : a.state d = .connected
      · rw [if_pos hstate]
        by_cases hthread : u.thread = .absent
        · exact .inl ⟨_, if_pos hthread, h.connect_started hhandle hinit hstate hthread⟩
        · refine .inr ⟨if_neg hthread, ?_⟩
          rw [h.connect_eq hhandle hinit, hstate]
          exact startThread_of_joinable (p := { p.fresh.libusbOpen with callback := true })
            (by rw [← h.thread] at hthread; exact hthread)
      · rw [if_neg hstate]
        exact .inl ⟨_, rfl, h.connect_closed hhandle hinit hstate⟩
    · rw [if_pos hinit]
      exact .inr ⟨rfl, h.connect_failed hhandle hinit⟩

theorem Is.releaseCallback (h : Is d p u) : p.releaseCallback = p := by
  unfold LibusbConnection.releaseCallback
  by_cases hstate : u.state = .connected
  · obtain ⟨c, hc⟩ := Option.isSome_iff_exists.1 (h.hasContext.trans (by rw [hstate]; rfl))
    have hlive : (p.contexts.contents c).isSome = true :=
      isSome_contents.2 ((h.contexts c).2 ⟨hstate, hc⟩)
    unfold deregisterCallback
    rw [hc]
    dsimp only
    rw [if_pos hlive, ite_self]
  · rw [h.callback, decide_eq_false hstate, Bool.and_false]
    rfl

theorem Is.pointers (h : Is d p u) : match u.state with
    | .closed => p.context = none ∧ p.devHandle = none
    | .stale => (∃ c, p.context = some c ∧ ¬ p.contexts.Live c) ∧ p.devHandle = none
    | .dangling => ∃ b, p.devHandle = some b ∧ ¬ p.handles.Live b
    | .connected => (∃ c, p.context = some c ∧ p.contexts.Live c) ∧
        ∃ b, p.devHandle = some b ∧ p.handles.Live b := by
  have hcontext := h.hasContext
  have hhandle := h.hasHandle
  cases hstate : u.state with
  | closed =>
    rw [hstate] at hcontext hhandle
    exact ⟨Option.not_isSome_iff_eq_none.1 (by rw [hcontext]; decide),
      Option.not_isSome_iff_eq_none.1 (by rw [hhandle]; decide)⟩
  | stale =>
    rw [hstate] at hcontext hhandle
    obtain ⟨c, hc⟩ := Option.isSome_iff_exists.1 hcontext
    exact ⟨⟨c, hc, (h.not_live (by rw [hstate]; decide) c).1⟩,
      Option.not_isSome_iff_eq_none.1 (by rw [hhandle]; decide)⟩
  | dangling =>
    rw [hstate] at hhandle
    obtain ⟨b, hb⟩ := Option.isSome_iff_exists.1 hhandle
    exact ⟨b, hb, (h.not_live (by rw [hstate]; decide) b).2⟩
  | connected =>
    rw [hstate] at hcontext hhandle
    obtain ⟨c, hc⟩ := Option.isSome_iff_exists.1 hcontext
    obtain ⟨b, hb⟩ := Option.isSome_iff_exists.1 hhandle
    exact ⟨⟨c, hc, (h.contexts c).2 ⟨hstate, hc⟩⟩, b, hb, (h.handles b).2 ⟨hstate, hb⟩⟩

/-! ### Giving back -/

/-- The handle and the context given back, with what becomes of the pointer to the handle in between. -/
def giveBack (p : LibusbConnection) (devHandle : Option ℕ) : LibusbConnection :=
  { p.releaseHandle with devHandle }.releaseContext

theorem giveBack_live {b c : ℕ} (hown : p.privateContext = true ∧ p.privateDevice = true)
    (hc : p.context = some c) (hlivec : p.contexts.Live c) (hb : p.devHandle = some b)
    (hliveb : p.handles.Live b) (hidle : p.libusbThread ≠ .handling) (devHandle : Option ℕ) :
    p.giveBack devHandle =
      { p with devHandle, contexts := p.contexts.free c, handles := p.handles.free b } := by
  unfold giveBack
  rw [releaseHandle_some hown.2 hb, libusbClose_live hb hliveb,
    releaseContext_some (p := { p with handles := p.handles.free b, devHandle }) hown.1 hc]
  exact libusbExit_live (p := { p with handles := p.handles.free b, devHandle }) hc hlivec hidle

theorem giveBack_none (hcontext : p.context = none) (hhandle : p.devHandle = none) :
    p.giveBack none = p := by
  have hsame : { p with devHandle := none } = p := by rw [← hhandle]
  unfold giveBack
  rw [releaseHandle_none hhandle, hsame, releaseContext_none hcontext]

/-- Giving back what is not open, or the context the thread is in. -/
theorem giveBack_faults (hown : p.privateContext = true ∧ p.privateDevice = true)
    (hpointers : (∃ b, p.devHandle = some b ∧ ¬ p.handles.Live b) ∨
      p.devHandle = none ∧ (∃ c, p.context = some c ∧ ¬ p.contexts.Live c) ∨
      (∃ b, p.devHandle = some b ∧ p.handles.Live b) ∧ (∃ c, p.context = some c) ∧
        p.libusbThread = .handling) (devHandle : Option ℕ) : (p.giveBack devHandle).faults ≠ [] := by
  unfold giveBack
  rcases hpointers with ⟨b, hb, hdead⟩ | ⟨hnone, c, hc, hdead⟩ | ⟨⟨b, hb, hlive⟩, ⟨c, hc⟩, huse⟩
  · rw [releaseHandle_some hown.2 hb, libusbClose_dead hb hdead]
    exact faults_ne (faults_releaseContext { p.fault .closeDead with devHandle })
      (faults_fault_ne p .closeDead)
  · rw [releaseHandle_none hnone, releaseContext_some (p := { p with devHandle }) hown.1 hc]
    exact libusbExit_dead (p := { p with devHandle }) hc hdead
  · rw [releaseHandle_some hown.2 hb, libusbClose_live hb hlive,
      releaseContext_some (p := { p with handles := p.handles.free b, devHandle }) hown.1 hc]
    exact libusbExit_inUse (p := { p with handles := p.handles.free b, devHandle }) hc huse

theorem Is.giveBack_faults (h : Is d p u) (hspoilt : u.Spoilt) (callback : Bool)
    (devHandle : Option ℕ) : ({ p with callback }.giveBack devHandle).faults ≠ [] := by
  apply LibusbConnection.giveBack_faults (p := { p with callback }) h.owned
  have hpointers := h.pointers
  rcases hspoilt with hstate | hstate | ⟨hstate, huse⟩
  · rw [hstate] at hpointers
    exact .inr (.inl ⟨hpointers.2, hpointers.1⟩)
  · rw [hstate] at hpointers
    exact .inl hpointers
  · rw [hstate] at hpointers
    obtain ⟨⟨c, hc, -⟩, hb⟩ := hpointers
    exact .inr (.inr ⟨hb, ⟨c, hc⟩, h.thread.trans huse⟩)

/-- Where it goes well nothing is open afterwards. -/
theorem Is.giveBack_connected (h : Is d p u) (hstate : u.state = .connected) (hidle : u.thread ≠ .handling)
    (callback : Bool) (devHandle : Option ℕ) :
    ∃ contexts handles : Store Unit, (∀ c, ¬ contexts.Live c) ∧ (∀ b, ¬ handles.Live b) ∧
      { p with callback }.giveBack devHandle = { p with callback, devHandle, contexts, handles } := by
  have hpointers := h.pointers
  rw [hstate] at hpointers
  obtain ⟨⟨c, hc, hlivec⟩, b, hb, hliveb⟩ := hpointers
  have hthread : p.libusbThread ≠ .handling := by rw [h.thread]; exact hidle
  refine ⟨_, _, fun e he => ?_, fun e he => ?_,
    giveBack_live (p := { p with callback }) h.owned hc hlivec hb hliveb hthread devHandle⟩
  · obtain ⟨hne, hlive⟩ := Store.live_free_iff.1 he
    exact hne (Option.some.inj (((h.contexts e).1 hlive).2.symm.trans hc))
  · obtain ⟨hne, hlive⟩ := Store.live_free_iff.1 he
    exact hne (Option.some.inj (((h.handles e).1 hlive).2.symm.trans hb))

theorem Is.disconnect_eq (h : Is d p u) :
    p.disconnect = { { p with callback := false }.giveBack none with context := none } := by
  unfold LibusbConnection.disconnect
  rw [h.releaseCallback]
  rfl

theorem Is.disconnect_closed (h : Is d p u) (hstate : u.state = .closed) : p.disconnect = p := by
  have hpointers := h.pointers
  rw [hstate] at hpointers
  have hcallback : p.callback = false := h.callback.trans (decide_eq_false (by rw [hstate]; decide))
  have hsame : { p with callback := false } = p := by rw [← hcallback]
  rw [h.disconnect_eq, hsame, giveBack_none hpointers.1 hpointers.2, ← hpointers.1]

theorem Is.disconnect (h : Is d p u) :
    (∃ v, u.disconnect = some v ∧ Is d p.disconnect v) ∨
      (u.disconnect = none ∧ p.disconnect.faults ≠ []) := by
  have hspoilt : u.Spoilt → p.disconnect.faults ≠ [] := fun hspoilt => by
    rw [h.disconnect_eq]
    exact h.giveBack_faults hspoilt false none
  unfold Link.disconnect
  cases hstate : u.state with
  | closed =>
    refine .inl ⟨u, rfl, ?_⟩
    rw [h.disconnect_closed hstate]
    exact h
  | stale => exact .inr ⟨rfl, hspoilt (.inl hstate)⟩
  | dangling => exact .inr ⟨rfl, hspoilt (.inr (.inl hstate))⟩
  | connected =>
    dsimp only
    by_cases huse : u.thread = .handling
    · exact .inr ⟨if_pos huse, hspoilt (.inr (.inr ⟨hstate, huse⟩))⟩
    · refine .inl ⟨_, if_neg huse, ?_⟩
      obtain ⟨contexts, handles, hcontexts, hhandles, heq⟩ := h.giveBack_connected hstate huse false none
      rw [h.disconnect_eq, heq]
      exact
        { desired := h.desired
          faults := h.faults
          owned := h.owned
          thread := h.thread
          stop := h.stop
          handling := fun hth => absurd hth huse
          callback := rfl
          hasContext := rfl
          hasHandle := rfl
          contexts := fun c => iff_of_false (hcontexts c) fun hc => LinkState.noConfusion hc.1
          handles := fun c => iff_of_false (hhandles c) fun hc => LinkState.noConfusion hc.1 }

theorem Is.useHandle_connected (h : Is d p u) (hstate : u.state = .connected) : p.useHandle = p := by
  have hpointers := h.pointers
  rw [hstate] at hpointers
  obtain ⟨-, b, hb, hlive⟩ := hpointers
  unfold useHandle
  rw [hb]
  exact if_pos (isSome_contents.2 hlive)

theorem Is.useHandle_faults (h : Is d p u) (hstate : u.state ≠ .connected) : p.useHandle.faults ≠ [] := by
  unfold useHandle
  cases hb : p.devHandle with
  | none => exact faults_fault_ne _ _
  | some b =>
    dsimp only
    rw [if_neg fun hlive => (h.not_live hstate b).2 (isSome_contents.1 hlive)]
    exact faults_fault_ne _ _

/-! ### The thread -/

theorem Is.thread_at (h : Is d p u) {thread : EventThread} {stop : Bool}
    (hhandling : thread = .handling → u.state = .connected) :
    Is d { p with libusbThread := thread, pleaseStop := stop } { u with thread, stop } :=
  ⟨h.desired, h.faults, h.owned, rfl, rfl, hhandling, h.callback, h.hasContext, h.hasHandle, h.contexts,
    h.handles⟩

theorem Is.enter (h : Is d p u) :
    (∃ v, u.events .enter = some v ∧ Is d (p.events .enter) v) ∨
      (u.events .enter = none ∧ (p.events .enter).faults ≠ []) := by
  unfold Link.events LibusbConnection.events
  dsimp only
  by_cases hloop : u.thread = .looping
  · have hloop' : p.libusbThread = .looping := h.thread.trans hloop
    rw [if_neg (not_not.2 hloop), if_neg (not_not.2 hloop')]
    cases hstop : u.stop with
    | true =>
      have hstop' : p.pleaseStop = true := h.stop.trans hstop
      refine .inl ⟨_, rfl, ?_⟩
      rw [if_pos hstop', ← hstop']
      exact h.thread_at EventThread.noConfusion
    | false =>
      have hstop' : p.pleaseStop = false := h.stop.trans hstop
      have hgoing : ¬ p.pleaseStop = true := by rw [hstop']; exact Bool.false_ne_true
      rw [if_neg Bool.false_ne_true, if_neg hgoing]
      by_cases hstate : u.state = .connected
      · have hpointers := h.pointers
        rw [hstate] at hpointers
        obtain ⟨⟨c, hc, hlive⟩, -⟩ := hpointers
        refine .inl ⟨_, if_pos hstate, ?_⟩
        rw [useContext_live (p := { p with libusbThread := .handling }) hc hlive, ← hstop']
        exact h.thread_at fun _ => hstate
      · refine .inr ⟨if_neg hstate, ?_⟩
        exact useContext_dead (p := { p with libusbThread := .handling }) fun c _ => (h.not_live hstate c).1
  · have hloop' : p.libusbThread ≠ .looping := by rw [h.thread]; exact hloop
    rw [if_pos hloop, if_pos hloop']
    exact .inl ⟨u, rfl, h⟩

theorem Is.leave (h : Is d p u) (gone : Bool) :
    ∃ v, u.events (.leave gone) = some v ∧ Is d (p.events (.leave gone)) v := by
  unfold Link.events LibusbConnection.events
  dsimp only
  by_cases huse : u.thread = .handling
  · have huse' : p.libusbThread = .handling := h.thread.trans huse
    rw [if_neg (not_not.2 huse), if_neg (not_not.2 huse')]
    refine ⟨_, rfl, ?_⟩
    rw [← h.stop]
    exact h.thread_at EventThread.noConfusion
  · have huse' : p.libusbThread ≠ .handling := by rw [h.thread]; exact huse
    rw [if_pos huse, if_pos huse']
    exact ⟨u, rfl, h⟩

theorem Is.events (h : Is d p u) (m : ThreadMove) :
    (∃ v, u.events m = some v ∧ Is d (p.events m) v) ∨
      (u.events m = none ∧ (p.events m).faults ≠ []) := by
  cases m with
  | enter => exact h.enter
  | leave gone => exact .inl (h.leave gone)

theorem Is.step (h : Is d p u) (m : LinkMove) :
    (∃ v, u.step d m = some v ∧ Is d (p.step m) v) ∨ (u.step d m = none ∧ (p.step m).faults ≠ []) := by
  cases m with
  | connect a => exact h.connect a
  | disconnect => exact h.disconnect
  | events m => exact h.events m
  | reset rc =>
    unfold LibusbConnection.step LibusbConnection.reset Link.step
    dsimp only
    by_cases hstate : u.state = .connected
    · rw [if_pos hstate, h.useHandle_connected hstate]
      split_ifs
      · exact h.disconnect
      · exact .inl ⟨u, rfl, h⟩
    · rw [if_neg hstate]
      have hfault := h.useHandle_faults hstate
      refine .inr ⟨rfl, ?_⟩
      split_ifs
      · exact faults_ne (faults_disconnect _) hfault
      · exact hfault
  | request =>
    unfold LibusbConnection.step Link.step
    dsimp only
    by_cases hstate : u.state = .connected
    · rw [if_pos hstate, h.useHandle_connected hstate]
      exact .inl ⟨u, rfl, h⟩
    · rw [if_neg hstate]
      exact .inr ⟨rfl, h.useHandle_faults hstate⟩
  | interface =>
    unfold LibusbConnection.step Link.step isConnected
    dsimp only
    rw [h.hasHandle]
    cases hstate : u.state with
    | closed => exact .inl ⟨u, rfl, h⟩
    | stale => exact .inl ⟨u, rfl, h⟩
    | dangling => exact .inr ⟨rfl, h.useHandle_faults (by rw [hstate]; decide)⟩
    | connected =>
      refine .inl ⟨u, rfl, ?_⟩
      rw [h.useHandle_connected hstate]
      exact (ite_self p).symm ▸ h

/-! ## The destructor -/

/-- A thread that has been told to stop goes on without the context. -/
theorem Is.events_stopped (h : Is d p u) (hstop : u.stop = true) (m : ThreadMove) :
    ∃ v, Is d (p.events m) v ∧ v.state = u.state ∧ v.stop = true := by
  rcases h.events m with ⟨v, hv, his⟩ | ⟨hnone, -⟩
  · refine ⟨v, his, ?_⟩
    cases m with
    | enter =>
      simp only [Link.events, hstop, if_true] at hv
      split_ifs at hv
      · exact Option.some.inj hv ▸ ⟨rfl, hstop⟩
      · exact Option.some.inj hv ▸ ⟨rfl, rfl⟩
    | leave gone =>
      simp only [Link.events, hstop, Bool.true_or] at hv
      split_ifs at hv
      · exact Option.some.inj hv ▸ ⟨rfl, hstop⟩
      · exact Option.some.inj hv ▸ ⟨rfl, rfl⟩
  · cases m with
    | enter =>
      simp only [Link.events, hstop, if_true] at hnone
      split_ifs at hnone
    | leave gone =>
      simp only [Link.events] at hnone
      split_ifs at hnone

theorem Is.stopping (h : Is d p u) (meanwhile : List ThreadMove) :
    ∃ v, Is d (p.stopping meanwhile) v ∧ v.state = u.state ∧ v.stop = true := by
  have hrun : ∀ (ms : List ThreadMove) {q : LibusbConnection} {w : Link}, Is d q w → w.stop = true →
      ∃ v, Is d (ms.foldl LibusbConnection.events q) v ∧ v.state = w.state ∧ v.stop = true := by
    intro ms
    induction ms with
    | nil => exact fun h hstop => ⟨_, h, rfl, hstop⟩
    | cons m ms ih =>
      intro q w h hstop
      obtain ⟨v, hv, hstate, hstop'⟩ := h.events_stopped hstop m
      obtain ⟨x, hx, hstate', hlast⟩ := ih hv hstop'
      exact ⟨x, hx, hstate'.trans hstate, hlast⟩
  have hstopped : Is d { p with pleaseStop := true } { u with stop := true } :=
    ⟨h.desired, h.faults, h.owned, h.thread, rfl, h.handling, h.callback, h.hasContext, h.hasHandle,
      h.contexts, h.handles⟩
  obtain ⟨v, hv, hstate, hstop⟩ := hrun meanwhile hstopped rfl
  exact ⟨v, hv, hstate, hstop⟩

/-- `connect` again and again while it returns `ENODEV` and the status stays, which it does for one round less
than there are answers. -/
def connectRounds (p : LibusbConnection) (a : ConnectAnswers) :
    List ConnectAnswers → LibusbConnection × ConnectCode
  | [] => p.connect a
  | b :: rest => if (p.connect a).2 = .ENODEV then (p.connect a).1.connectRounds b rest else p.connect a

theorem setUp_code (hcallback : p.callback = false) (a : ConnectAnswers) :
    ((p.setUp a).2 = .zero ↔ a.settles = true) ∧ (p.setUp a).2 ≠ .ENODEV := by
  unfold setUp ConnectAnswers.settles
  by_cases hdetach : a.autoDetach = .success
  · by_cases hstring : a.stringDescriptor = .success
    · by_cases hregister : a.registerCallback = .success <;> simp [hdetach, hstring, hregister, hcallback]
    · simp [hdetach, hstring]
  · simp [hdetach]

/-- What `connect` returns without a handle says where it leads. -/
theorem openDevice_code (hcallback : p.callback = false) (a : ConnectAnswers) :
    ((p.openDevice a).2 = .zero ↔ a.state p.desired = .connected) ∧
      ((p.openDevice a).2 = .ENODEV → a.state p.desired = .stale) := by
  have hsetUp := setUp_code (p := p.libusbOpen) hcallback a
  unfold openDevice ConnectAnswers.state ConnectAnswers.finds
  cases a.list with
  | error rc => simp
  | ok list =>
    dsimp only
    by_cases hfind : (list.any fun dvc => dvc.1 == .success && p.desired.isMet dvc.2) = true
    · by_cases hopen : a.openDevice = .success
      · rw [if_pos hfind, if_neg (not_not.2 hopen)]
        refine ⟨hsetUp.1.trans ?_, fun h => absurd h hsetUp.2⟩
        by_cases hsettles : a.settles = true <;> simp [hfind, hopen, hsettles]
      · simp [hfind, hopen]
    · simp [hfind]

/-- Where a proxy without a handle and without a thread is after a `connect`. -/
def ConnectAnswers.link (a : ConnectAnswers) (d : DesiredDevice) : Link :=
  if a.state d = .connected then ⟨.connected, .looping, false⟩ else ⟨a.state d, .absent, false⟩

theorem Is.connect_fresh (h : Is d p u) (hhandle : u.state.hasHandle = false)
    (hthread : u.thread = .absent) (hstop : u.stop = false) {a : ConnectAnswers} (hinit : a.init = .success) :
    Is d (p.connect a).1 (ConnectAnswers.link a d) ∧ ((p.connect a).2 = .zero ↔ a.state d = .connected) ∧
      ((p.connect a).2 = .ENODEV → a.state d = .stale) := by
  have hcode : (p.connect a).2 = (p.fresh.openDevice a).2 := by
    unfold LibusbConnection.connect
    rw [h.devHandle_none hhandle, if_neg (by decide), hinit, attempt_success]
  have hcallback : p.fresh.callback = false := by
    refine h.callback.trans (decide_eq_false fun hstate => ?_)
    rw [hstate] at hhandle
    cases hhandle
  have hcodes := openDevice_code hcallback a
  rw [show p.fresh.desired = d from h.desired] at hcodes
  rw [hcode]
  refine ⟨?_, hcodes⟩
  unfold ConnectAnswers.link
  split_ifs with hstate
  · exact h.connect_started hhandle hinit hstate hthread
  · have hclosed := h.connect_closed hhandle hinit hstate
    rwa [hthread, hstop] at hclosed

/-- In every round so far no device was found. -/
theorem Is.connectRounds (h : Is d p u) (hhandle : u.state.hasHandle = false)
    (hthread : u.thread = .absent) (hstop : u.stop = false) (a : ConnectAnswers)
    (rest : List ConnectAnswers) (hinit : ∀ b ∈ a :: rest, b.init = .success) :
    ∃ b, Is d (p.connectRounds a rest).1 (ConnectAnswers.link b d) ∧
      ((p.connectRounds a rest).2 = .zero ↔ b.state d = .connected) := by
  obtain ⟨his, hzero, henodev⟩ := h.connect_fresh hhandle hthread hstop (hinit a (List.mem_cons_self ..))
  induction rest generalizing p u a with
  | nil => exact ⟨a, his, hzero⟩
  | cons b rest ih =>
    unfold LibusbConnection.connectRounds
    split_ifs with hagain
    · have hlink : ConnectAnswers.link a d = ⟨.stale, .absent, false⟩ := by
        unfold ConnectAnswers.link
        rw [henodev hagain]
        rfl
      rw [hlink] at his
      have hinit' : ∀ c ∈ b :: rest, c.init = .success := fun c hc => hinit c (List.mem_cons_of_mem _ hc)
      obtain ⟨his', hzero', henodev'⟩ := his.connect_fresh rfl rfl rfl (hinit' b (List.mem_cons_self ..))
      exact ih his rfl rfl rfl b hinit' his' hzero' henodev'
    · exact ⟨a, his, hzero⟩

end LibusbConnection

end UsbProxy
