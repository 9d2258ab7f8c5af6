import UsbProxy.InjectorRouting
import UsbProxy.Library.Handles
import UsbProxy.Library.Runs

/-!
# The files of `HostProxy_GadgetFS`

The proxy has the device file open and one file for each endpoint.  A descriptor that it closes may be given
to any other part of the process by the next `open`, so a descriptor closed twice closes somebody else's file.
`files_accounted` says that this never happens and where every open file is; `files_returned` says when all of
them are given back.

A descriptor of 0 means no file to the proxy; one that is really 0 it keeps but does not close.
-/

namespace UsbProxy

open Handles

/-- Who has a descriptor open: the proxy or another part of the process. -/
inductive FileOwner
  | proxy
  | other
  deriving DecidableEq, Repr

/-- What `open_gadget` and the `write` of the descriptors come to; no file is a negative descriptor. -/
structure DeviceAnswer where
  fd : Option ℕ
  written : Bool

/-- What `open_endpoint` comes to, and whether `aio_read` takes the first read. -/
structure EndpointAnswer where
  fd : Option ℕ
  submitted : Bool

structure GadgetFiles where
  /-- `p_is_connected`. -/
  isConnected : Bool
  /-- `p_device_file`. -/
  deviceFile : ℤ
  /-- Whether `descriptor` is there. -/
  descriptor : Bool
  /-- The `aio_fildes` of the control blocks in `p_epin_async` and `p_epout_async`. -/
  files : EndpointPlace → Option ℕ
  table : Table FileOwner
  /-- The descriptors of the proxy that it has no pointer to any more. -/
  lost : List ℕ
  /-- What was closed without being the proxy's. -/
  faults : List ℕ

namespace GadgetFiles

/-- What the constructor leaves, with the files that the others have open. -/
def new (others : ℕ → Bool) : GadgetFiles where
  isConnected := false
  deviceFile := 0
  descriptor := false
  files := fun _ => none
  table := fun fd => if others fd then some .other else none
  lost := []
  faults := []

/-- A successful `open`: the kernel gives a descriptor that is free. -/
def openFile (s : GadgetFiles) (fd : ℕ) : Option GadgetFiles :=
  if s.table fd = none then some { s with table := Function.update s.table fd (some .proxy) } else none

def closeFile (s : GadgetFiles) (fd : ℕ) : GadgetFiles :=
  { s with
    table := Function.update s.table fd none
    faults := if s.table fd = some .proxy then s.faults else s.faults ++ [fd] }

/-! ## The device file -/

/-- What `connect` and `reconnect` share. -/
def openDevice (s : GadgetFiles) (a : DeviceAnswer) : Option GadgetFiles :=
  match a.fd with
  | none => some { s with deviceFile := -1 }
  | some fd => (s.openFile fd).map fun s =>
    if !a.written then { s.closeFile fd with deviceFile := 0 }
    else { s with deviceFile := fd, isConnected := true }

def connect (s : GadgetFiles) (a : DeviceAnswer) : Option GadgetFiles :=
  if s.isConnected then some s else { s with descriptor := true }.openDevice a

def reconnect (s : GadgetFiles) (a : DeviceAnswer) : Option GadgetFiles :=
  if s.isConnected then some s else if !s.descriptor then some s else s.openDevice a

/-! ## The endpoints -/

/-- `closeEP` for the control block at a place. -/
def closeAt (s : GadgetFiles) (place : EndpointPlace) : GadgetFiles :=
  match s.files place with
  | none => s
  | some fd =>
    let s := { s with files := Function.update s.files place none }
    if fd ≠ 0 then s.closeFile fd else { s with lost := s.lost ++ [fd] }

def closeEP (s : GadgetFiles) (endpoint : Byte) : GadgetFiles := s.closeAt (.ofAddress endpoint)

def disconnectEps (s : GadgetFiles) : GadgetFiles :=
  (List.finRange 16).foldl (fun s i =>
    let s := if (s.files ⟨.inbound, i⟩).isSome then s.closeEP (EndpointPlace.address ⟨.inbound, i⟩) else s
    if (s.files ⟨.outbound, i⟩).isSome then s.closeEP (EndpointPlace.address ⟨.outbound, i⟩) else s) s

def closeDevice (s : GadgetFiles) : GadgetFiles :=
  if s.deviceFile ≠ 0 then { s.closeFile s.deviceFile.toNat with deviceFile := 0 }
  else { s with lost := s.lost ++ [0] }

def disconnect (s : GadgetFiles) : GadgetFiles :=
  if !s.isConnected then s else { s.closeDevice.disconnectEps with isConnected := false }

def reset (s : GadgetFiles) (a : DeviceAnswer) : Option GadgetFiles := s.disconnect.reconnect a

/-- The body of the loops of `setConfig`, with whether they go on. -/
def openEndpoint (s : GadgetFiles) (epAddress : Byte) (a : EndpointAnswer) : Option (GadgetFiles × Bool) :=
  match if epAddress &&& 0x0f = 0 then none else a.fd with
  | none => some (s, false)
  | some fd => (s.openFile fd).map fun s =>
    if epAddress &&& 0x80 ≠ 0 ∨ a.submitted then
      ({ s with
        files := Function.update s.files (.ofAddress epAddress) (some fd)
        lost := s.lost ++ (s.files (.ofAddress epAddress)).toList }, true)
    else ({ s with lost := s.lost ++ [fd] }, true)

/-- The loops over the endpoints; `answers n` is for the `n`-th. -/
def openEndpoints (answers : ℕ → EndpointAnswer) :
    ℕ → List Byte → GadgetFiles → Option GadgetFiles
  | _, [], s => some s
  | n, epAddress :: rest, s => (s.openEndpoint epAddress (answers n)).bind fun r =>
    if r.2 then openEndpoints answers (n + 1) rest r.1 else some r.1

/-- The endpoints that the loops of `setConfig` come to, in their order. -/
def epAddresses (fsCfg : Configuration) : List Byte :=
  fsCfg.reached.map fun slot => slot.fsEp.descriptor.bEndpointAddress

def setConfig (s : GadgetFiles) (fsCfg : Configuration) (answers : ℕ → EndpointAnswer) :
    Option GadgetFiles :=
  openEndpoints answers 0 (epAddresses fsCfg) s

/-- `receive_data` when `aio_read` does not take the next read. -/
def dropRead (s : GadgetFiles) (number : Fin 16) : Option GadgetFiles :=
  (s.files ⟨.outbound, number⟩).map fun fd =>
    { s with files := Function.update s.files ⟨.outbound, number⟩ none, lost := s.lost ++ [fd] }

/-- The destructor. -/
def destroy (s : GadgetFiles) : GadgetFiles := if s.isConnected then s.disconnect else s

end GadgetFiles

/-- The calls of the manager, those of the endpoints' threads, which close an endpoint that was shut down or
whose next read is refused, and the rest of the process. -/
inductive FileMove
  | connect (a : DeviceAnswer)
  | disconnect
  | reset (a : DeviceAnswer)
  | setConfig (fsCfg : Configuration) (answers : ℕ → EndpointAnswer)
  | closeEP (endpoint : Byte)
  | dropRead (number : Fin 16)
  | otherOpens (fd : ℕ)
  | otherCloses (fd : ℕ)

namespace GadgetFiles

def step (s : GadgetFiles) : FileMove → Option GadgetFiles
  | .connect a => s.connect a
  | .disconnect => some s.disconnect
  | .reset a => s.reset a
  | .setConfig fsCfg answers => s.setConfig fsCfg answers
  | .closeEP endpoint => some (s.closeEP endpoint)
  | .dropRead number => s.dropRead number
  | .otherOpens fd =>
    if s.table fd = none then some { s with table := Function.update s.table fd (some .other) } else none
  | .otherCloses fd =>
    if s.table fd = some .other then some { s with table := Function.update s.table fd none } else none

/-! ## Where the files are -/

/-- The descriptors behind the pointers, with that of the device file. -/
def keeps (s : GadgetFiles) (device : Option ℕ) : Option EndpointPlace → Option ℕ
  | none => device
  | some place => s.files place

/-- `p_device_file` while it is a file. -/
def device (s : GadgetFiles) : Option ℕ := if s.isConnected then some s.deviceFile.toNat else none

/-- Nothing was closed that was not the proxy's, and its files are accounted for. -/
structure Accounted (s : GadgetFiles) (device : Option ℕ) : Prop where
  faults : s.faults = []
  held : Held .proxy s.table (s.keeps device) s.lost

variable {s t : GadgetFiles} {device : Option ℕ} {fd : ℕ} {place : EndpointPlace}

theorem keeps_device (s : GadgetFiles) (device device' : Option ℕ) :
    s.keeps device' = Function.update (s.keeps device) none device' := by
  funext k
  cases k with
  | none => rw [Function.update_self]; rfl
  | some place => rw [Function.update_of_ne (Option.some_ne_none place)]; rfl

theorem keeps_files {file : Option ℕ} (h : t.files = Function.update s.files place file)
    (device : Option ℕ) : t.keeps device = Function.update (s.keeps device) (some place) file := by
  funext k
  cases k with
  | none => rw [Function.update_of_ne (Option.some_ne_none place).symm]; rfl
  | some place' =>
    by_cases hp : place' = place
    · subst hp
      rw [Function.update_self]
      exact (congrFun h place').trans (Function.update_self ..)
    · rw [Function.update_of_ne fun hsome => hp (Option.some.inj hsome)]
      exact (congrFun h place').trans (Function.update_of_ne hp ..)

theorem closeFile_mine (hfd : s.table fd = some .proxy) :
    s.closeFile fd = { s with table := Function.update s.table fd none } := by
  unfold closeFile
  rw [if_pos hfd]

theorem Accounted.closeAt (h : Accounted s device) (place : EndpointPlace) :
    Accounted (s.closeAt place) device := by
  unfold GadgetFiles.closeAt
  cases hf : s.files place with
  | none => exact h
  | some fd =>
    have hkept : s.keeps device (some place) = some fd := hf
    dsimp only
    split_ifs with hzero
    · rw [closeFile_mine (s := { s with files := Function.update s.files place none })
        (h.held.is_mine hkept)]
      have hheld := h.held.closed hkept
      rw [← keeps_files (t := { s with files := Function.update s.files place none }) rfl] at hheld
      exact ⟨h.faults, hheld⟩
    · have hheld := h.held.forgotten (some place)
      rw [hkept, ← keeps_files (t := { s with files := Function.update s.files place none }) rfl] at hheld
      exact ⟨h.faults, hheld⟩

theorem files_closeAt (s : GadgetFiles) (place : EndpointPlace) :
    (s.closeAt place).files = Function.update s.files place none := by
  unfold closeAt
  cases hf : s.files place with
  | none => exact (Function.update_eq_self_iff.2 hf.symm).symm
  | some fd =>
    dsimp only
    split_ifs <;> rfl

theorem device_closeAt (s : GadgetFiles) (place : EndpointPlace) :
    (s.closeAt place).isConnected = s.isConnected ∧ (s.closeAt place).deviceFile = s.deviceFile := by
  unfold closeAt
  cases s.files place with
  | none => exact ⟨rfl, rfl⟩
  | some fd =>
    dsimp only
    split_ifs <;> exact ⟨rfl, rfl⟩

theorem disconnectEps_eq (s : GadgetFiles) : s.disconnectEps = (List.finRange 16).foldl
    (fun s i => (s.closeAt ⟨.inbound, i⟩).closeAt ⟨.outbound, i⟩) s := by
  have hguard : ∀ (s : GadgetFiles) (place : EndpointPlace),
      (if (s.files place).isSome then s.closeEP place.address else s) = s.closeAt place := by
    intro s place
    unfold closeEP closeAt
    rw [EndpointPlace.ofAddress_address]
    cases hf : s.files place <;> rfl
  unfold disconnectEps
  simp only [hguard]

theorem Accounted.disconnectEps (h : Accounted s device) : Accounted s.disconnectEps device := by
  rw [disconnectEps_eq]
  generalize List.finRange 16 = is
  induction is generalizing s with
  | nil => exact h
  | cons i is ih => exact ih ((h.closeAt ⟨.inbound, i⟩).closeAt ⟨.outbound, i⟩)

theorem files_disconnectEps (s : GadgetFiles) (place : EndpointPlace) :
    s.disconnectEps.files place = none := by
  have hfiles : ∀ (is : List (Fin 16)) (s : GadgetFiles), (place.number ∈ is ∨ s.files place = none) →
      (is.foldl (fun s i => (s.closeAt ⟨.inbound, i⟩).closeAt ⟨.outbound, i⟩) s).files place = none := by
    intro is
    induction is with
    | nil => exact fun s h => h.resolve_left List.not_mem_nil
    | cons i is ih =>
      intro s h
      apply ih
      rw [files_closeAt, files_closeAt]
      by_cases hi : place.number = i
      · right
        obtain ⟨direction, number⟩ := place
        subst hi
        cases direction with
        | inbound => rw [Function.update_of_ne (by simp), Function.update_self]
        | outbound => rw [Function.update_self]
      · refine h.imp (fun hmem => (List.mem_cons.1 hmem).resolve_left hi) fun hnone => ?_
        rw [Function.update_of_ne fun hp => hi (congrArg EndpointPlace.number hp),
          Function.update_of_ne fun hp => hi (congrArg EndpointPlace.number hp)]
        exact hnone
  rw [disconnectEps_eq]
  exact hfiles _ s (.inl (List.mem_finRange _))

/-! ## The calls one by one -/

theorem device_of_connected (h : s.isConnected = true) : s.device = some s.deviceFile.toNat := if_pos h

theorem device_of_not_connected (h : s.isConnected = false) : s.device = none :=
  if_neg (Bool.not_eq_true _ ▸ h)

theorem Accounted.closeDevice (h : Accounted s s.device) (hconnected : s.isConnected = true) :
    Accounted s.closeDevice none := by
  rw [device_of_connected hconnected] at h
  have hkept : s.keeps (some s.deviceFile.toNat) none = some s.deviceFile.toNat := rfl
  unfold GadgetFiles.closeDevice
  split_ifs with hzero
  · rw [closeFile_mine (h.held.is_mine hkept)]
    refine ⟨h.faults, ?_⟩
    have hheld := h.held.closed hkept
    rwa [← keeps_device] at hheld
  · refine ⟨h.faults, ?_⟩
    have hheld := h.held.forgotten none
    rw [← keeps_device, hkept, not_not.1 hzero] at hheld
    exact hheld

theorem Accounted.disconnect (h : Accounted s s.device) : Accounted s.disconnect s.disconnect.device := by
  unfold GadgetFiles.disconnect
  cases hconnected : s.isConnected with
  | false => exact h
  | true =>
    have hclosed := (h.closeDevice hconnected).disconnectEps
    exact ⟨hclosed.faults, hclosed.held⟩

theorem openFile_cases (hopen : s.openFile fd = some t) :
    s.table fd = none ∧ t = { s with table := Function.update s.table fd (some .proxy) } := by
  unfold openFile at hopen
  split_ifs at hopen with hfree
  exact ⟨hfree, (Option.some.inj hopen).symm⟩

theorem Accounted.openDevice (h : Accounted s none) (hconnected : s.isConnected = false)
    {a : DeviceAnswer} (hopen : s.openDevice a = some t) : Accounted t t.device := by
  unfold GadgetFiles.openDevice at hopen
  cases ha : a.fd with
  | none =>
    rw [ha] at hopen
    cases hopen
    rw [device_of_not_connected (s := { s with deviceFile := -1 }) hconnected]
    exact ⟨h.faults, h.held⟩
  | some fd =>
    rw [ha] at hopen
    obtain ⟨u, hu, rfl⟩ := Option.map_eq_some_iff.1 hopen
    obtain ⟨hfree, rfl⟩ := openFile_cases hu
    have hheld := h.held.opened hfree none
    rw [← keeps_device, show s.keeps none none = none from rfl, Option.toList_none, List.append_nil] at hheld
    split_ifs
    · have hmine : (Function.update s.table fd (some .proxy)) fd = some FileOwner.proxy :=
        Function.update_self ..
      have hback : Function.update s.table fd none = s.table := Function.update_eq_self_iff.2 hfree.symm
      rw [closeFile_mine (s := { s with table := Function.update s.table fd (some .proxy) }) hmine]
      dsimp only
      rw [Function.update_idem, hback]
      have hdevice : device { s with deviceFile := 0 } = none := device_of_not_connected hconnected
      rw [hdevice]
      exact ⟨h.faults, h.held⟩
    · exact ⟨h.faults, hheld⟩

theorem Accounted.reconnect (h : Accounted s s.device) {a : DeviceAnswer} (hopen : s.reconnect a = some t) :
    Accounted t t.device := by
  unfold GadgetFiles.reconnect at hopen
  split_ifs at hopen with hconnected
  · exact Option.some.inj hopen ▸ h
  · exact Option.some.inj hopen ▸ h
  · rw [device_of_not_connected (Bool.not_eq_true _ ▸ hconnected)] at h
    exact h.openDevice (Bool.not_eq_true _ ▸ hconnected) hopen

theorem Accounted.connect (h : Accounted s s.device) {a : DeviceAnswer} (hopen : s.connect a = some t) :
    Accounted t t.device := by
  unfold GadgetFiles.connect at hopen
  split_ifs at hopen with hconnected
  · exact Option.some.inj hopen ▸ h
  · rw [device_of_not_connected (Bool.not_eq_true _ ▸ hconnected)] at h
    exact Accounted.openDevice (s := { s with descriptor := true }) ⟨h.faults, h.held⟩
      (Bool.not_eq_true _ ▸ hconnected) hopen

theorem Accounted.openEndpoint (h : Accounted s device) {epAddress : Byte} {a : EndpointAnswer}
    {r : GadgetFiles × Bool} (hopen : s.openEndpoint epAddress a = some r) :
    Accounted r.1 device ∧ r.1.isConnected = s.isConnected ∧ r.1.deviceFile = s.deviceFile := by
  unfold GadgetFiles.openEndpoint at hopen
  cases ha : (if epAddress &&& 0x0f = 0 then none else a.fd) with
  | none =>
    rw [ha] at hopen
    cases hopen
    exact ⟨h, rfl, rfl⟩
  | some fd =>
    rw [ha] at hopen
    obtain ⟨u, hu, rfl⟩ := Option.map_eq_some_iff.1 hopen
    obtain ⟨hfree, rfl⟩ := openFile_cases hu
    split_ifs
    · refine ⟨⟨h.faults, ?_⟩, rfl, rfl⟩
      have hheld := h.held.opened hfree (some (.ofAddress epAddress))
      rwa [← keeps_files (t := { s with files := Function.update s.files (.ofAddress epAddress) (some fd) })
        rfl device] at hheld
    · exact ⟨⟨h.faults, h.held.leaked hfree⟩, rfl, rfl⟩

theorem Accounted.openEndpoints (h : Accounted s device) {answers : ℕ → EndpointAnswer}
    {eps : List Byte} {n : ℕ} (hopen : openEndpoints answers n eps s = some t) :
    Accounted t device ∧ t.isConnected = s.isConnected ∧ t.deviceFile = s.deviceFile := by
  induction eps generalizing s n with
  | nil =>
    obtain rfl := Option.some.inj hopen
    exact ⟨h, rfl, rfl⟩
  | cons epAddress eps ih =>
    obtain ⟨r, hr, hrest⟩ := Option.bind_eq_some_iff.1 hopen
    obtain ⟨hone, hconnected, hfile⟩ := h.openEndpoint hr
    split_ifs at hrest
    · obtain ⟨hall, hconnected', hfile'⟩ := ih hone hrest
      exact ⟨hall, hconnected'.trans hconnected, hfile'.trans hfile⟩
    · obtain rfl := Option.some.inj hrest
      exact ⟨hone, hconnected, hfile⟩

theorem device_congr (hconnected : t.isConnected = s.isConnected) (hfile : t.deviceFile = s.deviceFile) :
    t.device = s.device := by
  unfold GadgetFiles.device
  rw [hconnected, hfile]

theorem Accounted.step {m : FileMove} (h : Accounted s s.device) (hstep : s.step m = some t) :
    Accounted t t.device := by
  cases m with
  | connect a => exact h.connect hstep
  | disconnect => exact Option.some.inj hstep ▸ h.disconnect
  | reset a => exact h.disconnect.reconnect hstep
  | setConfig fsCfg answers =>
    obtain ⟨hall, hconnected, hfile⟩ := h.openEndpoints hstep
    rw [device_congr hconnected hfile]
    exact hall
  | closeEP endpoint =>
    obtain rfl := Option.some.inj hstep
    obtain ⟨hconnected, hfile⟩ := device_closeAt s (.ofAddress endpoint)
    have hdevice : (s.closeEP endpoint).device = s.device := device_congr hconnected hfile
    rw [hdevice]
    exact h.closeAt _
  | dropRead number =>
    obtain ⟨fd, hfd, rfl⟩ := Option.map_eq_some_iff.1 hstep
    refine ⟨h.faults, ?_⟩
    have hheld := h.held.forgotten (some ⟨.outbound, number⟩)
    rw [← keeps_files (t := { s with files := Function.update s.files ⟨.outbound, number⟩ none }) rfl,
      show s.keeps s.device (some ⟨.outbound, number⟩) = some fd from hfd] at hheld
    exact hheld
  | otherOpens fd =>
    unfold GadgetFiles.step at hstep
    dsimp only at hstep
    split_ifs at hstep with hfree
    obtain rfl := Option.some.inj hstep
    exact ⟨h.faults, h.held.elsewhere (by rw [hfree]; simp) (by simp)⟩
  | otherCloses fd =>
    unfold GadgetFiles.step at hstep
    dsimp only at hstep
    split_ifs at hstep with hother
    obtain rfl := Option.some.inj hstep
    exact ⟨h.faults, h.held.elsewhere (by rw [hother]; simp) (by simp)⟩

theorem accounted_new (others : ℕ → Bool) : Accounted (new others) none where
  faults := rfl
  held :=
    { mine_iff := by
        intro fd
        have hnone : (new others).table fd ≠ some .proxy := by
          unfold new
          dsimp only
          split_ifs <;> simp
        refine iff_of_false hnone ?_
        rintro (⟨k, hk⟩ | hlost)
        · cases k <;> cases hk
        · exact List.not_mem_nil hlost
      inj := by
        intro k l fd hk
        cases k <;> cases hk
      apart := fun _ _ _ => List.not_mem_nil
      nodup := List.nodup_nil }

theorem run_accounted {others : ℕ → Bool} {moves : List FileMove}
    (hrun : Runs.run step (new others) moves = some s) : Accounted s s.device :=
  Runs.invariant (fun s => Accounted s s.device) (fun _ _ _ hstep h => h.step hstep) hrun
    (accounted_new others)

theorem Accounted.destroy (h : Accounted s s.device) : Accounted s.destroy s.destroy.device := by
  unfold GadgetFiles.destroy
  split_ifs
  · exact h.disconnect
  · exact h

/-- **Where the files are.**  Whatever descriptors the kernel gives out, whichever calls fail and whatever the
rest of the process opens and closes in between: the proxy never closes a file that is not its own, and the
files it has open are that of the device while it is connected, one for each endpoint that has a control block,
and those it has lost, no two of them the same. -/
theorem files_accounted (others : ℕ → Bool) (moves : List FileMove) (s : GadgetFiles)
    (hrun : Runs.run step (new others) moves = some s) :
    s.faults = [] ∧ s.destroy.faults = [] ∧
      (∀ fd, s.table fd = some .proxy ↔ (s.isConnected = true ∧ s.deviceFile.toNat = fd) ∨
        (∃ place, s.files place = some fd) ∨ fd ∈ s.lost) ∧
      (∀ place place' fd, s.files place = some fd → s.files place' = some fd → place = place') ∧
      (∀ place fd, s.files place = some fd → fd ∉ s.lost ∧
        ¬ (s.isConnected = true ∧ s.deviceFile.toNat = fd)) ∧
      s.lost.Nodup := by
  have h := run_accounted hrun
  have hdevice : ∀ fd, s.keeps s.device none = some fd ↔ s.isConnected = true ∧ s.deviceFile.toNat = fd := by
    intro fd
    change (if s.isConnected then some s.deviceFile.toNat else none) = some fd ↔ _
    cases s.isConnected <;> simp
  refine ⟨h.faults, h.destroy.faults, fun fd => ?_, fun place place' fd hp hp' => ?_,
    fun place fd hp => ⟨h.held.apart (some place) fd hp, fun hboth => ?_⟩, h.held.nodup⟩
  · rw [h.held.mine_iff, ← hdevice, ← or_assoc]
    refine or_congr_left ⟨?_, ?_⟩
    · rintro ⟨k, hk⟩
      cases k with
      | none => exact .inl hk
      | some place => exact .inr ⟨place, hk⟩
    · rintro (hk | ⟨place, hk⟩)
      · exact ⟨none, hk⟩
      · exact ⟨some place, hk⟩
  · exact Option.some.inj (h.held.inj (some place) (some place') fd hp hp')
  · exact Option.some_ne_none place (h.held.inj (some place) none fd hp ((hdevice fd).2 hboth))

/-- A keyboard is connected, the thread of its endpoint finds it shut down, and the rest of the process gets
the descriptor of its file before the manager disconnects. -/
def keyboardSession : List FileMove :=
  [.connect ⟨some 3, true⟩, .setConfig bootKeyboard fun _ => ⟨some 4, true⟩, .closeEP 0x81, .otherOpens 4,
    .disconnect]

def stdio (fd : ℕ) : Bool := fd < 3

theorem files_accounted_keyboardSession :
    ∃ s, Runs.run step (new stdio) keyboardSession = some s ∧ s.table 4 = some .other ∧
      s.faults = [] ∧ s.lost.Nodup := by
  have hs := (Option.some_get (x := Runs.run step (new stdio) keyboardSession) rfl).symm
  obtain ⟨hfaults, -, -, -, -, hnodup⟩ := files_accounted stdio keyboardSession _ hs
  exact ⟨_, hs, rfl, hfaults, hnodup⟩

/-! ## Nothing lost -/

/-- The kernel gives no descriptor 0, a configuration is set while connected and for endpoints without a file,
each with a place of its own, and every read is taken. -/
def Returns (s : GadgetFiles) : FileMove → Prop
  | .connect a | .reset a => a.fd ≠ some 0
  | .setConfig fsCfg answers => s.isConnected = true ∧
    (∀ n, (answers n).fd ≠ some 0 ∧ (answers n).submitted = true) ∧
    ((epAddresses fsCfg).map EndpointPlace.ofAddress).Nodup ∧
    ∀ epAddress ∈ epAddresses fsCfg, s.files (.ofAddress epAddress) = none
  | .dropRead _ => False
  | _ => True

/-- Nothing is lost, and without a connection no endpoint has a file. -/
structure Tidy (s : GadgetFiles) : Prop where
  lost : s.lost = []
  device : s.isConnected = true → s.deviceFile ≠ 0
  files : ∀ place, s.files place ≠ some 0
  closed : s.isConnected = false → ∀ place, s.files place = none

theorem lost_closeAt (hfiles : ∀ place, s.files place ≠ some 0) (place : EndpointPlace) :
    (s.closeAt place).lost = s.lost ∧ ∀ place', (s.closeAt place).files place' ≠ some 0 := by
  constructor
  · unfold closeAt
    cases hf : s.files place with
    | none => rfl
    | some fd =>
      dsimp only
      rw [if_pos fun hzero => hfiles place (by rw [hf, hzero])]
      rfl
  · intro place'
    rw [files_closeAt]
    by_cases hp : place' = place
    · rw [hp, Function.update_self]
      exact (Option.some_ne_none 0).symm
    · rw [Function.update_of_ne hp]
      exact hfiles place'

theorem lost_disconnectEps (hfiles : ∀ place, s.files place ≠ some 0) :
    s.disconnectEps.lost = s.lost := by
  rw [disconnectEps_eq]
  generalize List.finRange 16 = is
  induction is generalizing s with
  | nil => rfl
  | cons i is ih =>
    obtain ⟨hlost, hfiles'⟩ := lost_closeAt hfiles ⟨.inbound, i⟩
    obtain ⟨hlost', hfiles''⟩ := lost_closeAt hfiles' ⟨.outbound, i⟩
    rw [List.foldl_cons, ih hfiles'', hlost', hlost]

theorem Tidy.closeAt (h : Tidy s) (place : EndpointPlace) : Tidy (s.closeAt place) := by
  obtain ⟨hconnected, hfile⟩ := device_closeAt s place
  obtain ⟨hlost, hfiles⟩ := lost_closeAt h.files place
  refine ⟨hlost.trans h.lost, fun hc => ?_, hfiles, fun hc place' => ?_⟩
  · rw [hfile]
    exact h.device (hconnected ▸ hc)
  · rw [files_closeAt, Function.update_apply, h.closed (hconnected ▸ hc) place', ite_self]

theorem Tidy.disconnect (h : Tidy s) : Tidy s.disconnect ∧ s.disconnect.isConnected = false := by
  unfold GadgetFiles.disconnect
  cases hconnected : s.isConnected with
  | false => exact ⟨h, hconnected⟩
  | true =>
    have hclose : s.closeDevice.lost = [] ∧ s.closeDevice.files = s.files := by
      unfold closeDevice
      rw [if_pos (h.device hconnected)]
      exact ⟨h.lost, rfl⟩
    have hfiles : ∀ place, s.closeDevice.files place ≠ some 0 := by
      rw [hclose.2]
      exact h.files
    have hnone := files_disconnectEps s.closeDevice
    refine ⟨⟨(lost_disconnectEps hfiles).trans hclose.1, fun hc => Bool.noConfusion hc, fun place => ?_,
      fun _ => hnone⟩, rfl⟩
    have hplace : s.closeDevice.disconnectEps.files place ≠ some 0 := by
      rw [hnone]
      exact (Option.some_ne_none 0).symm
    exact hplace

theorem Tidy.openDevice (h : Tidy s) (hconnected : s.isConnected = false) {a : DeviceAnswer}
    (hzero : a.fd ≠ some 0) (hopen : s.openDevice a = some t) : Tidy t := by
  unfold GadgetFiles.openDevice at hopen
  cases ha : a.fd with
  | none =>
    rw [ha] at hopen
    cases hopen
    exact ⟨h.lost, fun hc => absurd (hconnected.symm.trans hc) Bool.false_ne_true, h.files, h.closed⟩
  | some fd =>
    rw [ha] at hopen
    obtain ⟨u, hu, rfl⟩ := Option.map_eq_some_iff.1 hopen
    obtain ⟨-, rfl⟩ := openFile_cases hu
    split_ifs
    · exact ⟨h.lost, fun hc => absurd (hconnected.symm.trans hc) Bool.false_ne_true, h.files, h.closed⟩
    · refine ⟨h.lost, fun _ hfile => ?_, h.files, fun hc => Bool.noConfusion hc⟩
      exact hzero (ha.trans (congrArg some (Int.ofNat_eq_zero.1 hfile)))

theorem Tidy.reconnect (h : Tidy s) {a : DeviceAnswer} (hzero : a.fd ≠ some 0)
    (hopen : s.reconnect a = some t) : Tidy t := by
  unfold GadgetFiles.reconnect at hopen
  split_ifs at hopen with hconnected
  · exact Option.some.inj hopen ▸ h
  · exact Option.some.inj hopen ▸ h
  · exact h.openDevice (Bool.not_eq_true _ ▸ hconnected) hzero hopen

theorem Tidy.openEndpoint (h : Tidy s) (hconnected : s.isConnected = true) {epAddress : Byte}
    {a : EndpointAnswer} {r : GadgetFiles × Bool} (hzero : a.fd ≠ some 0) (htaken : a.submitted = true)
    (hfree : s.files (.ofAddress epAddress) = none) (hopen : s.openEndpoint epAddress a = some r) :
    Tidy r.1 ∧ r.1.isConnected = true ∧
      ∀ place, place ≠ .ofAddress epAddress → r.1.files place = s.files place := by
  unfold GadgetFiles.openEndpoint at hopen
  cases ha : (if epAddress &&& 0x0f = 0 then none else a.fd) with
  | none =>
    rw [ha] at hopen
    cases hopen
    exact ⟨h, hconnected, fun _ _ => rfl⟩
  | some fd =>
    rw [ha] at hopen
    obtain ⟨u, hu, rfl⟩ := Option.map_eq_some_iff.1 hopen
    obtain ⟨-, rfl⟩ := openFile_cases hu
    have hfd : fd ≠ 0 := by
      split_ifs at ha
      rintro rfl
      exact hzero ha
    dsimp only
    rw [if_pos (.inr htaken), hfree, Option.toList_none, List.append_nil]
    refine ⟨⟨h.lost, h.device, fun place => ?_, fun hc => absurd (hconnected.symm.trans hc) (by decide)⟩,
      hconnected, fun place hp => Function.update_of_ne hp ..⟩
    dsimp only
    rw [Function.update_apply]
    split_ifs
    · exact fun hsome => hfd (Option.some.inj hsome)
    · exact h.files place

theorem Tidy.openEndpoints (h : Tidy s) (hconnected : s.isConnected = true) {answers : ℕ → EndpointAnswer}
    (hanswers : ∀ n, (answers n).fd ≠ some 0 ∧ (answers n).submitted = true) {eps : List Byte} {n : ℕ}
    (hapart : (eps.map EndpointPlace.ofAddress).Nodup)
    (hfree : ∀ epAddress ∈ eps, s.files (.ofAddress epAddress) = none)
    (hopen : openEndpoints answers n eps s = some t) : Tidy t := by
  induction eps generalizing s n with
  | nil => exact Option.some.inj hopen ▸ h
  | cons epAddress eps ih =>
    rw [List.map_cons, List.nodup_cons] at hapart
    obtain ⟨r, hr, hrest⟩ := Option.bind_eq_some_iff.1 hopen
    obtain ⟨hone, hconnected', hother⟩ := h.openEndpoint hconnected (hanswers n).1 (hanswers n).2
      (hfree epAddress List.mem_cons_self) hr
    split_ifs at hrest
    · refine ih hone hconnected' hapart.2 (fun e he => ?_) hrest
      rw [hother _ fun hsame => hapart.1 (hsame ▸ List.mem_map_of_mem he)]
      exact hfree e (List.mem_cons_of_mem _ he)
    · exact Option.some.inj hrest ▸ hone

theorem Tidy.step {m : FileMove} (h : Tidy s) (hm : s.Returns m) (hstep : s.step m = some t) : Tidy t := by
  cases m with
  | connect a =>
    replace hstep : s.connect a = some t := hstep
    unfold GadgetFiles.connect at hstep
    split_ifs at hstep with hconnected
    · exact Option.some.inj hstep ▸ h
    · exact Tidy.openDevice (s := { s with descriptor := true }) ⟨h.lost, h.device, h.files, h.closed⟩
        (Bool.not_eq_true _ ▸ hconnected) hm hstep
  | disconnect => exact Option.some.inj hstep ▸ h.disconnect.1
  | reset a => exact h.disconnect.1.reconnect hm hstep
  | setConfig fsCfg answers =>
    obtain ⟨hconnected, hanswers, hapart, hfree⟩ := hm
    exact h.openEndpoints hconnected hanswers hapart hfree hstep
  | closeEP endpoint => exact Option.some.inj hstep ▸ h.closeAt _
  | dropRead number => exact hm.elim
  | otherOpens fd =>
    unfold GadgetFiles.step at hstep
    dsimp only at hstep
    split_ifs at hstep
    obtain rfl := Option.some.inj hstep
    exact ⟨h.lost, h.device, h.files, h.closed⟩
  | otherCloses fd =>
    unfold GadgetFiles.step at hstep
    dsimp only at hstep
    split_ifs at hstep
    obtain rfl := Option.some.inj hstep
    exact ⟨h.lost, h.device, h.files, h.closed⟩

theorem Tidy.not_open (h : Tidy s) (hs : Accounted s s.device) (hconnected : s.isConnected = false)
    (fd : ℕ) : s.table fd ≠ some .proxy := by
  rw [Ne, hs.held.mine_iff, h.lost, device_of_not_connected hconnected]
  rintro (⟨k, hk⟩ | hlost)
  · cases k with
    | none => cases hk
    | some place => cases (h.closed hconnected place).symm.trans hk
  · exact List.not_mem_nil hlost

/-- **Every file is given back.**  As long as the kernel gives no descriptor 0, configurations are set while
connected and for endpoints without a file, and every read is taken: nothing is lost, without a connection the
proxy has no file open, and the destructor closes what there is. -/
theorem files_returned (others : ℕ → Bool) (moves : List FileMove) (s : GadgetFiles)
    (hrun : Runs.run step (new others) moves = some s)
    (hreturns : Runs.Along step Returns (new others) moves) :
    s.lost = [] ∧ (s.isConnected = false → ∀ fd, s.table fd ≠ some .proxy) ∧
      ∀ fd, s.destroy.table fd ≠ some .proxy := by
  have h : Tidy s := Runs.invariant_of_along Tidy (fun _ _ _ hstep hm h => h.step hm hstep) hreturns hrun
    ⟨rfl, fun hc => Bool.noConfusion hc, fun _ => (Option.some_ne_none 0).symm, fun _ _ => rfl⟩
  have hs := run_accounted hrun
  refine ⟨h.lost, fun hconnected => h.not_open hs hconnected, ?_⟩
  have hdestroy := hs.destroy
  unfold destroy at hdestroy ⊢
  split_ifs with hconnected
  · rw [if_pos hconnected] at hdestroy
    exact h.disconnect.1.not_open hdestroy h.disconnect.2
  · exact h.not_open hs (Bool.not_eq_true _ ▸ hconnected)

theorem files_returned_keyboardSession :
    ∃ s, Runs.run step (new stdio) (keyboardSession.take 4) = some s ∧ s.isConnected = true ∧
      ∀ fd, s.destroy.table fd ≠ some .proxy := by
  have hs := (Option.some_get (x := Runs.run step (new stdio) (keyboardSession.take 4)) rfl).symm
  have heps : epAddresses bootKeyboard = [0x81] := rfl
  have hreturns : Runs.Along step Returns (new stdio) (keyboardSession.take 4) := by
    have hthree : some 3 ≠ some 0 := by decide
    have hfour : some 4 ≠ some 0 := by decide
    refine ⟨hthree, fun t ht => ⟨⟨?_, fun _ => ⟨hfour, rfl⟩, ?_, ?_⟩, fun _ _ =>
      ⟨trivial, fun _ _ => ⟨trivial, fun _ _ => trivial⟩⟩⟩⟩
    · exact Option.some.inj ht ▸ rfl
    · rw [heps]
      exact List.nodup_singleton _
    · exact Option.some.inj ht ▸ fun _ _ => rfl
  exact ⟨_, hs, rfl, (files_returned stdio (keyboardSession.take 4) _ hs hreturns).2.2⟩

end GadgetFiles

end UsbProxy
