import UsbProxy.GadgetReceive
import UsbProxy.Library.Blocks

/-!
# `HostProxy_GadgetFS::send_data` and `send_wait_complete`

An IN endpoint has one `aiocb` and sends a packet by an asynchronous write of a copy.  `send_data` makes
the copy and submits the write; `send_wait_complete` looks whether it has completed, and then frees the
copy.  Here are the calls, each with what it does to its endpoint and that it leaves the others alone;
`UsbProxy.GadgetWriters` runs them.

Until the endpoints are closed from outside an endpoint is used by its writer's thread and by the kernel,
which may complete the write; a call comes in one piece with the completion that happens in it.

The copies are blocks of a heap; a request in progress holds the block it was submitted with.  What goes
wrong with memory is kept in `faults`, and a copy whose pointer is overwritten in `lost`.
-/

namespace UsbProxy

namespace GadgetSend

open Blocks
open GadgetReceive (ESHUTDOWN)

/-- How a write completes: with the count that `aio_return` reports, or with an error number. -/
inductive Completion
  | wrote (rc : ℕ)
  | failed (errno : ℕ)
  deriving DecidableEq, Repr

/-- What `aio_error` looks at. -/
inductive Request
  | idle
  | inProgress (block : ℕ)
  | completed (r : Completion)
  deriving DecidableEq, Repr

/-- The block behind `aio_buf`, of `aio_nbytes` bytes, and the state of the write. -/
structure Aiocb where
  buf : Option ℕ
  request : Request
  deriving DecidableEq, Repr

inductive Fault
  /-- `aio_write` with an `aiocb` whose write is in progress. -/
  | resubmitted
  /-- `closeEP` frees the buffer of a write in progress. -/
  | closedInProgress
  | doubleFree
  /-- The kernel reads a buffer that is no longer there. -/
  | readFreed
  deriving DecidableEq, Repr

structure Host where
  /-- `p_epin_async`, by endpoint number. -/
  slots : Byte → Option Aiocb
  /-- `p_epin_active`. -/
  active : Byte → Bool
  heap : Store (List Byte)
  lost : List ℕ
  /-- The buffers of the writes that completed on an endpoint, with the counts. -/
  transfers : Byte → List (List Byte × ℕ)
  faults : List Fault

/-- What `aio_write` returns. -/
inductive Submission
  | accepted
  | refused (errno : ℕ)
  deriving DecidableEq, Repr

/-- What the system answers `send_wait_complete`. -/
structure Wait where
  timeout : ℤ
  /-- What the write completes with during `aio_suspend`. -/
  during : Option Completion
  /-- `aio_suspend` returns an error. -/
  suspendFails : Bool
  /-- `aio_return` returns -1. -/
  returnFails : Bool
  deriving DecidableEq, Repr

namespace Host

def put (h : Host) (n : Byte) (slot : Option Aiocb) : Host :=
  { h with slots := Function.update h.slots n slot }

def setActive (h : Host) (n : Byte) (b : Bool) : Host :=
  { h with active := Function.update h.active n b }

def fault (h : Host) (f : Fault) : Host := { h with faults := h.faults ++ [f] }

def free (h : Host) : Option ℕ → Host
  | none => h
  | some b =>
    let h := if h.heap.contents b = none then h.fault .doubleFree else h
    { h with heap := h.heap.free b }

/-- `closeEP` of an IN endpoint.  A write in progress may be beyond `aio_cancel`. -/
def closeEP (h : Host) (n : Byte) : Host :=
  match h.slots n with
  | none => h
  | some aio =>
    let h := h.setActive n false
    let h := match aio.request with
      | .inProgress _ => h.fault .closedInProgress
      | _ => h
    (h.put n none).free aio.buf

/-- `send_data` on an endpoint number. -/
def sendNumber (h : Host) (n : Byte) (dataptr : List Byte) (rc : Submission) : Host :=
  match h.slots n with
  | none => h
  | some aio =>
    let h := match aio.request with
      | .inProgress _ => h.fault .resubmitted
      | _ => h
    let block := h.heap.next
    let h := { h with heap := h.heap.malloc dataptr, lost := h.lost ++ aio.buf.toList }
    match rc with
    | .accepted => (h.put n (some ⟨some block, .inProgress block⟩)).setActive n true
    | .refused errno =>
      let h := h.put n (some ⟨some block, .idle⟩)
      if errno = ESHUTDOWN then h.closeEP n else h

/-- `send_data`; what it does on endpoint 0 is the data stage of the control endpoint. -/
def sendData (h : Host) (endpoint : Byte) (dataptr : List Byte) (rc : Submission) : Host :=
  if endpoint = 0 ∨ endpoint &&& 0x80 = 0 then h else h.sendNumber (endpoint &&& 0x0f) dataptr rc

/-- The kernel completes the write of an endpoint that is in progress. -/
def complete (h : Host) (n : Byte) (r : Completion) : Option Host :=
  match h.slots n with
  | some ⟨buf, .inProgress block⟩ =>
    let h := h.put n (some ⟨buf, .completed r⟩)
    match r with
    | .failed _ => some h
    | .wrote rc =>
      match h.heap.contents block with
      | none => some (h.fault .readFreed)
      | some data =>
        some { h with transfers := Function.update h.transfers n (h.transfers n ++ [(data, rc)]) }
  | _ => none

/-- `send_wait_complete` from its last `aio_error` on. -/
def collect (h : Host) (n : Byte) (aio : Aiocb) (c : Wait) : Host × Bool :=
  match aio.request with
  | .inProgress _ => (h, false)
  | .completed (.failed errno) =>
    let h := (h.free aio.buf).put n (some { aio with buf := none })
    let h := if errno = ESHUTDOWN then h.closeEP n else h
    (h.setActive n false, true)
  | .completed (.wrote _) | .idle =>
    let h := (h.free aio.buf).put n (some { aio with buf := none })
    if c.returnFails then (h, false) else (h.setActive n false, true)

/-- `send_wait_complete` on an endpoint number. -/
def waitNumber (h : Host) (n : Byte) (c : Wait) : Host × Bool :=
  match h.slots n with
  | none => (h, false)
  | some aio =>
    if !h.active n then (h, true)
    else
      match aio.request with
      | .inProgress _ =>
        if c.timeout = 0 then (h, false)
        else
          -- The write may complete while the call waits.
          let h := (c.during.bind (h.complete n)).getD h
          if c.suspendFails then (h, false)
          else
            match h.slots n with
            | none => (h, false)
            | some aio => h.collect n aio c
      | _ => h.collect n aio c

def sendWaitComplete (h : Host) (endpoint : Byte) (c : Wait) : Host × Bool :=
  if endpoint = 0 then (h, true)
  else if endpoint &&& 0x80 = 0 then (h, false)
  else h.waitNumber (endpoint &&& 0x0f) c

def opened (eps : List Byte) : Host where
  slots n := if n ∈ eps then some ⟨none, .idle⟩ else none
  active _ := false
  heap := .empty
  lost := []
  transfers _ := []
  faults := []

/-- The pointer to the copy of an endpoint. -/
def owner (h : Host) (n : Byte) : Option ℕ := (h.slots n).bind Aiocb.buf

/-- The write of an endpoint that is in progress. -/
def progress (h : Host) (n : Byte) : Option ℕ :=
  match h.slots n with
  | some ⟨_, .inProgress block⟩ => some block
  | _ => none

/-- The endpoint is open and its last write has not failed. -/
def Healthy (h : Host) (n : Byte) : Prop :=
  ∃ aio, h.slots n = some aio ∧ ∀ errno, aio.request ≠ .completed (.failed errno)

/-- The buffers of an endpoint the kernel has written or is about to. -/
def taken (h : Host) (n : Byte) : List (List Byte) :=
  (h.transfers n).map Prod.fst ++ ((h.progress n).bind h.heap.contents).toList

end Host

/-! ## What one call does -/

namespace Host

/-- Every live block is behind the pointer of one endpoint or lost. -/
abbrev Balanced (h : Host) : Prop := Ledger h.heap h.owner h.lost

/-- Nothing but endpoint `n` and its blocks changes, and the memory stays in order. -/
structure Within (n : Byte) (h t : Host) : Prop where
  slots : ∀ m, m ≠ n → t.slots m = h.slots m
  active : ∀ m, m ≠ n → t.active m = h.active m
  transfers : ∀ m, m ≠ n → t.transfers m = h.transfers m
  contents : ∀ m, m ≠ n → ∀ b, h.owner m = some b → t.heap.contents b = h.heap.contents b
  balanced : t.Balanced
  faults : t.faults = h.faults

section Calls

variable {h t u : Host} {n m : Byte} {aio : Aiocb} {slot : Option Aiocb} {c : Wait}

theorem Within.refl (hb : h.Balanced) : Within n h h :=
  ⟨fun _ _ => rfl, fun _ _ => rfl, fun _ _ => rfl, fun _ _ _ _ => rfl, hb, rfl⟩

theorem Within.owner_eq (w : Within n h t) (hm : m ≠ n) : t.owner m = h.owner m :=
  congrArg (Option.bind · Aiocb.buf) (w.slots m hm)

theorem Within.trans (w : Within n h t) (w' : Within n t u) : Within n h u where
  slots m hm := (w'.slots m hm).trans (w.slots m hm)
  active m hm := (w'.active m hm).trans (w.active m hm)
  transfers m hm := (w'.transfers m hm).trans (w.transfers m hm)
  contents m hm b hb :=
    (w'.contents m hm b ((w.owner_eq hm).trans hb)).trans (w.contents m hm b hb)
  balanced := w'.balanced
  faults := w'.faults.trans w.faults

@[simp] theorem slots_put_self : (h.put n slot).slots n = slot := Function.update_self ..

theorem slots_put_of_ne (hm : m ≠ n) : (h.put n slot).slots m = h.slots m :=
  Function.update_of_ne hm ..

theorem owner_put : (h.put n slot).owner = Function.update h.owner n (slot.bind Aiocb.buf) := by
  funext m
  by_cases hm : m = n
  · subst hm
    rw [Function.update_self]
    exact congrArg (Option.bind · Aiocb.buf) slots_put_self
  · rw [Function.update_of_ne hm]
    exact congrArg (Option.bind · Aiocb.buf) (slots_put_of_ne hm)

theorem owner_of_slot (hslot : h.slots n = some aio) : h.owner n = aio.buf :=
  congrArg (Option.bind · Aiocb.buf) hslot

theorem within_setActive (hb : h.Balanced) (b : Bool) : Within n h (h.setActive n b) :=
  ⟨fun _ _ => rfl, fun _ hm => Function.update_of_ne hm .., fun _ _ => rfl, fun _ _ _ _ => rfl, hb, rfl⟩

theorem within_put (hb : h.Balanced) (hslot : slot.bind Aiocb.buf = h.owner n) :
    Within n h (h.put n slot) := by
  refine ⟨fun m => slots_put_of_ne, fun _ _ => rfl, fun _ _ => rfl, fun _ _ _ _ => rfl, ?_, rfl⟩
  show Ledger h.heap (h.put n slot).owner h.lost
  rw [owner_put, hslot, Function.update_eq_self]
  exact hb

theorem free_some_of_live {b : ℕ} (hlive : h.heap.Live b) :
    h.free (some b) = { h with heap := h.heap.free b } := by
  unfold free
  dsimp only
  rw [if_neg hlive]

theorem within_release (hb : h.Balanced) (hslot : h.slots n = some aio)
    (hnone : slot.bind Aiocb.buf = none) : Within n h ((h.free aio.buf).put n slot) := by
  have howner := owner_of_slot hslot
  cases hbuf : aio.buf with
  | none =>
    rw [hbuf] at howner
    exact within_put hb (hnone.trans howner.symm)
  | some b =>
    rw [hbuf] at howner
    rw [free_some_of_live (hb.live howner)]
    refine ⟨fun m => slots_put_of_ne, fun _ _ => rfl, fun _ _ => rfl, fun m hm c hc => ?_, ?_, rfl⟩
    · exact Store.contents_free_of_ne fun hcb => hm (hb.inj m n b (hcb ▸ hc) howner)
    · show Ledger (h.heap.free b) (({ h with heap := h.heap.free b } : Host).put n slot).owner h.lost
      rw [owner_put, hnone]
      exact hb.free howner

theorem put_free (buf : Option ℕ) : (h.put n slot).free buf = (h.free buf).put n slot := by
  cases buf with
  | none => rfl
  | some b =>
    unfold free put
    dsimp only
    split_ifs <;> rfl

theorem free_fields (h : Host) (buf : Option ℕ) : (h.free buf).slots = h.slots ∧
    (h.free buf).active = h.active ∧ (h.free buf).transfers = h.transfers ∧
      (h.free buf).lost = h.lost := by
  cases buf with
  | none => exact ⟨rfl, rfl, rfl, rfl⟩
  | some b =>
    unfold free
    dsimp only
    split_ifs <;> exact ⟨rfl, rfl, rfl, rfl⟩

/-! ### The write in progress -/

theorem progress_of_slot {block : ℕ} (h' : h.progress n = some block) :
    ∃ buf, h.slots n = some ⟨buf, .inProgress block⟩ := by
  unfold progress at h'
  split at h'
  next buf b hslot =>
    obtain rfl := Option.some.inj h'
    exact ⟨buf, hslot⟩
  next => cases h'

theorem progress_eq_some {buf : Option ℕ} {block : ℕ}
    (hslot : h.slots n = some ⟨buf, .inProgress block⟩) : h.progress n = some block := by
  unfold progress
  rw [hslot]

theorem progress_of_closed (hslot : h.slots n = none) : h.progress n = none := by
  unfold progress
  rw [hslot]

theorem owner_of_closed (hslot : h.slots n = none) : h.owner n = none := by
  unfold owner
  rw [hslot]
  rfl

theorem progress_eq_none_iff :
    h.progress n = none ↔ ∀ aio b, h.slots n = some aio → aio.request ≠ .inProgress b := by
  constructor
  · rintro h' ⟨buf, request⟩ b hslot rfl
    unfold progress at h'
    rw [hslot] at h'
    cases h'
  · intro h'
    cases hp : h.progress n with
    | none => rfl
    | some b =>
      obtain ⟨buf, hslot⟩ := progress_of_slot hp
      exact absurd rfl (h' _ b hslot)

theorem taken_of_progress_none (hp : h.progress n = none) :
    h.taken n = (h.transfers n).map Prod.fst := by
  unfold taken
  rw [hp]
  exact List.append_nil _

theorem closeEP_spec (hb : h.Balanced) (hp : h.progress n = none) :
    Within n h (h.closeEP n) ∧ (h.closeEP n).slots n = none ∧
      (h.closeEP n).transfers = h.transfers ∧ (h.closeEP n).lost = h.lost := by
  unfold closeEP
  cases hslot : h.slots n with
  | none => exact ⟨.refl hb, hslot, rfl, rfl⟩
  | some aio =>
    have hsame : (match aio.request with
        | .inProgress _ => (h.setActive n false).fault .closedInProgress
        | _ => h.setActive n false) = h.setActive n false := by
      cases hreq : aio.request with
      | inProgress b => exact absurd hreq (progress_eq_none_iff.1 hp aio b hslot)
      | idle => rfl
      | completed r => rfl
    dsimp only
    rw [hsame, put_free]
    have hactive := within_setActive (n := n) hb false
    obtain ⟨-, -, htransfers, hlost⟩ := free_fields (h.setActive n false) aio.buf
    exact ⟨hactive.trans (within_release hactive.balanced hslot rfl), slots_put_self, htransfers,
      hlost⟩

/-! ### Sending -/

theorem within_malloc (hb : h.Balanced) (dataptr : List Byte) (hslot : h.slots n = some aio)
    (request : Request) :
    Within n h (({ h with heap := h.heap.malloc dataptr, lost := h.lost ++ aio.buf.toList } : Host).put
      n (some ⟨some h.heap.next, request⟩)) := by
  refine ⟨fun m => slots_put_of_ne, fun _ _ => rfl, fun _ _ => rfl, fun m _ b hb' => ?_, ?_, rfl⟩
  · exact Store.contents_malloc_of_ne (Nat.ne_of_lt (hb.lt_next (hb.live hb')))
  · rw [← owner_of_slot hslot]
    show Ledger _ (put _ n _).owner _
    rw [owner_put]
    exact hb.malloc n dataptr

theorem sendNumber_closed {dataptr : List Byte} {rc : Submission} (hslot : h.slots n = none) :
    h.sendNumber n dataptr rc = h := by
  unfold sendNumber
  rw [hslot]

theorem sendNumber_open {dataptr : List Byte} {rc : Submission} (hslot : h.slots n = some aio)
    (hp : h.progress n = none) : h.sendNumber n dataptr rc =
      let block := h.heap.next
      let h : Host := { h with heap := h.heap.malloc dataptr, lost := h.lost ++ aio.buf.toList }
      match rc with
      | .accepted => (h.put n (some ⟨some block, .inProgress block⟩)).setActive n true
      | .refused errno =>
        let h := h.put n (some ⟨some block, .idle⟩)
        if errno = ESHUTDOWN then h.closeEP n else h := by
  unfold sendNumber
  rw [hslot]
  obtain ⟨buf, request⟩ := aio
  cases request with
  | inProgress b => exact absurd rfl (progress_eq_none_iff.1 hp _ b hslot)
  | idle => rfl
  | completed r => rfl

/-- An accepted packet is in progress, behind everything taken before. -/
theorem sendNumber_accepted (dataptr : List Byte) (hb : h.Balanced) (hslot : h.slots n = some aio)
    (hp : h.progress n = none) : Within n h (h.sendNumber n dataptr .accepted) ∧
      (h.sendNumber n dataptr .accepted).slots n =
        some ⟨some h.heap.next, .inProgress h.heap.next⟩ ∧
      (h.sendNumber n dataptr .accepted).active n = true ∧
      (h.sendNumber n dataptr .accepted).taken n = h.taken n ++ [dataptr] ∧
      (h.sendNumber n dataptr .accepted).lost = h.lost ++ (h.owner n).toList := by
  rw [sendNumber_open hslot hp, taken_of_progress_none hp, owner_of_slot hslot]
  dsimp only
  have hput := within_malloc hb dataptr hslot (.inProgress h.heap.next)
  refine ⟨hput.trans (within_setActive hput.balanced true), slots_put_self, Function.update_self ..,
    ?_, rfl⟩
  generalize hu : ({ h with heap := h.heap.malloc dataptr, lost := h.lost ++ aio.buf.toList } :
    Host) = u
  have hprogress : ((u.put n (some ⟨some h.heap.next, .inProgress h.heap.next⟩)).setActive n
      true).progress n = some h.heap.next := progress_eq_some slots_put_self
  unfold taken
  rw [hprogress, ← hu]
  show _ ++ ((h.heap.malloc dataptr).contents h.heap.next).toList = _
  rw [Store.contents_malloc_next]
  rfl

theorem sendNumber_refused (dataptr : List Byte) (errno : ℕ) (hb : h.Balanced)
    (hslot : h.slots n = some aio) (hp : h.progress n = none) :
    Within n h (h.sendNumber n dataptr (.refused errno)) ∧
      (h.sendNumber n dataptr (.refused errno)).progress n = none ∧
      (h.sendNumber n dataptr (.refused errno)).taken n = h.taken n ∧
      (errno = ESHUTDOWN → (h.sendNumber n dataptr (.refused errno)).slots n = none) ∧
      (h.sendNumber n dataptr (.refused errno)).lost = h.lost ++ (h.owner n).toList := by
  rw [sendNumber_open hslot hp, taken_of_progress_none hp, owner_of_slot hslot]
  dsimp only
  have hput := within_malloc hb dataptr hslot .idle
  generalize hu : (({ h with heap := h.heap.malloc dataptr, lost := h.lost ++ aio.buf.toList } :
    Host).put n (some ⟨some h.heap.next, .idle⟩)) = u at hput
  have hslotu : u.slots n = some ⟨some h.heap.next, .idle⟩ := by rw [← hu]; exact slots_put_self
  have htransfers : u.transfers = h.transfers := by rw [← hu]; rfl
  have hlost : u.lost = h.lost ++ aio.buf.toList := by rw [← hu]; rfl
  have hpnone : u.progress n = none := by
    unfold progress
    rw [hslotu]
  split_ifs with herrno
  · obtain ⟨hclose, hnone, htransfers', hlost'⟩ := closeEP_spec hput.balanced hpnone
    have hpnone' := progress_of_closed hnone
    refine ⟨hput.trans hclose, hpnone', ?_, fun _ => hnone, hlost'.trans hlost⟩
    rw [taken_of_progress_none hpnone', htransfers', htransfers]
  · refine ⟨hput, hpnone, ?_, fun h' => absurd h' herrno, hlost⟩
    rw [taken_of_progress_none hpnone, htransfers]

/-! ### Completing and waiting -/

/-- A write that completes reads the copy that is still behind the pointer. -/
theorem complete_spec {block : ℕ} (hb : h.Balanced)
    (hslot : h.slots n = some ⟨some block, .inProgress block⟩) (r : Completion) :
    ∃ t, h.complete n r = some t ∧ Within n h t ∧ t.slots n = some ⟨some block, .completed r⟩ ∧
      t.active = h.active ∧ t.lost = h.lost ∧ (t.taken n).Sublist (h.taken n) ∧
      ((∃ rc, r = .wrote rc) → t.taken n = h.taken n) := by
  obtain ⟨data, hdata⟩ := Option.ne_none_iff_exists'.1 (hb.live (owner_of_slot hslot))
  have htaken : h.taken n = (h.transfers n).map Prod.fst ++ [data] := by
    unfold taken
    rw [progress_eq_some hslot, Option.bind_some, hdata]
    rfl
  have hput : Within n h (h.put n (some ⟨some block, .completed r⟩)) :=
    within_put hb (owner_of_slot hslot).symm
  have hidle : ∀ t : Host, t.slots n = some ⟨some block, .completed r⟩ →
      t.taken n = (t.transfers n).map Prod.fst := by
    intro t ht
    apply taken_of_progress_none
    unfold progress
    rw [ht]
  unfold complete
  rw [hslot]
  cases r with
  | failed errno =>
    refine ⟨_, rfl, hput, slots_put_self, rfl, rfl, ?_, ?_⟩
    · rw [hidle _ slots_put_self, htaken]
      exact List.sublist_append_left _ _
    · rintro ⟨rc, hrc⟩
      cases hrc
  | wrote rc =>
    have hcontents : (h.put n (some ⟨some block, .completed (.wrote rc)⟩)).heap.contents block =
        some data := hdata
    dsimp only
    rw [hcontents]
    have heq : ∀ t : Host, t.slots n = some ⟨some block, .completed (.wrote rc)⟩ →
        t.transfers n = h.transfers n ++ [(data, rc)] → t.taken n = h.taken n := by
      intro t ht htransfers
      rw [hidle t ht, htaken, htransfers, List.map_append]
      rfl
    have hthis := heq { h.put n (some ⟨some block, .completed (.wrote rc)⟩) with
      transfers := Function.update h.transfers n (h.transfers n ++ [(data, rc)]) } slots_put_self
      (Function.update_self ..)
    refine ⟨_, rfl, ?_, slots_put_self, rfl, rfl, ?_, fun _ => hthis⟩
    · exact ⟨hput.slots, hput.active, fun m hm => Function.update_of_ne hm .., hput.contents,
        hput.balanced, hput.faults⟩
    · exact hthis ▸ List.Sublist.refl _

/-- What a call of `send_wait_complete` leaves, and what its result says. -/
structure Waited (n : Byte) (c : Wait) (h t : Host) (done : Bool) : Prop where
  within : Within n h t
  taken : (t.taken n).Sublist (h.taken n)
  exact : (∀ errno, c.during ≠ some (.failed errno)) → t.taken n = h.taken n
  lost : t.lost = h.lost
  busy : t.progress n ≠ none → t = h ∧ done = false
  idle : h.active n = false → t = h
  freed : done = true → h.active n = true → t.owner n = none
  waiting : done = false → t.active n = h.active n
  healthy : (∀ errno, c.during ≠ some (.failed errno)) → h.Healthy n → t.Healthy n

/-- A host with no write in progress, a null pointer and the same transfers as one with no write in
progress. -/
structure Released (n : Byte) (h t : Host) : Prop where
  within : Within n h t
  progress : t.progress n = none
  owner : t.owner n = none
  transfers : t.transfers = h.transfers
  lost : t.lost = h.lost

theorem Released.waited {done : Bool} (hr : Released n h t) (hp : h.progress n = none)
    (hactive : h.active n = true) (hwait : done = false → t.active n = h.active n)
    (hhealthy : h.Healthy n → t.Healthy n) : Waited n c h t done := by
  have htaken : t.taken n = h.taken n := by
    rw [taken_of_progress_none hr.progress, taken_of_progress_none hp, hr.transfers]
  refine ⟨hr.within, htaken ▸ List.Sublist.refl _, fun _ => htaken, hr.lost,
    fun hne => absurd hr.progress hne, fun hf => ?_, fun _ _ => hr.owner, hwait, fun _ => hhealthy⟩
  rw [hactive] at hf
  cases hf

theorem Released.done (hr : Released n h t) (hp : h.progress n = none) (hactive : h.active n = true)
    (hhealthy : h.Healthy n → t.Healthy n) : Waited n c h (t.setActive n false) true := by
  refine Released.waited ⟨hr.within.trans (within_setActive hr.within.balanced false), hr.progress,
    hr.owner, hr.transfers, hr.lost⟩ hp hactive (fun hne => ?_) hhealthy
  cases hne

theorem released_free (hb : h.Balanced) (hslot : h.slots n = some aio) (hp : h.progress n = none) :
    Released n h ((h.free aio.buf).put n (some { aio with buf := none })) := by
  obtain ⟨-, -, htransfers, hlost⟩ := free_fields h aio.buf
  refine ⟨within_release hb hslot rfl, ?_, owner_of_slot slots_put_self, htransfers, hlost⟩
  refine progress_eq_none_iff.2 fun aio' b hslot' hreq => ?_
  rw [slots_put_self] at hslot'
  obtain rfl := Option.some.inj hslot'
  exact progress_eq_none_iff.1 hp aio b hslot hreq

theorem Released.closeEP (hr : Released n h t) : Released n h (t.closeEP n) := by
  obtain ⟨hclose, hnone, htransfers, hlost⟩ := closeEP_spec hr.within.balanced hr.progress
  exact ⟨hr.within.trans hclose, progress_of_closed hnone, owner_of_closed hnone,
    htransfers.trans hr.transfers, hlost.trans hr.lost⟩

theorem collect_spec (hb : h.Balanced) (hslot : h.slots n = some aio) (hp : h.progress n = none)
    (hactive : h.active n = true) : Waited n c h (h.collect n aio c).1 (h.collect n aio c).2 := by
  have hr := released_free hb hslot hp
  have hsame : ((h.free aio.buf).put n (some { aio with buf := none })).active n = h.active n :=
    congrFun (free_fields h aio.buf).2.1 n
  have hhealthy : h.Healthy n →
      ((h.free aio.buf).put n (some { aio with buf := none })).Healthy n := by
    rintro ⟨aio', hslot', hne⟩
    obtain rfl := Option.some.inj (hslot.symm.trans hslot')
    exact ⟨_, slots_put_self, hne⟩
  obtain ⟨buf, request⟩ := aio
  unfold collect
  cases request with
  | inProgress b => exact absurd rfl (progress_eq_none_iff.1 hp _ b hslot)
  | idle =>
    dsimp only
    split_ifs
    · exact hr.waited hp hactive (fun _ => hsame) hhealthy
    · exact hr.done hp hactive hhealthy
  | completed r =>
    cases r with
    | wrote rc =>
      dsimp only
      split_ifs
      · exact hr.waited hp hactive (fun _ => hsame) hhealthy
      · exact hr.done hp hactive hhealthy
    | failed errno =>
      have hsick : ∀ t : Host, h.Healthy n → t.Healthy n := by
        rintro t ⟨aio', hslot', hne⟩
        obtain rfl := Option.some.inj (hslot.symm.trans hslot')
        exact absurd rfl (hne errno)
      dsimp only
      split_ifs
      · exact hr.closeEP.done hp hactive (hsick _)
      · exact hr.done hp hactive (hsick _)

theorem Waited.trans {done : Bool} (hw : Waited n c h t false) (hp : t.progress n = none)
    (hc : Waited n c t u done) : Waited n c h u done where
  within := hw.within.trans hc.within
  taken := hc.taken.trans hw.taken
  exact hd := (hc.exact hd).trans (hw.exact hd)
  lost := hc.lost.trans hw.lost
  busy hne := by
    rw [(hc.busy hne).1] at hne
    exact absurd hp hne
  idle ha := (hc.idle ((hw.waiting rfl).trans ha)).trans (hw.idle ha)
  freed hd ha := hc.freed hd ((hw.waiting rfl).trans ha)
  waiting hd := (hc.waiting hd).trans (hw.waiting rfl)
  healthy hd hh := hc.healthy hd (hw.healthy hd hh)

theorem waited_same {done : Bool} (hb : h.Balanced)
    (hdone : done = true → h.progress n = none ∧ h.active n = false) : Waited n c h h done := by
  refine ⟨.refl hb, List.Sublist.refl _, fun _ => rfl, rfl, fun hne => ⟨rfl, ?_⟩, fun _ => rfl,
    fun hd ha => ?_, fun _ => rfl, fun _ hh => hh⟩
  · cases done with
    | false => rfl
    | true => exact absurd (hdone rfl).1 hne
  · rw [(hdone hd).2] at ha
    cases ha

/-- What `aio_suspend` comes back to: the write is still in progress, or it has completed. -/
theorem waited_during {b : ℕ} (hb : h.Balanced) (hslot : h.slots n = some ⟨some b, .inProgress b⟩)
    (hactive : h.active n = true) (c : Wait) : Waited n c h ((c.during.bind (h.complete n)).getD h) false ∧
      ((c.during.bind (h.complete n)).getD h = h ∨
        ((c.during.bind (h.complete n)).getD h).progress n = none ∧
          ∃ aio, ((c.during.bind (h.complete n)).getD h).slots n = some aio) := by
  cases hd : c.during with
  | none => exact ⟨waited_same hb (fun hne => nomatch hne), .inl rfl⟩
  | some r =>
    obtain ⟨t, ht, hw, hslott, hat, hlt, htaken, hexact⟩ := complete_spec hb hslot r
    have hpt : t.progress n = none := by
      refine progress_eq_none_iff.2 fun aio b' hslot' hreq => ?_
      rw [hslott] at hslot'
      obtain rfl := Option.some.inj hslot'
      cases hreq
    rw [Option.bind_some, ht, Option.getD_some]
    refine ⟨⟨hw, htaken, fun hne => ?_, hlt, fun hne => absurd hpt hne, fun hf => ?_,
      (fun hne => nomatch hne), fun _ => congrFun hat n, fun hne _ => ⟨_, hslott, fun errno herr => ?_⟩⟩,
      .inr ⟨hpt, _, hslott⟩⟩
    · cases r with
      | wrote rc => exact hexact ⟨rc, rfl⟩
      | failed errno => exact absurd hd (hne errno)
    · rw [hactive] at hf
      cases hf
    · obtain rfl : r = .failed errno := Request.completed.inj herr
      exact hne errno hd

/-- On an endpoint whose write in progress, if there is one, has its flag set and its copy behind the
pointer. -/
theorem waitNumber_spec (hb : h.Balanced) (howned : ∀ buf b,
      h.slots n = some ⟨buf, .inProgress b⟩ → buf = some b ∧ h.active n = true) (c : Wait) :
    Waited n c h (h.waitNumber n c).1 (h.waitNumber n c).2 := by
  unfold waitNumber
  cases hslot : h.slots n with
  | none => exact waited_same hb fun hne => nomatch hne
  | some aio =>
    obtain ⟨buf, request⟩ := aio
    dsimp only
    cases hactive : h.active n with
    | false =>
      refine waited_same hb fun _ => ⟨progress_eq_none_iff.2 fun aio b hslot' hreq => ?_, hactive⟩
      obtain ⟨buf', request'⟩ := aio
      obtain rfl : request' = .inProgress b := hreq
      rw [(howned buf' b hslot').2] at hactive
      cases hactive
    | true =>
      rw [if_neg (by decide)]
      have hpn : ∀ r : Request, (∀ b, r ≠ .inProgress b) → request = r → h.progress n = none := by
        rintro r hr rfl
        refine progress_eq_none_iff.2 fun aio b hslot' hreq => ?_
        rw [hslot] at hslot'
        obtain rfl := Option.some.inj hslot'
        exact hr b hreq
      cases request with
      | idle => exact collect_spec hb hslot (hpn .idle (fun _ => Request.noConfusion) rfl) hactive
      | completed r =>
        exact collect_spec hb hslot (hpn (.completed r) (fun _ => Request.noConfusion) rfl) hactive
      | inProgress b =>
        obtain ⟨rfl, -⟩ := howned buf b hslot
        dsimp only
        obtain ⟨hwaited, heq | ⟨hpt, aio, hslott⟩⟩ := waited_during hb hslot hactive c
        · rw [heq, hslot]
          split_ifs
          all_goals exact waited_same hb fun hne => nomatch hne
        · split_ifs
          · exact waited_same hb fun hne => nomatch hne
          · exact hwaited
          · rw [hslott]
            exact hwaited.trans hpt (collect_spec hwaited.within.balanced hslott hpt
              ((hwaited.waiting rfl).trans hactive))

end Calls

end Host

end GadgetSend

end UsbProxy
