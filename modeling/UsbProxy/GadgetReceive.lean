import UsbProxy.Library.Runs
import UsbProxy.Packet

/-!
# `HostProxy_GadgetFS::receive_data`

An open OUT endpoint has an asynchronous read in its slot.  A call looks whether the read has
completed, takes its bytes and submits the next one, or closes the endpoint after a shutdown.
Between calls the kernel completes reads.  `rearmed_iff` says along which runs every call leaves
each endpoint closed or with a read that nobody has seen complete.

Reads are numbered as they are submitted; `seen` keeps the numbers of those a call saw complete.
-/

namespace UsbProxy

namespace GadgetReceive

def ESHUTDOWN : ℕ := 108

/-- How a read completes: with its bytes, `aio_error` being 0, or with an error number, which is
neither 0 nor `EINPROGRESS`. -/
inductive Completion
  | bytes (data : List Byte)
  | failed (errno : ℕ)
  deriving DecidableEq, Repr

/-- An `aiocb` whose read was submitted; no completion is `EINPROGRESS`. -/
structure Aiocb where
  serial : ℕ
  completion : Option Completion
  deriving DecidableEq, Repr

structure Host where
  /-- `p_epout_async`, by endpoint number. -/
  slots : Byte → Option Aiocb
  submitted : ℕ
  seen : List ℕ

/-- The arguments of a call and what the system answers it. -/
structure Call where
  endpoint : Byte
  timeout : ℤ
  /-- What the read completes with during `aio_suspend`. -/
  during : Option Completion
  /-- `aio_suspend` returns an error: the time is over or a signal came. -/
  suspendFails : Bool
  /-- `aio_return` returns -1. -/
  returnFails : Bool
  /-- `aio_read` succeeds. -/
  resubmits : Bool

namespace Host

def put (h : Host) (n : Byte) (slot : Option Aiocb) : Host :=
  { h with slots := fun m => if m = n then slot else h.slots m }

/-- A call has seen the completion. -/
def see (h : Host) (aio : Aiocb) : Host := { h with seen := h.seen ++ [aio.serial] }

/-- `aio_read(aio)`. -/
def resubmit (h : Host) (n : Byte) : Host :=
  { h.put n (some ⟨h.submitted, none⟩) with submitted := h.submitted + 1 }

/-- `closeEP`: the slot is null and the `aiocb` deleted. -/
def closeEP (h : Host) (n : Byte) : Host := h.put n none

/-- The call from its last `aio_error` on, with what it puts into `*dataptr` and `*length`. -/
def collect (h : Host) (n : Byte) (aio : Aiocb) (c : Call) : Host × Option (List Byte) :=
  match aio.completion with
  | none => (h, none)
  | some (.failed errno) => (if errno = ESHUTDOWN then (h.see aio).closeEP n else h.see aio, none)
  | some (.bytes data) =>
    if c.returnFails then (h.see aio, none)
    else if c.resubmits then ((h.see aio).resubmit n, some data)
    else ((h.see aio).put n none, some data)

/-- An endpoint address with reserved bits set, by which `closeEP` would index past the array, is
taken by its number. -/
def receiveData (h : Host) (c : Call) : Host × Option (List Byte) :=
  if c.endpoint = 0 ∨ c.endpoint &&& 0x80 ≠ 0 then (h, none)
  else
    let n := c.endpoint &&& 0x0f
    match h.slots n with
    | none => (h, none)
    | some aio =>
      if aio.completion.isNone && c.timeout != 0 then
        -- The read may complete while the call waits.
        let aio := { aio with completion := c.during }
        let h := h.put n (some aio)
        if c.suspendFails then (h, none) else h.collect n aio c
      else h.collect n aio c

def opened (eps : List Byte) : Host where
  slots n := if n ∈ eps then some ⟨n.toNat, none⟩ else none
  submitted := UInt8.size
  seen := []

/-- Every endpoint is closed or has a read outstanding that no call saw complete, and no read was
seen complete twice. -/
def Rearmed (h : Host) : Prop :=
  (∀ n aio, h.slots n = some aio → aio.serial ∉ h.seen) ∧ h.seen.Nodup

end Host

/-- A call, or the completion of the read of an endpoint. -/
inductive Event
  | call (c : Call)
  | complete (n : Byte) (r : Completion)

/-- Only a read in progress completes. -/
def step (h : Host) : Event → Option Host
  | .call c => some (h.receiveData c).1
  | .complete n r =>
    (h.slots n).bind fun aio =>
      if aio.completion.isNone then some (h.put n (some { aio with completion := some r })) else none

/-- The completion of a read that a call comes to see. -/
def Call.sees (c : Call) (aio : Aiocb) : Option Completion :=
  if aio.completion.isNone && c.timeout != 0 then if c.suspendFails then none else c.during
  else aio.completion

/-- A completion after which the call goes on: bytes that `aio_return` reports, or a shutdown. -/
def Call.Accepts (c : Call) : Completion → Prop
  | .bytes _ => c.returnFails = false
  | .failed errno => errno = ESHUTDOWN

/-- A call on an open OUT endpoint sees no error but a shutdown, and `aio_return` does not fail. -/
def Clean (h : Host) : Event → Prop
  | .call c => c.endpoint ≠ 0 → c.endpoint &&& 0x80 = 0 → ∀ aio,
      h.slots (c.endpoint &&& 0x0f) = some aio → ∀ r, c.sees aio = some r → c.Accepts r
  | .complete _ _ => True

/-! ## What a call does -/

section Call

variable {h : Host} {c : Call} {n m : Byte} {aio : Aiocb} {slot : Option Aiocb}

@[simp] theorem slots_put_self : (h.put n slot).slots n = slot := if_pos rfl

theorem slots_put_of_ne (hm : m ≠ n) : (h.put n slot).slots m = h.slots m := if_neg hm

/-- A call that does not see a completion: at most completions in slots change. -/
structure Quiet (h t : Host) : Prop where
  slots : ∀ m, (t.slots m).map Aiocb.serial = (h.slots m).map Aiocb.serial
  submitted : t.submitted = h.submitted
  seen : t.seen = h.seen

/-- How a call that sees the completion of read `k` leaves the slot. -/
inductive Left (h : Host) (c : Call) (n : Byte) (k : ℕ) (r : Completion) (t : Host) : Prop
  | closed (hr : c.Accepts r) (hslot : t.slots n = none) (hsubmitted : t.submitted = h.submitted)
  | rearmed (hr : c.Accepts r) (hslot : t.slots n = some ⟨h.submitted, none⟩)
      (hsubmitted : t.submitted = h.submitted + 1)
  | dead (hr : ¬ c.Accepts r) (hslot : (t.slots n).map Aiocb.serial = some k)
      (hsubmitted : t.submitted = h.submitted)

/-- A call that sees the completion of read `k` at endpoint `n`. -/
structure Collected (h : Host) (c : Call) (n : Byte) (k : ℕ) (r : Completion) (t : Host) : Prop where
  seen : t.seen = h.seen ++ [k]
  others : ∀ m, m ≠ n → t.slots m = h.slots m
  left : Left h c n k r t

theorem Quiet.refl (h : Host) : Quiet h h := ⟨fun _ => rfl, rfl, rfl⟩

theorem quiet_put (hslot : h.slots n = some aio) (r : Option Completion) :
    Quiet h (h.put n (some { aio with completion := r })) := by
  refine ⟨fun m => ?_, rfl, rfl⟩
  by_cases hm : m = n
  · rw [hm, slots_put_self, hslot]
    rfl
  · rw [slots_put_of_ne hm]

theorem collect_of_none (hr : aio.completion = none) : h.collect n aio c = (h, none) := by
  unfold Host.collect
  rw [hr]

theorem collect_spec {r : Completion} (hslot : h.slots n = some aio) (hr : aio.completion = some r) :
    Collected h c n aio.serial r (h.collect n aio c).1 := by
  have hsame : ((h.see aio).slots n).map Aiocb.serial = some aio.serial := congrArg _ hslot
  unfold Host.collect
  rw [hr]
  cases r with
  | failed errno =>
    dsimp only
    split_ifs with he
    · exact ⟨rfl, fun m => slots_put_of_ne, .closed he slots_put_self rfl⟩
    · exact ⟨rfl, fun m _ => rfl, .dead he hsame rfl⟩
  | bytes data =>
    dsimp only
    split_ifs with hret hres
    · exact ⟨rfl, fun m _ => rfl, .dead (by simp [Call.Accepts, hret]) hsame rfl⟩
    · exact ⟨rfl, fun m => slots_put_of_ne,
        .rearmed (by simpa [Call.Accepts] using hret) slots_put_self rfl⟩
    · exact ⟨rfl, fun m => slots_put_of_ne,
        .closed (by simpa [Call.Accepts] using hret) slots_put_self rfl⟩

theorem receiveData_idle (hidle : c.endpoint = 0 ∨ c.endpoint &&& 0x80 ≠ 0 ∨
    h.slots (c.endpoint &&& 0x0f) = none) : h.receiveData c = (h, none) := by
  unfold Host.receiveData
  by_cases hguard : c.endpoint = 0 ∨ c.endpoint &&& 0x80 ≠ 0
  · rw [if_pos hguard]
  · rw [not_or] at hguard
    rw [if_neg (not_or.2 hguard)]
    dsimp only
    rw [(hidle.resolve_left hguard.1).resolve_left hguard.2]

theorem receiveData_open (h0 : c.endpoint ≠ 0) (hout : c.endpoint &&& 0x80 = 0)
    (hslot : h.slots (c.endpoint &&& 0x0f) = some aio) :
    (c.sees aio = none ∧ Quiet h (h.receiveData c).1) ∨
      ∃ r, c.sees aio = some r ∧
        Collected h c (c.endpoint &&& 0x0f) aio.serial r (h.receiveData c).1 := by
  have hguard : ¬ (c.endpoint = 0 ∨ c.endpoint &&& 0x80 ≠ 0) := by
    rintro (h | h)
    · exact h0 h
    · exact h hout
  unfold Host.receiveData Call.sees
  rw [if_neg hguard]
  dsimp only
  rw [hslot]
  dsimp only
  split_ifs with hwait hfails
  · exact .inl ⟨rfl, quiet_put hslot c.during⟩
  · cases hd : c.during with
    | none =>
      refine .inl ⟨rfl, ?_⟩
      rw [collect_of_none rfl]
      exact quiet_put hslot none
    | some r =>
      obtain ⟨hseen, hothers, hleft⟩ := collect_spec (h := h.put (c.endpoint &&& 0x0f)
        (some { aio with completion := some r })) (c := c) slots_put_self rfl
      refine .inr ⟨r, rfl, hseen, fun m hm => (hothers m hm).trans (slots_put_of_ne hm), ?_⟩
      cases hleft with
      | closed hr hslot hsub => exact .closed hr hslot hsub
      | rearmed hr hslot hsub => exact .rearmed hr hslot hsub
      | dead hr hslot hsub => exact .dead hr hslot hsub
  · cases hr : aio.completion with
    | none =>
      refine .inl ⟨rfl, ?_⟩
      rw [collect_of_none hr]
      exact .refl h
    | some r => exact .inr ⟨r, rfl, collect_spec hslot hr⟩

theorem receiveData_bytes {data : List Byte} (h0 : c.endpoint ≠ 0) (hout : c.endpoint &&& 0x80 = 0)
    (hslot : h.slots (c.endpoint &&& 0x0f) = some aio) (hr : c.sees aio = some (.bytes data))
    (hacc : c.Accepts (.bytes data)) : (h.receiveData c).2 = some data := by
  have hcollect : ∀ (h : Host) (aio : Aiocb), aio.completion = some (.bytes data) →
      (h.collect (c.endpoint &&& 0x0f) aio c).2 = some data := by
    intro h aio hr
    unfold Host.collect
    rw [hr]
    dsimp only
    rw [if_neg (by simpa [Call.Accepts] using hacc)]
    split_ifs <;> rfl
  unfold Host.receiveData
  rw [if_neg (not_or.2 ⟨h0, not_not.2 hout⟩)]
  dsimp only
  rw [hslot]
  dsimp only
  unfold Call.sees at hr
  by_cases hwait : (aio.completion.isNone && c.timeout != 0) = true
  · rw [if_pos hwait] at hr ⊢
    by_cases hfails : c.suspendFails = true
    · rw [if_pos hfails] at hr
      cases hr
    · rw [if_neg hfails] at hr ⊢
      exact hcollect _ _ hr
  · rw [if_neg hwait] at hr ⊢
    exact hcollect _ _ hr

end Call

/-! ## Runs -/

/-- Reads are numbered in order, each in at most one slot, and rearmed. -/
structure Numbered (h : Host) : Prop where
  slot_lt : ∀ n aio, h.slots n = some aio → aio.serial < h.submitted
  slot_inj : ∀ m n aio aio', h.slots m = some aio → h.slots n = some aio' →
    aio.serial = aio'.serial → m = n
  seen_lt : ∀ k ∈ h.seen, k < h.submitted
  rearmed : h.Rearmed

theorem numbered_opened (eps : List Byte) : Numbered (.opened eps) := by
  have hslot : ∀ n aio, (Host.opened eps).slots n = some aio → aio.serial = n.toNat := by
    intro n aio h
    unfold Host.opened at h
    dsimp only at h
    split_ifs at h
    rw [← Option.some.inj h]
  refine ⟨fun n aio h => ?_, fun m n aio aio' h h' heq => ?_, by simp [Host.opened], ?_, List.nodup_nil⟩
  · rw [hslot n aio h]
    exact n.toNat_lt
  · rw [hslot m aio h, hslot n aio' h'] at heq
    exact UInt8.toNat_inj.1 heq
  · intro n aio _
    exact List.not_mem_nil

theorem Numbered.quiet {h t : Host} (hn : Numbered h) (hq : Quiet h t) : Numbered t := by
  have hslot : ∀ n aio, t.slots n = some aio → ∃ aio', h.slots n = some aio' ∧
      aio'.serial = aio.serial := by
    intro n aio hsome
    have := hq.slots n
    rw [hsome] at this
    obtain ⟨aio', hsome', heq⟩ := Option.map_eq_some_iff.1 this.symm
    exact ⟨aio', hsome', heq⟩
  refine ⟨fun n aio hsome => ?_, fun m n aio aio' hm hn' heq => ?_, ?_, fun n aio hsome => ?_, ?_⟩
  · obtain ⟨aio', hsome', heq⟩ := hslot n aio hsome
    rw [hq.submitted, ← heq]
    exact hn.slot_lt n aio' hsome'
  · obtain ⟨a, ha, hea⟩ := hslot m aio hm
    obtain ⟨b, hb, heb⟩ := hslot n aio' hn'
    exact hn.slot_inj m n a b ha hb (by rw [hea, heb, heq])
  · rw [hq.seen, hq.submitted]
    exact hn.seen_lt
  · obtain ⟨aio', hsome', heq⟩ := hslot n aio hsome
    rw [hq.seen, ← heq]
    exact hn.rearmed.1 n aio' hsome'
  · rw [hq.seen]
    exact hn.rearmed.2

/-- A read in a slot after a completion that is accepted was there before, in another slot, or is the one
just submitted. -/
theorem Collected.slots {h t : Host} {c : Call} {n : Byte} {k : ℕ} {r : Completion}
    (hc : Collected h c n k r t) (hr : c.Accepts r) :
    h.submitted ≤ t.submitted ∧ ∀ m a, t.slots m = some a →
      m ≠ n ∧ h.slots m = some a ∨ m = n ∧ a.serial = h.submitted ∧ h.submitted < t.submitted := by
  have hother : ∀ m a, m ≠ n → t.slots m = some a → m ≠ n ∧ h.slots m = some a := fun m a hm ha =>
    ⟨hm, by rw [← hc.others m hm, ha]⟩
  cases hc.left with
  | closed _ hnone hsub =>
    refine ⟨by omega, fun m a ha => .inl (hother m a ?_ ha)⟩
    rintro rfl
    rw [hnone] at ha
    cases ha
  | rearmed _ hnew hsub =>
    refine ⟨by omega, fun m a ha => ?_⟩
    by_cases hm : m = n
    · rw [hm, hnew, Option.some.injEq] at ha
      exact .inr ⟨hm, by rw [← ha], by omega⟩
    · exact .inl (hother m a hm ha)
  | dead hdead _ _ => exact absurd hr hdead

theorem Numbered.collected {h t : Host} {c : Call} {n : Byte} {aio : Aiocb} {r : Completion}
    (hn : Numbered h) (hslot : h.slots n = some aio) (hc : Collected h c n aio.serial r t)
    (hr : c.Accepts r) : Numbered t := by
  obtain ⟨hle, hslots⟩ := hc.slots hr
  have hlt := hn.slot_lt n aio hslot
  have hfresh := hn.rearmed.1 n aio hslot
  refine ⟨fun m a ha => ?_, fun m m' a a' ha ha' heq => ?_, fun k hk => ?_, fun m a ha => ?_, ?_⟩
  · rcases hslots m a ha with ⟨-, hold⟩ | ⟨-, hnew, hsub⟩
    · have := hn.slot_lt m a hold
      omega
    · omega
  · rcases hslots m a ha with ⟨-, hold⟩ | ⟨hm, hnew, -⟩ <;>
      rcases hslots m' a' ha' with ⟨-, hold'⟩ | ⟨hm', hnew', -⟩
    · exact hn.slot_inj m m' a a' hold hold' heq
    · have := hn.slot_lt m a hold
      omega
    · have := hn.slot_lt m' a' hold'
      omega
    · rw [hm, hm']
  · rw [hc.seen, List.mem_append, List.mem_singleton] at hk
    rcases hk with hk | rfl
    · have := hn.seen_lt k hk
      omega
    · omega
  · rw [hc.seen, List.mem_append, List.mem_singleton]
    rintro (hmem | hsame)
    · rcases hslots m a ha with ⟨-, hold⟩ | ⟨-, hnew, -⟩
      · exact hn.rearmed.1 m a hold hmem
      · have := hn.seen_lt _ hmem
        omega
    · rcases hslots m a ha with ⟨hm, hold⟩ | ⟨-, hnew, -⟩
      · exact hm (hn.slot_inj m n a aio hold hslot hsame)
      · omega
  · rw [hc.seen]
    refine List.nodup_append.2 ⟨hn.rearmed.2, by simp, fun k hk k' hk' heq => ?_⟩
    rw [List.mem_singleton] at hk'
    exact hfresh (by rw [← hk', ← heq]; exact hk)

/-- After a completion that is not accepted the endpoint looks open and has nothing outstanding. -/
theorem not_rearmed_of_collected {h t : Host} {c : Call} {n : Byte} {k : ℕ} {r : Completion}
    (hc : Collected h c n k r t) (hr : ¬ c.Accepts r) : ¬ t.Rearmed := by
  intro hrearmed
  cases hc.left with
  | closed hacc _ _ => exact hr hacc
  | rearmed hacc _ _ => exact hr hacc
  | dead _ hslot _ =>
    obtain ⟨aio, haio, rfl⟩ := Option.map_eq_some_iff.1 hslot
    apply hrearmed.1 n aio haio
    rw [hc.seen]
    exact List.mem_append_right _ (List.mem_singleton_self _)

/-- A call leaves the endpoints rearmed exactly when what it comes to see is clean, and then keeps
the numbers. -/
theorem receiveData_spec {h : Host} (c : Call) (hn : Numbered h) :
    ((h.receiveData c).1.Rearmed ↔ Clean h (.call c)) ∧
      (Clean h (.call c) → Numbered (h.receiveData c).1) := by
  by_cases hidle : c.endpoint = 0 ∨ c.endpoint &&& 0x80 ≠ 0 ∨ h.slots (c.endpoint &&& 0x0f) = none
  · have hclean : Clean h (.call c) := by
      intro h0 hout aio haio
      rcases hidle with hz | hin | hnone
      · exact absurd hz h0
      · exact absurd hout hin
      · rw [hnone] at haio
        cases haio
    rw [receiveData_idle hidle]
    exact ⟨iff_of_true hn.rearmed hclean, fun _ => hn⟩
  · rw [not_or, not_or, not_not] at hidle
    obtain ⟨h0, hout, hsome⟩ := hidle
    obtain ⟨aio, haio⟩ := Option.ne_none_iff_exists'.1 hsome
    rcases receiveData_open h0 hout haio with ⟨hnone, hq⟩ | ⟨r, hr, hc⟩
    · have hclean : Clean h (.call c) := by
        intro _ _ aio' haio' r hr
        rw [haio, Option.some.injEq] at haio'
        rw [← haio', hnone] at hr
        cases hr
      exact ⟨iff_of_true (hn.quiet hq).rearmed hclean, fun _ => hn.quiet hq⟩
    · have hclean : Clean h (.call c) ↔ c.Accepts r := by
        constructor
        · exact fun hclean => hclean h0 hout aio haio r hr
        · intro hacc _ _ aio' haio' r' hr'
          rw [haio, Option.some.injEq] at haio'
          rw [← haio', hr, Option.some.injEq] at hr'
          exact hr' ▸ hacc
      rw [hclean]
      refine ⟨⟨fun hrearmed => ?_, fun hacc => (hn.collected haio hc hacc).rearmed⟩,
        hn.collected haio hc⟩
      by_contra hacc
      exact not_rearmed_of_collected hc hacc hrearmed

theorem numbered_complete {h t : Host} {n : Byte} {r : Completion} (hn : Numbered h)
    (ht : step h (.complete n r) = some t) : Numbered t := by
  obtain ⟨aio, haio, ht⟩ := Option.bind_eq_some_iff.1 ht
  split_ifs at ht
  rw [← Option.some.inj ht]
  exact hn.quiet (quiet_put haio (some r))

/-- **Reads are consumed once.**  Along a run from endpoints just opened, every call leaves each
endpoint closed or with a read outstanding, and no completion is seen twice, exactly when no call
comes to see an error other than a shutdown or a failing `aio_return`. -/
theorem rearmed_iff (eps : List Byte) (events : List Event) :
    (∀ js t, js <+: events → Runs.run step (.opened eps) js = some t → t.Rearmed) ↔
      Runs.Along step Clean (.opened eps) events := by
  refine Runs.reached_forall_iff Numbered (fun h event t ht hclean hn => ?_) (fun h event hn => ?_)
    (numbered_opened eps) (numbered_opened eps).rearmed events
  · cases event with
    | call c => exact Option.some.inj ht ▸ (receiveData_spec c hn).2 hclean
    | complete n r => exact numbered_complete hn ht
  · cases event with
    | call c =>
      rw [← (receiveData_spec c hn).1]
      exact ⟨fun h => h _ rfl, fun h t ht => Option.some.inj ht ▸ h⟩
    | complete n r => exact iff_of_true (fun t ht => (numbered_complete hn ht).rearmed) trivial

/-- A call that waits for a read and has it submitted again. -/
def plainCall (endpoint : Byte) : Call where
  endpoint := endpoint
  timeout := 500
  during := none
  suspendFails := false
  returnFails := false
  resubmits := true

/-- The read of endpoint 1 completes with `EIO`, and a call comes. -/
theorem rearmed_fails : ¬ ∀ js t, js <+: [.complete 1 (.failed 5), .call (plainCall 1)] →
    Runs.run step (.opened [1]) js = some t → t.Rearmed := by
  intro h
  have hseen := (h _ _ (List.prefix_refl _) rfl).1 1 ⟨1, some (.failed 5)⟩ rfl
  exact hseen (List.mem_singleton_self 1)

end GadgetReceive

end UsbProxy
