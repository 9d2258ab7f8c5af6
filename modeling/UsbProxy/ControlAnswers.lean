import UsbProxy.ControlRelay
import UsbProxy.Library.Runs

/-!
# What becomes of a control request

With filters that only look at setup packets, every request the host makes reaches the device as it is, and
every reply the host gets is what the device made of one of them: each at most once and in the order of the
requests, whatever the interleaving, and also with injected packets, stops and full queues.

The invariant has two halves, the requests on their way to the device (`outbound`) and the replies on their
way back (`inbound`).  Host requests take the plain lanes only, so both are lists in the order of arrival.
-/

namespace UsbProxy

/-! ## A round with filters that only look -/

/-- A filter whose `filter_setup_packet` leaves the packet alone. -/
def Plugin.observesSetup (f : Plugin) : Bool :=
  match f.cls with
  | .callback _ | .power => false
  | _ => true

/-- The reply the host gets when the device answers its request with `o`. -/
def CtrlRequest.reply (r : CtrlRequest) (o : Outcome) : Answer :=
  if o.accepted then
    if r.deviceToHost ∧ o.moved r.wLength ≠ [] then .sendData (o.moved r.wLength) else .controlAck
  else .stallEp

section Observed

variable {f : Plugin} {fs : List Plugin} {p p' : SetupPacket} {o : Outcome}

theorem observes_filterSetupPacket (hf : f.observesSetup = true) (p : SetupPacket) (d : Bool) :
    (f.filterSetupPacket p d).1.observesSetup = true ∧ (f.filterSetupPacket p d).2 = p := by
  obtain ⟨base, cls⟩ := f
  cases cls with
  | callback c => cases hf
  | power => cases hf
  | pcapLogger | streamLog => exact ⟨rfl, rfl⟩
  | keyLogger | massStorage | rot13 | udphid | zeroMQ => exact ⟨hf, rfl⟩

theorem observes_filterOutLoop (hfs : ∀ f ∈ fs, f.observesSetup = true) (p : SetupPacket) :
    (∀ f ∈ (filterOutLoop fs p).1, f.observesSetup = true) ∧ (filterOutLoop fs p).2.1 = p := by
  induction fs with
  | nil => exact ⟨hfs, rfl⟩
  | cons f fs ih =>
    obtain ⟨hf, hfs'⟩ := List.forall_mem_cons.1 hfs
    obtain ⟨hrest, hsame⟩ := ih hfs'
    obtain ⟨hf', hp⟩ := observes_filterSetupPacket hf p true
    unfold filterOutLoop
    split_ifs with ho ht
    · dsimp only
      rw [hp]
      exact ⟨List.forall_mem_cons.2 ⟨hf', hrest⟩, hsame⟩
    · exact ⟨List.forall_mem_cons.2 ⟨hf, hrest⟩, hsame⟩
    · exact ⟨hfs, rfl⟩

theorem observes_filterInLoop (hfs : ∀ f ∈ fs, f.observesSetup = true) (p : SetupPacket) :
    (∀ f ∈ (filterInLoop fs p).1, f.observesSetup = true) ∧ (filterInLoop fs p).2.1 = p := by
  induction fs with
  | nil => exact ⟨hfs, rfl⟩
  | cons f fs ih =>
    obtain ⟨hf, hfs'⟩ := List.forall_mem_cons.1 hfs
    obtain ⟨hrest, hsame⟩ := ih hfs'
    obtain ⟨hf', hp⟩ := observes_filterSetupPacket hf p false
    unfold filterInLoop
    split_ifs with hi ht
    · dsimp only
      rw [hp]
      exact ⟨List.forall_mem_cons.2 ⟨hf', hrest⟩, hsame⟩
    · exact ⟨List.forall_mem_cons.2 ⟨hf, hrest⟩, hsame⟩
    · exact ⟨hfs, rfl⟩

theorem observes_outPhase (hfs : ∀ f ∈ fs, f.observesSetup = true) (p : SetupPacket) :
    (∀ f ∈ (outPhase fs p).1, f.observesSetup = true) ∧ (outPhase fs p).2.1 = p := by
  unfold outPhase
  split_ifs
  · exact observes_filterOutLoop hfs p
  · exact ⟨hfs, rfl⟩

theorem observes_inPhase (j : ℕ) (hfs : ∀ f ∈ fs, f.observesSetup = true) (p : SetupPacket) :
    (∀ f ∈ (inPhase j fs p).1, f.observesSetup = true) ∧ (inPhase j fs p).2.1 = p := by
  unfold inPhase
  split_ifs
  · have hdrop : ∀ f ∈ fs.drop j, f.observesSetup = true := fun f hf => hfs f (List.mem_of_mem_drop hf)
    obtain ⟨hrest, hsame⟩ := observes_filterInLoop hdrop p
    refine ⟨fun f hf => ?_, hsame⟩
    rcases List.mem_append.1 hf with hf | hf
    · exact hfs f (List.mem_of_mem_take hf)
    · exact hrest f hf
  · exact ⟨hfs, rfl⟩

theorem length_moved_le (wLength : UInt16) (o : Outcome) :
    (o.moved wLength).length ≤ wLength.toNat := by
  cases o with
  | success bytes => exact List.length_take_le ..
  | failure => exact Nat.zero_le _

theorem answer_readFromDevice (hp : p.ctrlReq.deviceToHost = true) (length : ℤ) :
    (readFromDevice p length o).answer = p.ctrlReq.reply o := by
  unfold SetupPacket.answer CtrlRequest.reply
  have htransmit : (readFromDevice p length o).transmitIn = o.accepted := rfl
  rw [htransmit]
  cases ho : o.accepted with
  | false => rfl
  | true =>
    have hle := length_moved_le p.ctrlReq.wLength o
    have hbound : (o.moved p.ctrlReq.wLength).length < 2 ^ 16 :=
      Nat.lt_of_le_of_lt hle p.ctrlReq.wLength.toNat_lt
    have hlength : (readFromDevice p length o).ctrlReq.wLength =
        UInt16.ofInt ((o.moved p.ctrlReq.wLength).length : ℤ) := by
      unfold readFromDevice Outcome.nbytes
      rw [ho]
      rfl
    have hnat := toNat_ofInt_of_lt hbound
    by_cases hempty : o.moved p.ctrlReq.wLength = []
    · have hzero : UInt16.ofInt (([] : List Byte).length : ℤ) = 0 := rfl
      rw [hlength, hempty, hzero, if_pos rfl, if_pos rfl, if_neg fun h => h rfl,
        if_neg fun h => h.2 rfl]
    · have hne : UInt16.ofInt ((o.moved p.ctrlReq.wLength).length : ℤ) ≠ 0 := by
        intro hzero
        rw [hzero] at hnat
        exact hempty (List.length_eq_zero_iff.1 hnat.symm)
      rw [hlength, if_pos rfl, if_pos rfl, if_pos hne, if_pos ⟨hp, hempty⟩]
      congr 1
      unfold SetupPacket.dataRead
      rw [hlength, hnat]
      show ((o.moved p.ctrlReq.wLength).takeD p.ctrlReq.wLength.toNat 0).takeD _ 0 = _
      rw [takeD_of_length_le 0 hle, List.takeD_eq_take _ (by simp), List.take_left]

theorem answer_writeToDevice (hp : p.ctrlReq.deviceToHost = false) :
    (writeToDevice p o).answer = p.ctrlReq.reply o := by
  unfold SetupPacket.answer CtrlRequest.reply
  have htransmit : (writeToDevice p o).transmitIn = o.accepted := rfl
  rw [htransmit, hp, if_neg (fun h : false = true ∧ _ => Bool.false_ne_true h.1)]
  cases o.accepted <;> rfl

theorem observes_round {w : SetupWriter} (hfs : ∀ f ∈ w.filters, f.observesSetup = true)
    (p : SetupPacket) (o : Outcome) :
    ∀ f ∈ (relayWriteSetup w p o).writer.filters, f.observesSetup = true := by
  have hout := (observes_outPhase hfs p).1
  have hround := relayWriteSetup_round w p o
  generalize relayWriteSetup w p o = rep at hround ⊢
  cases hround with
  | discarded => exact hout
  | fromDevice => exact (observes_inPhase _ hout _).1
  | toDevice => exact (observes_inPhase _ hout _).1
  | ends => exact hout

/-- A packet whose transmit flags are up goes to the device as it is. -/
theorem request_observed {w : SetupWriter} (hfs : ∀ f ∈ w.filters, f.observesSetup = true)
    (hp : p.transmitOut = true ∧ p.transmit = true) :
    w.outgoing p = p ∧ w.request p = some p.ctrlReq := by
  have houtgoing : w.outgoing p = p := (observes_outPhase hfs p).2
  refine ⟨houtgoing, ?_⟩
  rw [request_eq_some, houtgoing, hp.1, hp.2]
  exact ⟨Bool.false_ne_true, rfl⟩

/-- The round of such a packet: the device gets the request as it is, and the reply is what comes of that. -/
theorem round_observed {w : SetupWriter} (hfs : ∀ f ∈ w.filters, f.observesSetup = true)
    (hp : p.transmitOut = true ∧ p.transmit = true) (o : Outcome) :
    (relayWriteSetup w p o).transfer = some p.ctrlReq ∧
      ∀ p', (relayWriteSetup w p o).reply = some p' → p'.answer = p.ctrlReq.reply o := by
  have hout := (observes_outPhase hfs p).1
  obtain ⟨houtgoing, hrequest⟩ := request_observed hfs hp
  have hround := relayWriteSetup_round w p o
  generalize relayWriteSetup w p o = rep at hround ⊢
  cases hround with
  | discarded h =>
    rw [hrequest] at h
    cases h
  | @fromDevice r h hr =>
    obtain rfl := Option.some.inj (hrequest.symm.trans h)
    rw [houtgoing]
    refine ⟨rfl, fun p' hreply => ?_⟩
    rw [← Option.some.inj hreply, (observes_inPhase 0 hout _).2]
    exact answer_readFromDevice hr w.length
  | @toDevice r h hr hend =>
    obtain rfl := Option.some.inj (hrequest.symm.trans h)
    rw [houtgoing]
    refine ⟨rfl, fun p' hreply => ?_⟩
    rw [← Option.some.inj hreply, (observes_inPhase _ hout _).2]
    exact answer_writeToDevice hr
  | @ends r h hr hend =>
    obtain rfl := Option.some.inj (hrequest.symm.trans h)
    exact ⟨rfl, fun _ hreply => nomatch hreply⟩

end Observed

/-! ## The relay with what the device is asked -/

/-- The host request in a packet on its way to the device. -/
def Entry.asks? : Entry → Option (ℕ × CtrlRequest)
  | .setup p (.host k) => some (k, p.ctrlReq)
  | _ => none

/-- The reply in a packet on its way back. -/
def Entry.answers? : Entry → Option (ℕ × Answer)
  | .setup p (.host k) => some (k, p.answer)
  | _ => none

/-- A host request as the reader makes it: nothing keeps it from being transferred. -/
def Entry.Fresh (e : Entry) : Prop :=
  ∀ p k, e = .setup p (.host k) → p.transmitOut = true ∧ p.transmit = true

/-- The control relay, with the host requests that were transferred to the device: their number, what the
device was asked and what it answered. -/
structure ControlHistory where
  relay : ControlRelay
  transfers : List (ℕ × CtrlRequest × Outcome)

namespace ControlHistory

def new (filters : List Plugin) (length : ℤ) (device : Device) : ControlHistory where
  relay := .new filters length device
  transfers := []

/-- The transfer in a move, if it is of a host request. -/
def transferred (r : ControlRelay) : ControlMove → List (ℕ × CtrlRequest × Outcome)
  | .transfer o =>
    match r.writer.pc with
    | .handling p (.host k) =>
      (relayWriteSetup r.writer.state p o).transfer.toList.map fun request => (k, request, o)
    | _ => []
  | _ => []

def step (s : ControlHistory) (m : ControlMove) : Option ControlHistory :=
  (s.relay.step m).map fun relay =>
    { relay, transfers := s.transfers ++ transferred s.relay m }

def requests (log : List ControlEvent) : List (ℕ × CtrlRequest) :=
  log.filterMap fun
    | .request k r => some (k, r)
    | .reply .. => none

def replies (log : List ControlEvent) : List (ℕ × Answer) :=
  log.filterMap fun
    | .reply (.host k) a => some (k, a)
    | _ => none

/-! ## Requests on their way, and replies -/

/-- The host request in the writer's hands. -/
def asksOfWriter : ControlWriterPc → Option (ℕ × CtrlRequest)
  | .dequeued e => e.asks?
  | .handling p origin => (Entry.setup p origin).asks?
  | _ => none

/-- The host request in the reader's hands, the next to be numbered. -/
def asksOfReader (count : ℕ) : ControlReaderPc → Option (ℕ × CtrlRequest)
  | .requested (.setup r _) => some (count, r)
  | .enqueuing p => some (count, p.ctrlReq)
  | _ => none

def answersOfReader : ControlReaderPc → Option (ℕ × Answer)
  | .dequeued e => e.answers?
  | _ => none

def answersOfWriter : ControlWriterPc → Option (ℕ × Answer)
  | .enqueuing p origin => (Entry.setup p origin).answers?
  | _ => none

/-- The host requests on their way to the device, the oldest first. -/
def outbound (s : ControlRelay) : List (ℕ × CtrlRequest) :=
  (asksOfWriter s.writer.pc).toList ++ s.readersend.q.filterMap Entry.asks? ++
    (asksOfReader s.count s.reader.pc).toList

/-- The replies on their way back. -/
def inbound (s : ControlRelay) : List (ℕ × Answer) :=
  (answersOfReader s.reader.pc).toList ++ s.writersend.q.filterMap Entry.answers? ++
    (answersOfWriter s.writer.pc).toList

section Lanes

variable {q q' : SafeQueue Entry} {e : Entry} {κ : Type*} (f : Entry → Option κ)

theorem filterMap_enqueue (q : SafeQueue Entry) (e : Entry) :
    ((q.enqueue e).q.filterMap f).Sublist (q.q.filterMap f ++ (f e).toList) := by
  rw [SafeQueue.enqueue_eq]
  dsimp only
  by_cases hroom : q.q.length < QUEUE_MAX
  · rw [Lane.offer_of_lt hroom, List.filterMap_append]
    cases h : f e <;> simp [h]
  · rw [Lane.offer_of_le (Nat.not_lt.1 hroom)]
    exact List.sublist_append_left _ _

theorem filterMap_dequeue (hpriority : ∀ e ∈ q.qPriority, f e = none)
    (h : q.dequeue = some (e, q')) :
    (f e).toList ++ q'.q.filterMap f = q.q.filterMap f := by
  rcases SafeQueue.dequeue_cases h with ⟨rest, hp, rfl⟩ | ⟨rest, -, hq, rfl⟩
  · rw [hpriority e (by rw [hp]; exact List.mem_cons_self)]
    rfl
  · rw [hq]
    cases he : f e <;> simp [he]

end Lanes

/-! ## What every relay keeps -/

/-- Nothing of the host's is in the priority lane. -/
def Unhosted (q : SafeQueue Entry) : Prop := ∀ e ∈ q.qPriority, ∀ p k, e ≠ .setup p (.host k)

section Unhosted

variable {q q' : SafeQueue Entry} {e : Entry}

theorem Unhosted.enqueue (h : Unhosted q) (e : Entry) : Unhosted (q.enqueue e) := by
  rw [SafeQueue.enqueue_eq]
  exact h

theorem Unhosted.enqueuePriority (h : Unhosted q) (he : ∀ p k, e ≠ .setup p (.host k)) :
    Unhosted (q.enqueuePriority e) := by
  rw [SafeQueue.enqueuePriority_eq]
  intro e' he'
  rcases Lane.mem_offer he' with he' | rfl
  · exact h e' he'
  · exact he

theorem Unhosted.dequeue (h : Unhosted q) (hd : q.dequeue = some (e, q')) : Unhosted q' := by
  rcases SafeQueue.dequeue_cases hd with ⟨rest, hp, rfl⟩ | ⟨rest, -, -, rfl⟩
  · intro e' he'
    exact h e' (by rw [hp]; exact List.mem_cons_of_mem _ he')
  · exact h

theorem Unhosted.asks (h : Unhosted q) : ∀ e ∈ q.qPriority, e.asks? = none := by
  intro e he
  cases e with
  | setup p origin =>
    cases origin with
    | host k => exact absurd rfl (h _ he p k)
    | injected => rfl
  | null | packet => rfl

theorem Unhosted.answers (h : Unhosted q) : ∀ e ∈ q.qPriority, e.answers? = none := by
  intro e he
  cases e with
  | setup p origin =>
    cases origin with
    | host k => exact absurd rfl (h _ he p k)
    | injected => rfl
  | null | packet => rfl

end Unhosted

/-- The entry in the writer's hands before the transfer. -/
def writerHand : ControlWriterPc → Entry
  | .dequeued e => e
  | .handling p origin => .setup p origin
  | _ => .null

/-- The filters only look, the host's packets are as the reader made them, and the injectors keep to their
lanes. -/
structure Plain (s : ControlRelay) : Prop where
  observed : ∀ f ∈ s.writer.state.filters, f.observesSetup = true
  fresh : s.readersend.All Entry.Fresh
  hand : (writerHand s.writer.pc).Fresh
  made : ∀ p, s.reader.pc = .enqueuing p → p.transmitOut = true ∧ p.transmit = true
  readersend : Unhosted s.readersend
  writersend : Unhosted s.writersend

variable {s t : ControlRelay} {m : ControlMove}

theorem fresh_null : Entry.Fresh .null := fun _ _ h => nomatch h

theorem plain_new {filters : List Plugin} (hfs : ∀ f ∈ filters, f.observesSetup = true) (length : ℤ)
    (device : Device) : Plain (.new filters length device) where
  observed := hfs
  fresh := fun _ h => nomatch h
  hand := fresh_null
  made := fun _ h => nomatch h
  readersend := fun _ h => nomatch h
  writersend := fun _ h => nomatch h

theorem Plain.read (h : Plain s) (hstep : ControlRelay.ReadStep s t) : Plain t := by
  obtain ⟨hobserved, hfresh, hhand, hmade, hreadersend, hwritersend⟩ := h
  cases hstep with
  | accept =>
    refine ⟨hobserved, hfresh, hhand, ?_, hreadersend, hwritersend⟩
    rintro p ⟨⟩
    exact ⟨rfl, rfl⟩
  | @handOn p hpc =>
    refine ⟨hobserved, hfresh.enqueue ?_, hhand, (fun _ h => nomatch h), hreadersend.enqueue _,
      hwritersend⟩
    rintro p' k ⟨⟩
    exact hmade p hpc
  | take hpc hd =>
    exact ⟨hobserved, hfresh, hhand, (fun _ h => nomatch h), hreadersend, hwritersend.dequeue hd⟩
  | stop | listen | await | again | pass | skip | reply | settle =>
    exact ⟨hobserved, hfresh, hhand, (fun _ h => nomatch h), hreadersend, hwritersend⟩

theorem Plain.write (h : Plain s) (hstep : ControlRelay.WriteStep s t) : Plain t := by
  obtain ⟨hobserved, hfresh, hhand, hmade, hreadersend, hwritersend⟩ := h
  cases hstep with
  | take hpc hd =>
    obtain ⟨he, hfresh'⟩ := hfresh.dequeue hd
    exact ⟨hobserved, hfresh', he, hmade, hreadersend.dequeue hd, hwritersend⟩
  | handle hpc =>
    rw [hpc] at hhand
    exact ⟨hobserved, hfresh, hhand, hmade, hreadersend, hwritersend⟩
  | handBack hpc =>
    exact ⟨hobserved, hfresh, fresh_null, hmade, hreadersend, hwritersend.enqueue _⟩
  | stop | next | skip => exact ⟨hobserved, hfresh, fresh_null, hmade, hreadersend, hwritersend⟩

/-- Where the writer stands behind a transfer. -/
def behind (origin : Origin) : Option SetupPacket → ControlWriterPc
  | none => .top
  | some p => .enqueuing p origin

theorem asksOfWriter_behind (origin : Origin) (reply : Option SetupPacket) :
    asksOfWriter (behind origin reply) = none := by cases reply <;> rfl

theorem answersOfWriter_behind (origin : Origin) (reply : Option SetupPacket) :
    answersOfWriter (behind origin reply) =
      reply.bind fun p => (Entry.setup p origin).answers? := by cases reply <;> rfl

theorem transfer_eq {o : Outcome} (h : s.transfer o = some t) : ∃ p origin,
    s.writer.pc = .handling p origin ∧ t = { s with writer := { s.writer with
      pc := behind origin (relayWriteSetup s.writer.state p o).reply
      state := (relayWriteSetup s.writer.state p o).writer } } := by
  unfold ControlRelay.transfer at h
  split at h
  next p origin hpc =>
    refine ⟨p, origin, hpc, ?_⟩
    dsimp only at h
    split_ifs at h
    cases hreply : (relayWriteSetup s.writer.state p o).reply with
    | none =>
      rw [hreply] at h
      exact (Option.some.inj h).symm
    | some p' =>
      rw [hreply] at h
      exact (Option.some.inj h).symm
  next => cases h

theorem Plain.transfer {o : Outcome} (h : Plain s) (hstep : s.transfer o = some t) : Plain t := by
  obtain ⟨hobserved, hfresh, hhand, hmade, hreadersend, hwritersend⟩ := h
  obtain ⟨p, origin, hpc, rfl⟩ := transfer_eq hstep
  refine ⟨observes_round hobserved p o, hfresh, ?_, hmade, hreadersend, hwritersend⟩
  dsimp only
  cases (relayWriteSetup s.writer.state p o).reply <;> exact fresh_null

theorem Plain.step (h : Plain s) (hstep : s.step m = some t) : Plain t := by
  cases m with
  | read => exact h.read (ControlRelay.read_step hstep)
  | write => exact h.write (ControlRelay.write_step hstep)
  | transfer o => exact h.transfer hstep
  | hostRequest rc =>
    simp only [ControlRelay.step, ControlRelay.hostRequest] at hstep
    split_ifs at hstep
    cases hstep
    exact ⟨h.observed, h.fresh, h.hand, (fun _ h => nomatch h), h.readersend, h.writersend⟩
  | sendComplete done =>
    simp only [ControlRelay.step, ControlRelay.sendComplete] at hstep
    split_ifs at hstep <;> cases hstep <;>
      exact ⟨h.observed, h.fresh, h.hand, (fun _ h => nomatch h), h.readersend, h.writersend⟩
  | injectSetup p =>
    cases hstep
    have hfresh : Entry.Fresh (.setup p .injected) := by rintro p' k ⟨⟩
    exact ⟨h.observed, h.fresh.enqueuePriority hfresh, h.hand, h.made,
      h.readersend.enqueuePriority (by rintro p' k ⟨⟩), h.writersend⟩
  | injectPacket p =>
    cases hstep
    unfold ControlRelay.injectPacket
    split_ifs
    · exact h
    · exact ⟨h.observed, h.fresh, h.hand, h.made, h.readersend,
        h.writersend.enqueuePriority (by rintro p' k ⟨⟩)⟩
    · exact ⟨h.observed, h.fresh.enqueuePriority (by rintro p' k ⟨⟩), h.hand, h.made,
        h.readersend.enqueuePriority (by rintro p' k ⟨⟩), h.writersend⟩
  | stopReader => cases hstep; exact ⟨h.observed, h.fresh, h.hand, h.made, h.readersend, h.writersend⟩
  | wakeReader =>
    cases hstep
    exact ⟨h.observed, h.fresh, h.hand, h.made, h.readersend, h.writersend.enqueue _⟩
  | stopWriter => cases hstep; exact ⟨h.observed, h.fresh, h.hand, h.made, h.readersend, h.writersend⟩
  | wakeWriter =>
    cases hstep
    exact ⟨h.observed, h.fresh.enqueue fresh_null, h.hand, h.made, h.readersend.enqueue _,
      h.writersend⟩

/-! ## Nothing is reordered, made up or given twice -/

/-- A step that asks the device nothing and makes no reply: what is under way moves on or is dropped. -/
structure Ebbs (s t : ControlRelay) : Prop where
  requests : requests t.log = requests s.log
  outbound : (outbound t).Sublist (outbound s)
  inbound : (replies t.log ++ inbound t).Sublist (replies s.log ++ inbound s)

theorem Plain.ebbs_read (h : Plain s) (hstep : ControlRelay.ReadStep s t) : Ebbs s t := by
  have hsame : ∀ {κ : Type} (l : List κ), l.Sublist l := fun _ => List.Sublist.refl _
  cases hstep with
  | stop | listen | await | again | pass | skip | settle =>
    exact ⟨rfl, ((hsame _).append (hsame _)).append (List.nil_sublist _), (hsame _).append
      (((List.nil_sublist _).append (hsame _)).append (hsame _))⟩
  | accept hpc =>
    refine ⟨rfl, ?_, (hsame _).append (((List.nil_sublist _).append (hsame _)).append (hsame _))⟩
    unfold ControlHistory.outbound
    rw [hpc]
    exact hsame _
  | @handOn p hpc =>
    refine ⟨rfl, ?_, (hsame _).append (((List.nil_sublist _).append (hsame _)).append (hsame _))⟩
    unfold ControlHistory.outbound
    rw [hpc]
    have hqueue := filterMap_enqueue Entry.asks? s.readersend (.setup p (.host s.count))
    show (_ ++ _ ++ []).Sublist _
    rw [List.append_nil, List.append_assoc]
    exact (hsame _).append hqueue
  | @take e writersend hpc hd =>
    refine ⟨rfl, ((hsame _).append (hsame _)).append (List.nil_sublist _), (hsame _).append ?_⟩
    unfold ControlHistory.inbound
    rw [hpc, ← filterMap_dequeue Entry.answers? h.writersend.answers hd]
    exact hsame _
  | @reply p origin hpc =>
    refine ⟨?_, ((hsame _).append (hsame _)).append (List.nil_sublist _), ?_⟩
    · unfold ControlHistory.requests
      rw [List.filterMap_append]
      exact List.append_nil _
    · unfold ControlHistory.inbound replies
      rw [hpc, List.filterMap_append, List.append_assoc]
      refine (hsame _).append ?_
      cases origin with
      | host k => exact hsame _
      | injected => exact hsame _

theorem Plain.ebbs_write (h : Plain s) (hstep : ControlRelay.WriteStep s t) : Ebbs s t := by
  have hsame : ∀ {κ : Type} (l : List κ), l.Sublist l := fun _ => List.Sublist.refl _
  cases hstep with
  | stop | next | skip =>
    exact ⟨rfl, ((List.nil_sublist _).append (hsame _)).append (hsame _), (hsame _).append
      (((hsame _).append (hsame _)).append (List.nil_sublist _))⟩
  | @take e readersend hpc hd =>
    refine ⟨rfl, ?_, (hsame _).append (((hsame _).append (hsame _)).append (List.nil_sublist _))⟩
    unfold ControlHistory.outbound
    rw [hpc, ← filterMap_dequeue Entry.asks? h.readersend.asks hd]
    exact hsame _
  | handle hpc =>
    refine ⟨rfl, ?_, (hsame _).append (((hsame _).append (hsame _)).append (List.nil_sublist _))⟩
    unfold ControlHistory.outbound
    rw [hpc]
    exact hsame _
  | @handBack p origin hpc =>
    refine ⟨rfl, ((List.nil_sublist _).append (hsame _)).append (hsame _), (hsame _).append ?_⟩
    unfold ControlHistory.inbound
    rw [hpc]
    have hqueue := filterMap_enqueue Entry.answers? s.writersend (.setup p origin)
    show (_ ++ _ ++ []).Sublist _
    rw [List.append_nil, List.append_assoc]
    exact (hsame _).append hqueue

theorem ebbs_of_queues {readersend writersend : SafeQueue Entry}
    (hreader : (readersend.q.filterMap Entry.asks?).Sublist (s.readersend.q.filterMap Entry.asks?))
    (hwriter : (writersend.q.filterMap Entry.answers?).Sublist
      (s.writersend.q.filterMap Entry.answers?)) :
    Ebbs s { s with readersend, writersend } := by
  have hsame : ∀ {κ : Type} (l : List κ), l.Sublist l := fun _ => List.Sublist.refl _
  exact ⟨rfl, ((hsame _).append hreader).append (hsame _),
    (hsame _).append (((hsame _).append hwriter).append (hsame _))⟩

theorem filterMap_enqueue_none {κ : Type*} (f : Entry → Option κ) (q : SafeQueue Entry) {e : Entry}
    (he : f e = none) : ((q.enqueue e).q.filterMap f).Sublist (q.q.filterMap f) := by
  have hqueue := filterMap_enqueue f q e
  rwa [he, Option.toList_none, List.append_nil] at hqueue

theorem filterMap_enqueuePriority {κ : Type*} (f : Entry → Option κ) (q : SafeQueue Entry) (e : Entry) :
    ((q.enqueuePriority e).q.filterMap f).Sublist (q.q.filterMap f) := by
  have hsame : (q.enqueuePriority e).q = q.q := by rw [SafeQueue.enqueuePriority_eq]
  exact hsame ▸ List.Sublist.refl _

theorem Plain.ebbs (h : Plain s) (hstep : s.step m = some t) (htransfer : ∀ o, m ≠ .transfer o)
    (hrequest : ∀ r buf, m ≠ .hostRequest (.setup r buf)) : Ebbs s t := by
  have hsame : ∀ {κ : Type} (l : List κ), l.Sublist l := fun _ => List.Sublist.refl _
  cases m with
  | transfer o => exact absurd rfl (htransfer o)
  | read => exact h.ebbs_read (ControlRelay.read_step hstep)
  | write => exact h.ebbs_write (ControlRelay.write_step hstep)
  | hostRequest rc =>
    simp only [ControlRelay.step, ControlRelay.hostRequest] at hstep
    split_ifs at hstep
    cases hstep
    cases rc with
    | setup r buf => exact absurd rfl (hrequest r buf)
    | disconnect | connect | other =>
      exact ⟨rfl, ((hsame _).append (hsame _)).append (List.nil_sublist _), (hsame _).append
        (((List.nil_sublist _).append (hsame _)).append (hsame _))⟩
  | sendComplete done =>
    simp only [ControlRelay.step, ControlRelay.sendComplete] at hstep
    split_ifs at hstep <;> cases hstep <;>
      exact ⟨rfl, ((hsame _).append (hsame _)).append (List.nil_sublist _), (hsame _).append
        (((List.nil_sublist _).append (hsame _)).append (hsame _))⟩
  | injectSetup p =>
    cases hstep
    exact ebbs_of_queues (filterMap_enqueuePriority _ _ _) (hsame _)
  | injectPacket p =>
    cases hstep
    unfold ControlRelay.injectPacket
    split_ifs
    · exact ebbs_of_queues (hsame _) (hsame _)
    · exact ebbs_of_queues (hsame _) (filterMap_enqueuePriority _ _ _)
    · exact ebbs_of_queues (filterMap_enqueuePriority _ _ _) (hsame _)
  | wakeReader =>
    cases hstep
    exact ebbs_of_queues (hsame _) (filterMap_enqueue_none Entry.answers? s.writersend rfl)
  | wakeWriter =>
    cases hstep
    exact ebbs_of_queues (filterMap_enqueue_none Entry.asks? s.readersend rfl) (hsame _)
  | stopReader => cases hstep; exact ⟨rfl, hsame _, hsame _⟩
  | stopWriter => cases hstep; exact ⟨rfl, hsame _, hsame _⟩

/-- The device has been asked some of what the host requested, and the replies are some of what came of it,
both in order. -/
structure Flows (s : ControlHistory) : Prop where
  plain : Plain s.relay
  asked : (s.transfers.map (fun x => (x.1, x.2.1)) ++ outbound s.relay).Sublist
    (requests s.relay.log)
  answered : (replies s.relay.log ++ inbound s.relay).Sublist
    (s.transfers.map fun x => (x.1, x.2.1.reply x.2.2))

section Flows

variable {s t : ControlHistory} {m : ControlMove}

theorem Flows.of_ebbs {relay : ControlRelay} (h : Flows s) (hplain : Plain relay)
    (hebbs : Ebbs s.relay relay) : Flows { relay, transfers := s.transfers ++ [] } := by
  refine ⟨hplain, ?_, ?_⟩ <;> dsimp only <;> rw [List.append_nil]
  · rw [hebbs.requests]
    exact ((List.Sublist.refl _).append hebbs.outbound).trans h.asked
  · exact hebbs.inbound.trans h.answered

theorem sublist_concat {κ : Type*} {front l whole : List κ} (h : (front ++ (l ++ [])).Sublist whole)
    (x : κ) : (front ++ (l ++ [x])).Sublist (whole ++ [x]) := by
  rw [List.append_nil] at h
  rw [← List.append_assoc]
  exact h.append (List.Sublist.refl [x])

theorem Flows.request {relay : ControlRelay} {r : CtrlRequest} {buf : Option (List Byte)}
    (h : Flows s) (hstep : s.relay.hostRequest (.setup r buf) = some relay) :
    Flows { relay, transfers := s.transfers ++ [] } := by
  have hplain : Plain relay := h.plain.step (m := .hostRequest (.setup r buf)) hstep
  unfold ControlRelay.hostRequest at hstep
  split_ifs at hstep with hpc
  cases hstep
  refine ⟨hplain, ?_, ?_⟩ <;> dsimp only <;> rw [List.append_nil]
  · have hasked := h.asked
    unfold ControlHistory.outbound at hasked ⊢
    rw [hpc] at hasked
    have hrequests : requests (s.relay.log ++ [.request s.relay.count r]) =
        requests s.relay.log ++ [(s.relay.count, r)] := List.filterMap_append
    rw [hrequests]
    exact sublist_concat hasked _
  · have hanswered := h.answered
    unfold ControlHistory.inbound at hanswered ⊢
    rw [hpc] at hanswered
    have hreplies : replies (s.relay.log ++ [.request s.relay.count r]) = replies s.relay.log :=
      List.filterMap_append.trans (List.append_nil _)
    rw [hreplies]
    exact hanswered

theorem Flows.transfer {relay : ControlRelay} {o : Outcome} (h : Flows s)
    (hstep : s.relay.transfer o = some relay) :
    Flows { relay, transfers := s.transfers ++ transferred s.relay (.transfer o) } := by
  have hplain : Plain relay := h.plain.transfer hstep
  obtain ⟨p, origin, hpc, rfl⟩ := transfer_eq hstep
  have hhand := h.plain.hand
  have hobserved := h.plain.observed
  obtain ⟨-, hasked, hanswered⟩ := h
  unfold ControlHistory.outbound at hasked
  unfold ControlHistory.inbound at hanswered
  rw [hpc] at hhand hasked hanswered
  generalize hreply : (relayWriteSetup s.relay.writer.state p o).reply = reply at *
  have hanswers := answersOfWriter_behind origin reply
  cases origin with
  | injected =>
    have hnone : answersOfWriter (behind .injected reply) = none := by
      rw [hanswers]
      cases reply <;> rfl
    have htransferred : transferred s.relay (.transfer o) = [] := by
      simp only [transferred, hpc]
    refine ⟨hplain, ?_, ?_⟩ <;> dsimp only <;> rw [htransferred, List.append_nil]
    · unfold ControlHistory.outbound
      dsimp only
      rw [asksOfWriter_behind]
      exact hasked
    · unfold ControlHistory.inbound
      dsimp only
      rw [hnone]
      exact hanswered
  | host k =>
    obtain ⟨htransfer, hanswer⟩ := round_observed hobserved (hhand p k rfl) o
    have htransferred : transferred s.relay (.transfer o) = [(k, p.ctrlReq, o)] := by
      simp only [transferred, hpc, htransfer]
      rfl
    refine ⟨hplain, ?_, ?_⟩ <;> dsimp only <;> rw [htransferred, List.map_append]
    · unfold ControlHistory.outbound
      dsimp only
      rw [asksOfWriter_behind, List.append_assoc]
      exact hasked
    · unfold ControlHistory.inbound
      dsimp only
      cases reply with
      | none => exact hanswered.trans (List.sublist_append_left _ _)
      | some p' =>
        rw [hanswers]
        show (_ ++ (_ ++ _ ++ [(k, p'.answer)])).Sublist _
        rw [hanswer p' hreply]
        exact sublist_concat hanswered _

theorem Flows.step (h : Flows s) (hstep : step s m = some t) : Flows t := by
  obtain ⟨relay, hrelay, rfl⟩ := Option.map_eq_some_iff.1 hstep
  have haside (htransferred : transferred s.relay m = []) (htransfer : ∀ o, m ≠ .transfer o)
      (hrequest : ∀ r buf, m ≠ .hostRequest (.setup r buf)) :
      Flows { relay, transfers := s.transfers ++ transferred s.relay m } := by
    rw [htransferred]
    exact h.of_ebbs (h.plain.step hrelay) (h.plain.ebbs hrelay htransfer hrequest)
  cases m with
  | transfer o => exact h.transfer hrelay
  | hostRequest rc =>
    cases rc with
    | setup r buf => exact h.request hrelay
    | disconnect | connect | other =>
      exact haside rfl (fun _ => ControlMove.noConfusion) (fun _ _ h => nomatch h)
  | read | sendComplete | write | injectSetup | injectPacket | stopReader | wakeReader | stopWriter
    | wakeWriter => exact haside rfl (fun _ h => nomatch h) (fun _ _ h => nomatch h)

end Flows

/-! ## The numbers -/

/-- How many requests the log has, the one in the reader's hands included. -/
def asked (s : ControlRelay) : ℕ := s.count + (asksOfReader s.count s.reader.pc).toList.length

/-- The requests are numbered in the order in which they come. -/
def Numbered (s : ControlRelay) : Prop :=
  (requests s.log).map Prod.fst = List.range (asked s) ∨
    s.reader.pc = .finished ∧ ∃ n, (requests s.log).map Prod.fst = List.range n

theorem Numbered.exists (h : Numbered s) : ∃ n, (requests s.log).map Prod.fst = List.range n :=
  h.elim (fun h => ⟨_, h⟩) And.right

theorem Numbered.of_same (h : Numbered s) (hlog : requests t.log = requests s.log)
    (hreader : t.reader.pc = s.reader.pc) (hcount : t.count = s.count) : Numbered t := by
  unfold Numbered asked
  rw [hlog, hreader, hcount]
  exact h

theorem Numbered.move (h : Numbered s) (hlog : requests t.log = requests s.log)
    (hpc : s.reader.pc ≠ .finished) (hasked : asked t = asked s) : Numbered t := by
  refine .inl ?_
  rw [hlog, hasked]
  exact h.resolve_right fun h => hpc h.1

theorem Numbered.read (h : Numbered s) (hlog : requests t.log = requests s.log)
    (hstep : ControlRelay.ReadStep s t) : Numbered t := by
  have hasked {s : ControlRelay} {pc : ControlReaderPc} (hpc : s.reader.pc = pc)
      (hnone : asksOfReader s.count pc = none) : asked s = s.count := by
    unfold asked
    rw [hpc, hnone]
    rfl
  cases hstep with
  | stop =>
    obtain ⟨n, hn⟩ := h.exists
    exact .inr ⟨rfl, n, hn⟩
  | listen hpc | await hpc | again hpc | take hpc | skip hpc | settle hpc =>
    exact h.move hlog (by rw [hpc]; exact ControlReaderPc.noConfusion) (hasked hpc rfl).symm
  | reply hpc => exact h.move hlog (by rw [hpc]; exact ControlReaderPc.noConfusion) (hasked hpc rfl).symm
  | @pass rc hpc hrc =>
    have hnone : asksOfReader s.count (.requested rc) = none := by
      cases rc with
      | setup r buf => exact absurd rfl (hrc r buf)
      | disconnect | connect | other => rfl
    exact h.move hlog (by rw [hpc]; exact ControlReaderPc.noConfusion) (hasked hpc hnone).symm
  | accept hpc | handOn hpc =>
    refine h.move hlog (by rw [hpc]; exact ControlReaderPc.noConfusion) ?_
    unfold asked
    rw [hpc]
    rfl

theorem Numbered.step (h : Numbered s) (hplain : Plain s) (hstep : s.step m = some t) :
    Numbered t := by
  cases m with
  | read =>
    have hread := ControlRelay.read_step hstep
    exact h.read (hplain.ebbs_read hread).requests hread
  | write =>
    have hwrite := ControlRelay.write_step hstep
    refine h.of_same (hplain.ebbs_write hwrite).requests ?_ ?_ <;> cases hwrite <;> rfl
  | transfer o =>
    obtain ⟨p, origin, hpc, rfl⟩ := transfer_eq hstep
    exact h.of_same rfl rfl rfl
  | hostRequest rc =>
    simp only [ControlRelay.step, ControlRelay.hostRequest] at hstep
    split_ifs at hstep with hpc
    cases hstep
    have hnums : (requests s.log).map Prod.fst = List.range s.count := by
      refine (h.resolve_right fun h => ?_).trans (congrArg List.range ?_)
      · rw [hpc] at h
        exact ControlReaderPc.noConfusion h.1
      · unfold asked
        rw [hpc]
        rfl
    cases rc with
    | setup r buf =>
      refine .inl ?_
      show (requests (s.log ++ [.request s.count r])).map Prod.fst = List.range (s.count + 1)
      rw [List.range_succ, ← hnums]
      unfold requests
      rw [List.filterMap_append, List.map_append]
      rfl
    | disconnect | connect | other => exact .inl hnums
  | sendComplete done =>
    simp only [ControlRelay.step, ControlRelay.sendComplete] at hstep
    split_ifs at hstep with hpc <;> cases hstep <;>
      refine h.move rfl (by rw [hpc]; exact ControlReaderPc.noConfusion) ?_ <;> unfold asked <;>
      rw [hpc] <;> rfl
  | injectPacket p =>
    cases hstep
    unfold ControlRelay.injectPacket
    split_ifs <;> exact h.of_same rfl rfl rfl
  | injectSetup | stopReader | wakeReader | stopWriter | wakeWriter =>
    cases hstep
    exact h.of_same rfl rfl rfl

/-- **What becomes of a control request.**  With filters that only look at setup packets, in every
interleaving, with whatever is injected, with stops and full queues: the host's requests are numbered as they
come, each is put to the device at most once, as the host made it and in the host's order, and the replies are
what the device made of these, at most one for each and in the same order. -/
theorem requests_answered (filters : List Plugin) (hfilters : ∀ f ∈ filters, f.observesSetup = true)
    (length : ℤ) (device : Device) (moves : List ControlMove) (s : ControlHistory)
    (hrun : Runs.run ControlHistory.step (.new filters length device) moves = some s) :
    (∃ n, (requests s.relay.log).map Prod.fst = List.range n) ∧
      (s.transfers.map fun x => (x.1, x.2.1)).Sublist (requests s.relay.log) ∧
      (replies s.relay.log).Sublist (s.transfers.map fun x => (x.1, x.2.1.reply x.2.2)) := by
  obtain ⟨hflows, hnumbered⟩ : Flows s ∧ Numbered s.relay := by
    refine Runs.invariant (fun s => Flows s ∧ Numbered s.relay) (fun s m t hstep h => ?_) hrun ?_
    · obtain ⟨relay, hrelay, ht⟩ := Option.map_eq_some_iff.1 hstep
      refine ⟨h.1.step hstep, ?_⟩
      rw [← ht]
      exact h.2.step h.1.plain hrelay
    · exact ⟨⟨plain_new hfilters length device, List.nil_sublist _, List.nil_sublist _⟩, .inl rfl⟩
  exact ⟨hnumbered.exists, (List.sublist_append_left _ _).trans hflows.asked,
    (List.sublist_append_left _ _).trans hflows.answered⟩

/-- Past a filter that logs, the device has three bytes for a request of two and fails a second one. -/
def readThenStalled : List ControlMove :=
  [.read, .hostRequest (.setup (getDescriptor 2).ctrlReq none), .read, .read, .read, .write, .write,
    .write, .transfer (.success [18, 1, 0]), .write, .read, .read, .read, .sendComplete true, .read,
    .hostRequest (.setup (getDescriptor 8).ctrlReq none), .read, .read, .read, .write, .write, .write,
    .transfer .failure, .write, .read, .read]

theorem requests_answered_readThenStalled :
    ∃ s, Runs.run ControlHistory.step (.new [⟨.new, .streamLog []⟩] 0 .bare) readThenStalled = some s ∧
      replies s.relay.log = [(0, .sendData [18, 1]), (1, .stallEp)] ∧
      (replies s.relay.log).Sublist (s.transfers.map fun x => (x.1, x.2.1.reply x.2.2)) := by
  obtain ⟨-, -, hanswered⟩ :=
    requests_answered [⟨.new, .streamLog []⟩] (by decide) 0 .bare readThenStalled _ rfl
  exact ⟨_, rfl, rfl, hanswered⟩

end ControlHistory

end UsbProxy
