import UsbProxy.ControlDialogue

/-!
# Endpoint 0 of the gadget proxy

`control_request`, `control_ack`, `stall_ep` and `send_data` on endpoint 0, under the relay of the control
endpoint.  They all go through the device file, where what a `read` or a `write` of no bytes means depends on
the direction of the request it concludes; `control_ack` and `stall_ep` take that from `lastControl`.
`send_wait_complete` is always done on endpoint 0.

`Follows` is the dialogue on the file: each setup event is concluded once, in its own direction, before the
next event is read.
-/

namespace UsbProxy

open Dialogue

/-- `usb_gadgetfs_event`. -/
inductive GadgetEvent
  | setup (r : CtrlRequest)
  | nop
  | connect
  | disconnect
  | suspend
  | unknown
  deriving DecidableEq, Repr

/-- What the system answers `control_request`: `poll` finds nothing to read, `read` fails, or it brings one
event or less.  `data` is what the second `read` brings, `none` if that fails. -/
inductive Poll
  | nothing
  | failed
  | less
  | event (e : GadgetEvent) (data : Option (List Byte))
  deriving DecidableEq, Repr

/-- What passes through the device file. -/
inductive FileOp
  | event (e : GadgetEvent)
  | readData (length : ℕ) (bytes : Option (List Byte))
  | readNothing
  | write (bytes : List Byte)
  deriving DecidableEq, Repr

/-- The proxy's `lastControl`, and what has passed through `p_device_file`. -/
structure Gadget where
  lastControl : CtrlRequest
  file : List FileOp
  deriving DecidableEq, Repr

/-- What the caller of `control_request` has afterwards. -/
structure ControlReturn where
  rc : ℤ
  setupPacket : CtrlRequest
  nbytes : ℤ
  dataptr : Option (List Byte)
  deriving DecidableEq, Repr

def CONTROL_REQUEST_SETUP : ℤ := 1

def CONTROL_REQUEST_DISCONNECT : ℤ := 2

def CONTROL_REQUEST_CONNECT : ℤ := 3

/-- The `switch` of `relay_read_setup` on what comes back. -/
def ControlReturn.hostRequest (r : ControlReturn) : HostRequest :=
  if r.rc = CONTROL_REQUEST_SETUP then .setup r.setupPacket r.dataptr
  else if r.rc = CONTROL_REQUEST_DISCONNECT then .disconnect
  else if r.rc = CONTROL_REQUEST_CONNECT then .connect
  else .other

/-- The host sends data with the request. -/
def CtrlRequest.hasData (r : CtrlRequest) : Bool := !r.deviceToHost && r.wLength != 0

/-- The block of `wLength` bytes that the data is read into. -/
def CtrlRequest.block (r : CtrlRequest) (data : Option (List Byte)) : List Byte :=
  ((data.map (·.take r.wLength.toNat)).getD []).takeD r.wLength.toNat 0

namespace Gadget

/-- What is read of a setup packet: the event, and the data that comes with the request. -/
def asked (r : CtrlRequest) (data : Option (List Byte)) : List FileOp :=
  .event (.setup r) :: if r.hasData then [.readData r.wLength.toNat data] else []

/-- `control_request`, with `nbytes` and `dataptr` as the caller has set them.  `read` fills a block of
`wLength` bytes from the front; the rest of it reads as zero. -/
def controlRequest (g : Gadget) (setupPacket : CtrlRequest) (nbytes : ℤ)
    (dataptr : Option (List Byte)) (p : Poll) : Gadget × ControlReturn :=
  match p with
  | .nothing | .failed | .less =>
    (g, { rc := 0, setupPacket := { setupPacket with bRequest := 0 }, nbytes, dataptr })
  | .event (.setup r) data =>
    ({ lastControl := r, file := g.file ++ asked r data },
      if r.hasData then
        let bytes := data.map (·.take r.wLength.toNat)
        { rc := CONTROL_REQUEST_SETUP, setupPacket := r, nbytes := bytes.elim (-1) (·.length)
          dataptr := some ((bytes.getD []).takeD r.wLength.toNat 0) }
      else { rc := CONTROL_REQUEST_SETUP, setupPacket := r, nbytes := 0, dataptr := none })
  | .event e _ =>
    ({ g with file := g.file ++ [.event e] },
      { rc := match e with
          | .connect => CONTROL_REQUEST_CONNECT
          | .disconnect => CONTROL_REQUEST_DISCONNECT
          | _ => 0
        setupPacket := { setupPacket with bRequest := 0 }, nbytes, dataptr })

/-- The call that concludes `r` with `a`: a `read` acknowledges what the host sent and stalls what it wants
to read, a `write` of no bytes the other way about. -/
def conclusion (r : CtrlRequest) : Answer → FileOp
  | .sendData bytes => .write bytes
  | .controlAck => if r.deviceToHost then .write [] else .readNothing
  | .stallEp => if r.deviceToHost then .readNothing else .write []

/-- `send_data(0, ..)`, `control_ack` or `stall_ep(0)`. -/
def answer (g : Gadget) (a : Answer) : Gadget :=
  { g with file := g.file ++ [conclusion g.lastControl a] }

end Gadget

/-! ## The relay on the gadget -/

/-- The relay of endpoint 0, the gadget proxy and the reader's `ctrl_req`. -/
structure ControlGadget where
  relay : ControlRelay
  gadget : Gadget
  ctrlReq : CtrlRequest

/-- `control_request` with what the system answers, or another move of the relay. -/
inductive ControlGadgetMove
  | request (p : Poll)
  | relay (m : ControlMove)
  deriving DecidableEq, Repr

namespace ControlGadget

/-- Before the first request `ctrl_req` and `lastControl` hold whatever was in memory. -/
def new (filters : List Plugin) (length : ℤ) (device : Device) (ctrlReq lastControl : CtrlRequest) :
    ControlGadget where
  relay := .new filters length device
  gadget := { lastControl, file := [] }
  ctrlReq

/-- The reply a step of the relay gives the host. -/
def replied (before after : ControlRelay) : Option Answer :=
  match after.log.drop before.log.length with
  | [.reply _ a] => some a
  | _ => none

def step (s : ControlGadget) : ControlGadgetMove → Option ControlGadget
  | .request p =>
    let (gadget, ret) := s.gadget.controlRequest s.ctrlReq 0 none p
    (s.relay.hostRequest ret.hostRequest).map fun relay =>
      { relay, gadget, ctrlReq := ret.setupPacket }
  | .relay m =>
    match m with
    | .hostRequest _ | .sendComplete false => none
    | m =>
      (s.relay.step m).map fun relay =>
        { s with
          relay, gadget := match replied s.relay relay with
            | none => s.gadget
            | some a => s.gadget.answer a }

/-- The file follows the log of the relay: what is read of a request when none is open, and its conclusion
before anything else; connects, disconnects and suspends come in between. -/
inductive Follows : List ControlEvent → List FileOp → Option CtrlRequest → Prop
  | nil : Follows [] [] none
  | event {log : List ControlEvent} {file : List FileOp} (h : Follows log file none)
      (e : GadgetEvent) (he : ∀ r, e ≠ .setup r) : Follows log (file ++ [.event e]) none
  | request {log : List ControlEvent} {file : List FileOp} (h : Follows log file none) (k : ℕ)
      (r : CtrlRequest) (data : Option (List Byte)) :
      Follows (log ++ [.request k r]) (file ++ Gadget.asked r data) (some r)
  | reply {log : List ControlEvent} {file : List FileOp} {r : CtrlRequest}
      (h : Follows log file (some r)) (origin : Origin) (a : Answer) :
      Follows (log ++ [.reply origin a]) (file ++ [Gadget.conclusion r a]) none

/-! ## One step -/

/-- The move of the relay in a move of the system. -/
def under (s : ControlGadget) : ControlGadgetMove → ControlMove
  | .request p => .hostRequest (s.gadget.controlRequest s.ctrlReq 0 none p).2.hostRequest
  | .relay m => m

variable {s t : ControlGadget} {m : ControlGadgetMove} {log : List ControlEvent}
  {file : List FileOp} {r : CtrlRequest}

/-- All a step can do. -/
inductive Step (s : ControlGadget) : ControlGadgetMove → ControlGadget → Prop
  | request {p : Poll} {relay : ControlRelay}
      (h : s.relay.hostRequest (s.gadget.controlRequest s.ctrlReq 0 none p).2.hostRequest =
        some relay) :
      Step s (.request p)
        { relay, gadget := (s.gadget.controlRequest s.ctrlReq 0 none p).1
          ctrlReq := (s.gadget.controlRequest s.ctrlReq 0 none p).2.setupPacket }
  | relay {m : ControlMove} {relay : ControlRelay} (hm : ∀ rc, m ≠ .hostRequest rc)
      (h : s.relay.step m = some relay) :
      Step s (.relay m)
        { s with
          relay, gadget := match replied s.relay relay with
            | none => s.gadget
            | some a => s.gadget.answer a }

theorem step_cases (h : s.step m = some t) : Step s m t := by
  cases m with
  | request p =>
    obtain ⟨relay, hrelay, rfl⟩ := Option.map_eq_some_iff.1 h
    exact .request hrelay
  | relay m =>
    have hstep : (∀ rc, m ≠ .hostRequest rc) ∧ (s.relay.step m).map (fun relay =>
        { s with
          relay, gadget := match replied s.relay relay with
            | none => s.gadget
            | some a => s.gadget.answer a }) = some t := by
      cases m with
      | hostRequest rc => cases h
      | sendComplete done =>
        cases done with
        | false => cases h
        | true => exact ⟨fun _ => ControlMove.noConfusion, h⟩
      | _ => exact ⟨fun _ => ControlMove.noConfusion, h⟩
    obtain ⟨relay, hrelay, rfl⟩ := Option.map_eq_some_iff.1 hstep.2
    exact .relay hstep.1 hrelay

theorem step_under (h : s.step m = some t) : s.relay.step (s.under m) = some t.relay := by
  cases step_cases h with
  | request hrelay => exact hrelay
  | relay _ hrelay => exact hrelay

theorem hostRequest_ne_setup {ret : ControlReturn} (h : ret.rc ≠ CONTROL_REQUEST_SETUP)
    (r : CtrlRequest) (buf : Option (List Byte)) : ret.hostRequest ≠ .setup r buf := by
  unfold ControlReturn.hostRequest
  rw [if_neg h]
  split_ifs <;> exact HostRequest.noConfusion

/-- All `control_request` can do: read nothing, read an event that is not a request, or read a request and
its data. -/
theorem controlRequest_cases (g : Gadget) (setupPacket : CtrlRequest) (p : Poll) :
    (∃ ret, g.controlRequest setupPacket 0 none p = (g, ret) ∧ ret.hostRequest = .other) ∨
      (∃ e ret, (∀ r, e ≠ .setup r) ∧ (∀ r buf, ret.hostRequest ≠ .setup r buf) ∧
        g.controlRequest setupPacket 0 none p = ({ g with file := g.file ++ [.event e] }, ret)) ∨
      ∃ r data ret, ret.hostRequest = .setup r (if r.hasData then some (r.block data) else none) ∧
        g.controlRequest setupPacket 0 none p =
          ({ lastControl := r, file := g.file ++ Gadget.asked r data }, ret) := by
  cases p with
  | nothing => exact .inl ⟨_, rfl, rfl⟩
  | failed => exact .inl ⟨_, rfl, rfl⟩
  | less => exact .inl ⟨_, rfl, rfl⟩
  | event e data =>
    cases e with
    | setup r =>
      refine .inr (.inr ⟨r, data, _, ?_, rfl⟩)
      cases r.hasData <;> rfl
    | connect =>
      exact .inr (.inl ⟨.connect, _, fun _ => GadgetEvent.noConfusion,
        hostRequest_ne_setup (show (3 : ℤ) ≠ 1 by decide), rfl⟩)
    | disconnect =>
      exact .inr (.inl ⟨.disconnect, _, fun _ => GadgetEvent.noConfusion,
        hostRequest_ne_setup (show (2 : ℤ) ≠ 1 by decide), rfl⟩)
    | nop | suspend | unknown =>
      exact .inr (.inl ⟨_, _, fun _ => GadgetEvent.noConfusion,
        hostRequest_ne_setup (show (0 : ℤ) ≠ 1 by decide), rfl⟩)

theorem log_hostRequest {s t : ControlRelay} {rc : HostRequest} (h : s.hostRequest rc = some t) :
    (∀ r buf, rc = .setup r buf → t.log = s.log ++ [.request s.count r]) ∧
      ((∀ r buf, rc ≠ .setup r buf) → t.log = s.log) := by
  unfold ControlRelay.hostRequest at h
  split_ifs at h
  cases h
  cases rc with
  | setup r buf =>
    refine ⟨fun r' buf' heq => ?_, fun hne => absurd rfl (hne r buf)⟩
    cases heq
    rfl
  | disconnect | connect | other => exact ⟨fun _ _ => nofun, fun _ => rfl⟩

theorem log_step {s t : ControlRelay} {m : ControlMove} (h : s.step m = some t)
    (hm : ∀ rc, m ≠ .hostRequest rc) :
    t.log = s.log ∨ ∃ p origin, s.reader.pc = .dequeued (.setup p origin) ∧
      t = { s with
        reader := { s.reader with pc := .replied, p := some p }
        log := s.log ++ [.reply origin p.answer] } := by
  cases m with
  | hostRequest rc => exact absurd rfl (hm rc)
  | read =>
    cases ControlRelay.read_step h with
    | @reply p origin hpc => exact .inr ⟨p, origin, hpc, rfl⟩
    | stop | listen | await | again | accept | pass | handOn | take | skip | settle => exact .inl rfl
  | sendComplete done =>
    simp only [ControlRelay.step, ControlRelay.sendComplete] at h
    split_ifs at h <;> cases h <;> exact .inl rfl
  | write | transfer | injectSetup | injectPacket | stopReader | wakeReader | stopWriter |
    wakeWriter =>
    exact .inl (ControlRelay.step_aside h (by simp) (by simp) (by simp)).log

theorem replied_of_same {s t : ControlRelay} (h : t.log = s.log) : replied s t = none := by
  unfold replied
  rw [h, List.drop_length]

theorem replied_of_reply {s t : ControlRelay} {origin : Origin} {a : Answer}
    (h : t.log = s.log ++ [.reply origin a]) : replied s t = some a := by
  unfold replied
  rw [h, List.drop_left]

/-! ## The dialogue on the file -/

theorem Follows.some (h : Follows log file (some r)) : ∃ front k, log = front ++ [.request k r] := by
  cases h with
  | request _ k _ _ => exact ⟨_, k, rfl⟩

theorem Follows.none (h : Follows log file none) (front : List ControlEvent) (k : ℕ) :
    log ≠ front ++ [.request k r] := by
  generalize hopen : (Option.none : Option CtrlRequest) = pending at h
  induction h with
  | nil => exact (List.append_ne_nil_of_right_ne_nil _ (List.cons_ne_nil _ _)).symm
  | event _ _ _ ih => exact ih rfl
  | request => cases hopen
  | reply _ origin a =>
    intro heq
    cases List.append_inj_right' heq rfl

/-- What is on the file follows the log, and `lastControl` is the open request. -/
structure Tracks (s : ControlGadget) (pending : Option CtrlRequest) : Prop where
  follows : Follows s.relay.log s.gadget.file pending
  lastControl : ∀ r, pending = some r → s.gadget.lastControl = r

theorem ask_of_turns {front : List (Turn Origin)} {b : Origin}
    (h : log.map ControlEvent.turn = front ++ [.ask b]) :
    ∃ events k r, log = events ++ [.request k r] := by
  obtain ⟨events, last, rfl, -, hlast⟩ := List.map_eq_append_iff.1 h
  obtain ⟨e, rfl, he⟩ := List.map_eq_singleton_iff.1 hlast
  cases e with
  | request k r => exact ⟨events, k, r, rfl⟩
  | reply origin a => cases he

theorem Tracks.open_none {pending : Option CtrlRequest} (h : s.Tracks pending)
    (hturns : ∃ n, s.relay.turns = script .host n) : pending = none := by
  obtain ⟨n, hn⟩ := hturns
  cases pending with
  | none => rfl
  | some r =>
    obtain ⟨front, k, hlog⟩ := h.follows.some
    refine absurd ?_ ((inTurn_asked Origin.host n).of_ask (front.map ControlEvent.turn) (.host k))
    rw [← hn]
    unfold ControlRelay.turns
    rw [hlog, List.map_append]
    rfl

theorem Tracks.request {p : Poll} {relay : ControlRelay} (h : s.Tracks none)
    (hrelay : s.relay.hostRequest (s.gadget.controlRequest s.ctrlReq 0 none p).2.hostRequest =
      some relay) : ∃ pending, Tracks
        { relay, gadget := (s.gadget.controlRequest s.ctrlReq 0 none p).1
          ctrlReq := (s.gadget.controlRequest s.ctrlReq 0 none p).2.setupPacket } pending := by
  rcases controlRequest_cases s.gadget s.ctrlReq p with
    ⟨ret, heq, hret⟩ | ⟨e, ret, he, hret, heq⟩ | ⟨r, data, ret, hret, heq⟩
  · rw [heq] at hrelay ⊢
    have hlog : relay.log = s.relay.log := (log_hostRequest hrelay).2 (by rw [hret]; exact nofun)
    refine ⟨none, ?_, fun _ => nofun⟩
    dsimp only
    rw [hlog]
    exact h.follows
  · rw [heq] at hrelay ⊢
    have hlog : relay.log = s.relay.log := (log_hostRequest hrelay).2 hret
    refine ⟨none, ?_, fun _ => nofun⟩
    dsimp only
    rw [hlog]
    exact h.follows.event e he
  · rw [heq] at hrelay ⊢
    have hlog : relay.log = s.relay.log ++ [.request s.relay.count r] :=
      (log_hostRequest hrelay).1 r _ hret
    refine ⟨some r, ?_, fun _ => Option.some.inj⟩
    dsimp only
    rw [hlog]
    exact h.follows.request _ r data

/-- A step of the relay: a reply it gives concludes the open request. -/
theorem Tracks.relay {pending : Option CtrlRequest} {m : ControlMove} {relay : ControlRelay}
    (h : s.Tracks pending) (hturns : InTurn Origin.host relay.turns)
    (hrelay : s.relay.step m = some relay) (hm : ∀ rc, m ≠ .hostRequest rc) :
    ∃ pending', Tracks
      { s with
        relay, gadget := match replied s.relay relay with
          | none => s.gadget
          | some a => s.gadget.answer a } pending' := by
  rcases log_step hrelay hm with hlog | ⟨p, origin, -, hlog⟩
  · rw [replied_of_same hlog]
    refine ⟨pending, ?_, h.lastControl⟩
    dsimp only
    rw [hlog]
    exact h.follows
  · replace hlog := congrArg ControlRelay.log hlog
    rw [replied_of_reply hlog]
    -- A reply comes directly behind a request, so that one is open.
    have hopen : pending ≠ none := by
      rintro rfl
      have hanswer : relay.turns = s.relay.turns ++ [.answer origin] := by
        unfold ControlRelay.turns
        rw [hlog, List.map_append]
        rfl
      rw [hanswer] at hturns
      obtain ⟨front, b, hask⟩ := hturns.of_answer
      obtain ⟨events, k, r, hlog'⟩ := ask_of_turns hask
      exact h.follows.none events k hlog'
    obtain ⟨r, rfl⟩ := Option.ne_none_iff_exists'.1 hopen
    refine ⟨none, ?_, fun _ => nofun⟩
    dsimp only
    unfold Gadget.answer
    rw [hlog, h.lastControl r rfl]
    exact h.follows.reply origin p.answer

/-- What one step keeps. -/
structure InDialogue (s : ControlGadget) : Prop where
  clean : s.relay.Clean
  stage : s.relay.Stage
  tracks : ∃ pending, s.Tracks pending

theorem InDialogue.step (h : s.step m = some t) (hd : s.relay.DropsInjected (s.under m))
    (hs : s.InDialogue) : t.InDialogue := by
  have hrelay := step_under h
  have hclean := ControlRelay.step_clean hrelay hd hs.clean
  have hstage := ControlRelay.step_stage hrelay hs.clean hs.stage
  obtain ⟨pending, htracks⟩ := hs.tracks
  refine ⟨hclean, hstage, ?_⟩
  cases step_cases h with
  | @request p relay hrequest =>
    have hpc : s.relay.reader.pc = .requesting := by
      unfold ControlRelay.hostRequest at hrequest
      split_ifs at hrequest with hpc
      exact hpc
    have hidle : s.relay.Idle := by
      have := hs.stage
      unfold ControlRelay.Stage at this
      rwa [hpc] at this
    obtain rfl := htracks.open_none ⟨_, hidle.turns⟩
    exact htracks.request hrequest
  | relay hm hstep => exact htracks.relay hstage.inTurn hstep hm

/-- **The dialogue on the device file.**  In every interleaving in which the writer discards whatever setup
packet an injector puts in: what passes through the device file is, request for request, what the relay has
in its log.  Each setup event is followed by the data that comes with it and then, before the next event is
read, by one call that gives the reply the relay has logged for this request, in the request's own direction;
connects, disconnects and suspends are read only when no request is open. -/
theorem file_follows (filters : List Plugin) (length : ℤ) (device : Device)
    (ctrlReq lastControl : CtrlRequest) (moves : List ControlGadgetMove) (s : ControlGadget)
    (hrun : Runs.run step (new filters length device ctrlReq lastControl) moves = some s)
    (hdrop : Runs.Along step (fun t m => t.relay.DropsInjected (t.under m))
      (new filters length device ctrlReq lastControl) moves) :
    InTurn Origin.host s.relay.turns ∧ ∃ pending, Follows s.relay.log s.gadget.file pending ∧
      ∀ r, pending = some r → s.gadget.lastControl = r := by
  have hs : s.InDialogue :=
    Runs.invariant_of_along InDialogue (fun _ _ _ h hd hs => hs.step h hd) hdrop hrun
      ⟨ControlRelay.clean_new filters length device, ControlRelay.stage_new filters length device,
        none, .nil, fun _ => nofun⟩
  obtain ⟨pending, hfollows, hlast⟩ := hs.tracks
  exact ⟨hs.stage.inTurn, pending, hfollows, hlast⟩

/-- A class request with two bytes of data. -/
def setReport : CtrlRequest :=
  { bRequestType := 0x21, bRequest := 9, wValue := 0x0200, wIndex := 0, wLength := 2 }

/-- The host connects and sends a request with data, which the device accepts. -/
def reportSent : List ControlGadgetMove :=
  [.relay .read, .request (.event .connect none), .relay .read, .relay .read,
    .request (.event (.setup setReport) (some [1, 2])), .relay .read, .relay .read, .relay .read,
    .relay .write, .relay .write, .relay .write, .relay (.transfer (.success [])), .relay .write,
    .relay .read, .relay .read]

theorem file_follows_reportSent :
    ∃ s, Runs.run step (new [] 0 .bare setReport setReport) reportSent = some s ∧
      s.gadget.file = [.event .connect, .event (.setup setReport), .readData 2 (some [1, 2]),
        .readNothing] ∧
      ∃ pending, Follows s.relay.log s.gadget.file pending := by
  obtain ⟨-, pending, hfollows, -⟩ :=
    file_follows [] 0 .bare setReport setReport reportSent _ rfl (by decide)
  exact ⟨_, rfl, rfl, pending, hfollows⟩

end ControlGadget

end UsbProxy
