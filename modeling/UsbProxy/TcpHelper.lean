import UsbProxy.Library.Visits
import UsbProxy.Packet

/-!
# Opening TCP connections

`TCP_Helper` has a port for every endpoint and three tables with an entry for each of them.  A server
listens and accepts, a client connects without blocking, and `open_endpoints` does as much of it as it
can before its timeout.  What the socket calls answer is an argument of each operation.
-/

namespace UsbProxy

open Visits

def ETIMEDOUT : ℕ := 110

/-- The port of an endpoint address.  The tables of the source have 32 entries, enough for addresses without
reserved bits; here there is one for every number. -/
def portOf (ep : Byte) : ℕ := if ep &&& 0x80 ≠ 0 then ((ep &&& 0xf) ||| 0x10).toNat else ep.toNat

/-- One port in the tables: whether `ep_listener` and `ep_socket` are not 0, and `ep_connect`.  Whatever
is closed is set to 0, so a socket that is not 0 is open. -/
structure EpPort where
  listener : Bool
  socket : Bool
  connect : Bool
  deriving DecidableEq, Repr

structure TcpHelper where
  server : Bool
  ports : ℕ → EpPort

def TcpHelper.new (server : Bool) : TcpHelper := { server, ports := fun _ => ⟨false, false, false⟩ }

/-! ## A client's port -/

/-- What `socket` and `connect` answer. -/
inductive CreateOutcome
  | noSocket
  | refused
  | immediate
  | inProgress

/-- What `poll` finds at the socket of a client. -/
inductive PollOutcome
  | timeout
  | hangup
  | writable
  | other

structure ConnectOutcome where
  create : CreateOutcome
  poll : PollOutcome

/-- The end of `client_connect`. -/
def EpPort.awaitConnect (e : EpPort) : PollOutcome → EpPort × ℤ
  | .timeout => (e, ETIMEDOUT)
  | .hangup => ({ e with socket := false }, ETIMEDOUT)
  | .writable => ({ e with connect := true }, 0)
  | .other => (e, -1)

/-- `client_connect`; the socket of a refused connection is not kept. -/
def EpPort.clientConnect (e : EpPort) (o : ConnectOutcome) : EpPort × ℤ :=
  if e.connect && e.socket then (e, 0)
  else if e.socket then e.awaitConnect o.poll
  else
    match o.create with
    | .noSocket | .refused => (e, -1)
    | .immediate => ({ e with socket := true, connect := true }, 0)
    | .inProgress => EpPort.awaitConnect { e with socket := true, connect := false } o.poll

/-- The first pass of `client_open_endpoints` at an endpoint, and whether it is left to poll. -/
def EpPort.clientStart (e : EpPort) (o : ConnectOutcome) : EpPort × Bool :=
  if e.connect then (e, false)
  else
    let e' := if e.socket then e else (e.clientConnect o).1
    (e', !e'.connect)

/-- What `poll` says of one of several sockets. -/
inductive Revents
  | hangup
  | ready
  | other

/-- The second pass at one entry, and whether it connected.  No events are asked for at an entry that was
allocated and not filled. -/
def EpPort.clientPolled (e : EpPort) (o : Bool × Revents × ConnectOutcome) : EpPort × Bool :=
  match o.2.1 with
  | .hangup => ({ e with socket := false }, false)
  | .ready =>
    if o.1 then
      let r := e.clientConnect o.2.2
      (r.1, r.2 == 0)
    else (e, false)
  | .other => (e, false)

/-! ## A server's port -/

def EpPort.serverListen (e : EpPort) (listens : Bool) : EpPort :=
  if e.listener then e
  else if listens then { e with connect := false, listener := true }
  else e

/-- What `poll` and `accept` answer. -/
inductive AcceptOutcome
  | timeout
  | failed
  | accepted

/-- `server_connect`; nothing is accepted where nothing listens. -/
def EpPort.serverConnect (e : EpPort) : AcceptOutcome → EpPort × ℤ
  | .timeout => (e, ETIMEDOUT)
  | .failed => (e, -1)
  | .accepted => if e.listener then ({ e with socket := true, connect := true }, 0) else (e, -1)

/-- The first pass of `server_open_endpoints`. -/
def EpPort.serverStart (e : EpPort) (listens : Bool) : EpPort × Bool :=
  if e.connect then (e, false) else (e.serverListen listens, true)

/-- The second pass. -/
def EpPort.serverPolled (e : EpPort) (o : Bool × Revents × AcceptOutcome) : EpPort × Bool :=
  match o.2.1 with
  | .ready =>
    if o.1 then
      let r := e.serverConnect o.2.2
      (r.1, r.2 == 0)
    else (e, false)
  | .hangup | .other => (e, false)

/-! ## `open_endpoints` -/

/-- What the environment answers to one call: at each endpoint of the first pass, whether `poll` returns
before the timeout, and at each of its entries. -/
structure OpenAnswers (A B : Type) where
  starts : ℕ → A
  ready : Bool
  polls : ℕ → B

/-- The entries for `poll`, as many as were counted: an endpoint that is not connected, or zeros. -/
def pollEntries (ports : List ℕ) (t : ℕ → EpPort) (pollCount : ℕ) : List (ℕ × Bool) :=
  let filled := (ports.filter fun p => !(t p).connect).map (·, true)
  filled ++ List.replicate (pollCount - filled.length) (0, false)

/-- The two passes with `poll` between them; only a client returns early when nothing is left to poll. -/
def openEndpointsWith {A B : Type} (start : EpPort → A → EpPort × Bool)
    (polled : EpPort → Bool × B → EpPort × Bool) (returnsEarly : Bool) (eps : List Byte)
    (o : OpenAnswers A B) (t : ℕ → EpPort) : (ℕ → EpPort) × ℕ :=
  let ports := eps.map portOf
  let started := visitEach start (answered o.starts ports) t
  if returnsEarly && started.2 == 0 then (started.1, 0)
  else if o.ready then
    let entries := answered o.polls (pollEntries ports started.1 started.2)
    let r := visitEach polled (entries.map fun e => (e.1.1, e.1.2, e.2)) started.1
    (r.1, started.2 - r.2)
  else (started.1, ETIMEDOUT)

def clientOpenEndpoints := openEndpointsWith EpPort.clientStart EpPort.clientPolled true

def serverOpenEndpoints := openEndpointsWith EpPort.serverStart EpPort.serverPolled false

/-- The answers to a call in either role. -/
structure TcpAnswers where
  client : OpenAnswers ConnectOutcome (Revents × ConnectOutcome)
  server : OpenAnswers Bool (Revents × AcceptOutcome)

namespace TcpHelper

/-- `open_endpoints`: the tables afterwards and the result. -/
def openEndpoints (s : TcpHelper) (eps : List Byte) (o : TcpAnswers) : TcpHelper × ℕ :=
  let r := if s.server then serverOpenEndpoints eps o.server s.ports
    else clientOpenEndpoints eps o.client s.ports
  ({ s with ports := r.1 }, r.2)

/-- The loop in `setConfig` of either proxy: calls until one returns 0, `none` if none of these does. -/
def openAll (eps : List Byte) : List TcpAnswers → TcpHelper → Option TcpHelper
  | [], _ => none
  | o :: os, s =>
    let r := s.openEndpoints eps o
    if 0 < r.2 then openAll eps os r.1 else some r.1

/-- `connect`, which is about port 0. -/
def connect (s : TcpHelper) (listens : Bool) (accept : AcceptOutcome) (client : ConnectOutcome) :
    TcpHelper :=
  let e := s.ports 0
  let e' :=
    if s.server then
      let listening := e.serverListen listens
      if listening.listener then (listening.serverConnect accept).1 else listening
    else (e.clientConnect client).1
  { s with ports := Function.update s.ports 0 e' }

/-- `disconnect` sets listeners and sockets to 0. -/
def disconnect (s : TcpHelper) : TcpHelper :=
  { s with ports := fun p =>
      if p < 32 then { s.ports p with listener := false, socket := false } else s.ports p }

/-- A call with what the environment answers. -/
inductive Call
  | connect (listens : Bool) (accept : AcceptOutcome) (client : ConnectOutcome)
  | openEndpoints (eps : List Byte) (answers : TcpAnswers)
  | disconnect

def step (s : TcpHelper) : Call → TcpHelper
  | .connect listens accept client => s.connect listens accept client
  | .openEndpoints eps answers => (s.openEndpoints eps answers).1
  | .disconnect => s.disconnect

def after (server : Bool) (calls : List Call) : TcpHelper := calls.foldl step (.new server)

end TcpHelper

/-! ## What one port keeps -/

/-- On a server what is not connected has no socket, and a socket comes from a listener. -/
structure EpPort.Served (e : EpPort) : Prop where
  connect_of_socket : e.socket = true → e.connect = true
  listener_of_socket : e.socket = true → e.listener = true

namespace EpPort

variable {e : EpPort}

theorem Served.serverListen (h : e.Served) (listens : Bool) : (e.serverListen listens).Served := by
  unfold EpPort.serverListen
  split_ifs with hlistener
  · exact h
  · have hsocket : e.socket ≠ true := fun hs => hlistener (h.listener_of_socket hs)
    exact ⟨fun hs => absurd hs hsocket, fun hs => absurd hs hsocket⟩
  · exact h

theorem Served.serverConnect (h : e.Served) (o : AcceptOutcome) : (e.serverConnect o).1.Served := by
  cases o with
  | timeout => exact h
  | failed => exact h
  | accepted =>
    unfold EpPort.serverConnect
    dsimp only
    split_ifs with hlistener
    · exact ⟨fun _ => rfl, fun _ => hlistener⟩
    · exact h

theorem Served.serverStart (h : e.Served) (listens : Bool) : (e.serverStart listens).1.Served := by
  unfold EpPort.serverStart
  split_ifs
  · exact h
  · exact h.serverListen listens

theorem Served.serverPolled (h : e.Served) (o : Bool × Revents × AcceptOutcome) :
    (e.serverPolled o).1.Served := by
  obtain ⟨asked, revents, accept⟩ := o
  cases revents with
  | hangup => exact h
  | other => exact h
  | ready =>
    unfold EpPort.serverPolled
    dsimp only
    split_ifs
    · exact h.serverConnect accept
    · exact h

end EpPort

theorem openEndpointsWith_invariant {A B : Type} {start : EpPort → A → EpPort × Bool}
    {polled : EpPort → Bool × B → EpPort × Bool} {I : EpPort → Prop}
    (hstart : ∀ e a, I e → I (start e a).1) (hpolled : ∀ e b, I e → I (polled e b).1)
    (returnsEarly : Bool) (eps : List Byte) (o : OpenAnswers A B) {t : ℕ → EpPort}
    (ht : ∀ p, I (t p)) (p : ℕ) : I ((openEndpointsWith start polled returnsEarly eps o t).1 p) := by
  have hstarted : ∀ p, I ((visitEach start (answered o.starts (eps.map portOf)) t).1 p) :=
    fun p => visitEach_invariant (fun x _ e he => hstart e x.2 he) (ht p)
  unfold openEndpointsWith
  dsimp only
  split_ifs
  · exact hstarted p
  · exact visitEach_invariant (fun x _ e he => hpolled e x.2 he) (hstarted p)
  · exact hstarted p

namespace TcpHelper

theorem openEndpoints_server (s : TcpHelper) (eps : List Byte) (o : TcpAnswers) :
    (s.openEndpoints eps o).1.server = s.server := rfl

/-- Every port of a server is `Served`. -/
def Serves (s : TcpHelper) : Prop := s.server = true → ∀ p, (s.ports p).Served

theorem Serves.openEndpoints {s : TcpHelper} (h : s.Serves) (eps : List Byte) (o : TcpAnswers) :
    (s.openEndpoints eps o).1.Serves := by
  intro hserver p
  rw [openEndpoints_server] at hserver
  unfold TcpHelper.openEndpoints
  simp only [hserver, if_true]
  exact openEndpointsWith_invariant (fun e a he => he.serverStart a) (fun e b he => he.serverPolled b)
    false eps o.server (h hserver) p

theorem Serves.connect {s : TcpHelper} (h : s.Serves) (listens : Bool) (accept : AcceptOutcome)
    (client : ConnectOutcome) : (s.connect listens accept client).Serves := by
  intro hserver p
  replace hserver : s.server = true := hserver
  unfold TcpHelper.connect
  simp only [hserver, if_true]
  by_cases hp : p = 0
  · have hlisten := (h hserver 0).serverListen listens
    rw [hp, Function.update_self]
    split_ifs
    · exact hlisten.serverConnect accept
    · exact hlisten
  · rw [Function.update_of_ne hp]
    exact h hserver p

theorem Serves.disconnect {s : TcpHelper} (h : s.Serves) : s.disconnect.Serves := by
  intro hserver p
  unfold TcpHelper.disconnect
  dsimp only
  split_ifs
  · exact ⟨fun hs => Bool.noConfusion hs, fun hs => Bool.noConfusion hs⟩
  · exact h hserver p

theorem Serves.step {s : TcpHelper} (h : s.Serves) (c : Call) : (s.step c).Serves := by
  cases c with
  | connect listens accept client => exact h.connect listens accept client
  | openEndpoints eps answers => exact h.openEndpoints eps answers
  | disconnect => exact h.disconnect

end TcpHelper

end UsbProxy
