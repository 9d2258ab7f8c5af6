import Mathlib.Data.List.Flatten
import UsbProxy.InjectorRouting
import UsbProxy.RelayDelivery

/-!
# All data endpoints at once

The readers and writers that `start_data_relaying` makes run as threads of their own, each on the queue its
object refers to, and the injectors put packets into the queues their arrays lead to.  `plane_refines` says
that every endpoint goes through a run of `DataRelay` of its own: the moves of its two threads, and those of
the injected packets that carry its address and come from an injector that wants it.

The plugin objects are shared between the writers, so a step of a writer finds its filters in any state.
Setup packets that an injector gives are for the relay of endpoint 0 and no moves of the plane.
-/

namespace UsbProxy

/-- A move that is a reader's: its own or a stop. -/
def DataMove.ofReader : DataMove → Bool
  | .read | .receive .. | .stopReader => true
  | _ => false

/-- A move that is a writer's: its own or a stop, which wakes it up by its queue. -/
def DataMove.ofWriter : DataMove → Bool
  | .write | .waitComplete _ | .stopWriter | .wakeWriter => true
  | _ => false

structure DataPlane where
  rows : EndpointPlace → EndpointRow
  injectors : List Injector
  readers : EndpointPlace → DataReader
  writers : EndpointPlace → DataWriter
  queues : QueueId → Traffic
  /-- What the injectors put into the queues of endpoint 0. -/
  control : List (Direction × Packet)
  /-- What they got back by `full_pipe`, with their numbers. -/
  returned : List (ℕ × Packet)

/-- A thread of a place goes on, a writer with its filters as it finds them, or an injector gets a packet
from `get_packets`. -/
inductive PlaneMove
  | reader (place : EndpointPlace) (m : DataMove)
  | writer (place : EndpointPlace) (m : DataMove) (filters : List Plugin)
  | inject (i : ℕ) (p : Packet)

namespace DataPlane

def start (device : UsbDeviceDescriptor) (injectors : List Criteria) (setup : RelaySetup) :
    DataPlane where
  rows := setup.tables.rows
  injectors := List.zipWith (fun c calls => (Injector.controlled device c).attach calls) injectors
    setup.injectorQueues
  readers _ := (DataRelay.new 0 []).reader
  writers _ := (DataRelay.new 0 []).writer
  queues _ := .new
  control := []
  returned := []

/-- What the reader of a place works on. -/
def atReader (s : DataPlane) (place : EndpointPlace) (r : RelayReader) : DataRelay where
  endpoint := r.endpoint
  reader := s.readers place
  writer := s.writers place
  traffic := s.queues r.sendQueue

/-- What the writer of a place works on. -/
def atWriter (s : DataPlane) (place : EndpointPlace) (w : RelayWriter) (filters : List Plugin) :
    DataRelay where
  endpoint := w.endpoint
  reader := s.readers place
  writer := { s.writers place with filters }
  traffic := s.queues w.recvQueue

/-- The threads of endpoint 0 are those of the control relay. -/
def step (charSigned : Bool) (s : DataPlane) : PlaneMove → Option DataPlane
  | .reader place m =>
    if place ∉ places ∨ !m.ofReader then none
    else (s.rows place).reader.bind fun r =>
      ((s.atReader place r).step charSigned m).map fun relay =>
        { s with
          readers := Function.update s.readers place relay.reader
          queues := Function.update s.queues r.sendQueue relay.traffic }
  | .writer place m filters =>
    if place ∉ places ∨ !m.ofWriter then none
    else (s.rows place).writer.bind fun w =>
      ((s.atWriter place w filters).step charSigned m).map fun relay =>
        { s with
          writers := Function.update s.writers place relay.writer
          queues := Function.update s.queues w.recvQueue relay.traffic }
  | .inject i p => s.injectors[i]?.map fun injector =>
    match injector.queueOf p with
    | some (.data queue) => { s with queues := Function.update s.queues queue ((s.queues queue).inject p) }
    | some (.control direction) => { s with control := s.control ++ [(direction, p)] }
    | none => { s with returned := s.returned ++ [(i, p)] }

/-! ## The wiring -/

/-- One queue for the two threads of a place and none for two places, and arrays that lead there. -/
structure Wired (s : DataPlane) : Prop where
  shared : ∀ place, place.number ≠ 0 → ∀ w, (s.rows place).writer = some w →
    ∃ r, (s.rows place).reader = some r ∧ r.sendQueue = w.recvQueue ∧ r.endpoint = w.endpoint
  apart : ∀ place place', place.number ≠ 0 → place'.number ≠ 0 → ∀ r r',
    (s.rows place).reader = some r → (s.rows place').reader = some r' →
      r.sendQueue = r'.sendQueue → place = place'
  routed : ∀ injector ∈ s.injectors, ∀ place queue, injector.queues place = some (.data queue) →
    place.number ≠ 0 ∧ ∃ r, (s.rows place).reader = some r ∧ r.sendQueue = queue

variable {charSigned : Bool} {s t : DataPlane} {m : PlaneMove} {place place' : EndpointPlace}

/-- All a step can do. -/
inductive Step (charSigned : Bool) (s : DataPlane) : PlaneMove → DataPlane → Prop
  | reader {place : EndpointPlace} {m : DataMove} {r : RelayReader} {relay : DataRelay}
      (hp : place.number ≠ 0) (hm : m.ofReader = true) (hr : (s.rows place).reader = some r)
      (h : (s.atReader place r).step charSigned m = some relay) :
      Step charSigned s (.reader place m)
        { s with
          readers := Function.update s.readers place relay.reader
          queues := Function.update s.queues r.sendQueue relay.traffic }
  | writer {place : EndpointPlace} {m : DataMove} {filters : List Plugin} {w : RelayWriter}
      {relay : DataRelay} (hp : place.number ≠ 0) (hm : m.ofWriter = true)
      (hw : (s.rows place).writer = some w)
      (h : (s.atWriter place w filters).step charSigned m = some relay) :
      Step charSigned s (.writer place m filters)
        { s with
          writers := Function.update s.writers place relay.writer
          queues := Function.update s.queues w.recvQueue relay.traffic }
  | data {i : ℕ} {p : Packet} {injector : Injector} {queue : QueueId}
      (hi : s.injectors[i]? = some injector) (hq : injector.queueOf p = some (.data queue)) :
      Step charSigned s (.inject i p)
        { s with queues := Function.update s.queues queue ((s.queues queue).inject p) }
  | control {i : ℕ} {p : Packet} {injector : Injector} {direction : Direction}
      (hi : s.injectors[i]? = some injector) (hq : injector.queueOf p = some (.control direction)) :
      Step charSigned s (.inject i p) { s with control := s.control ++ [(direction, p)] }
  | returned {i : ℕ} {p : Packet} {injector : Injector} (hi : s.injectors[i]? = some injector)
      (hq : injector.queueOf p = none) :
      Step charSigned s (.inject i p) { s with returned := s.returned ++ [(i, p)] }

theorem step_cases (h : s.step charSigned m = some t) : Step charSigned s m t := by
  cases m with
  | reader place m =>
    simp only [step] at h
    split_ifs at h with hguard
    rw [not_or, not_not, mem_places, Bool.not_eq_true', Bool.not_eq_false] at hguard
    obtain ⟨r, hr, h⟩ := Option.bind_eq_some_iff.1 h
    obtain ⟨relay, hrelay, rfl⟩ := Option.map_eq_some_iff.1 h
    exact .reader hguard.1 hguard.2 hr hrelay
  | writer place m filters =>
    simp only [step] at h
    split_ifs at h with hguard
    rw [not_or, not_not, mem_places, Bool.not_eq_true', Bool.not_eq_false] at hguard
    obtain ⟨w, hw, h⟩ := Option.bind_eq_some_iff.1 h
    obtain ⟨relay, hrelay, rfl⟩ := Option.map_eq_some_iff.1 h
    exact .writer hguard.1 hguard.2 hw hrelay
  | inject i p =>
    obtain ⟨injector, hi, rfl⟩ := Option.map_eq_some_iff.1 h
    cases hq : injector.queueOf p with
    | none => exact .returned hi hq
    | some ptr =>
      cases ptr with
      | data queue => exact .data hi hq
      | control direction => exact .control hi hq

theorem step_rows (h : s.step charSigned m = some t) : t.rows = s.rows ∧ t.injectors = s.injectors := by
  cases step_cases h <;> exact ⟨rfl, rfl⟩

theorem Wired.of_same (h : s.Wired) (hrows : t.rows = s.rows) (hinjectors : t.injectors = s.injectors) :
    t.Wired := by
  obtain ⟨hshared, hapart, hrouted⟩ := h
  rw [← hrows] at hshared hapart hrouted
  rw [← hinjectors] at hrouted
  exact ⟨hshared, hapart, hrouted⟩

/-! ## One endpoint -/

/-- The relay of a place, without the filters. -/
def view (s : DataPlane) (place : EndpointPlace) : DataRelay :=
  match (s.rows place).reader with
  | none => .new 0 []
  | some r =>
    { endpoint := r.endpoint
      reader := s.readers place
      writer := { s.writers place with filters := [] }
      traffic := s.queues r.sendQueue }

/-- What a move is to a place. -/
def toward (s : DataPlane) (place : EndpointPlace) : PlaneMove → List DataMove
  | .reader place' m => if place' = place ∧ m.ofReader then [m] else []
  | .writer place' m _ => if place' = place ∧ m.ofWriter then [m] else []
  | .inject i p =>
    match s.injectors[i]?.bind fun injector => injector.queueOf p with
    | some (.data _) => if .ofAddress p.bEndpoint = place then [.inject p] else []
    | _ => []

theorem view_of_reader {r : RelayReader} {reader : DataReader} {writer : DataWriter} {traffic : Traffic}
    (hr : (s.rows place).reader = some r) (hreader : s.readers place = reader)
    (hwriter : { s.writers place with filters := [] } = writer)
    (htraffic : s.queues r.sendQueue = traffic) :
    s.view place = { endpoint := r.endpoint, reader, writer, traffic } := by
  unfold view
  rw [hr]
  dsimp only
  rw [hreader, hwriter, htraffic]

/-- A move of the reader neither looks at the writer nor changes it. -/
theorem step_ofReader {r r' : DataRelay} {m : DataMove} (hm : m.ofReader = true)
    (h : r.step charSigned m = some r') (w : DataWriter) :
    DataRelay.step charSigned { r with writer := w } m = some { r' with writer := w } ∧
      r'.endpoint = r.endpoint := by
  cases m with
  | read =>
    simp only [DataRelay.step, DataRelay.read] at h ⊢
    cases hpc : r.reader.pc <;> simp only [hpc, reduceCtorEq] at h ⊢
    case top => split_ifs at h ⊢ <;> cases h <;> exact ⟨rfl, rfl⟩
    case received buf length =>
      cases buf <;> dsimp only at h ⊢ <;> split_ifs at h ⊢ <;> cases h <;> exact ⟨rfl, rfl⟩
    case testing => split_ifs at h ⊢ <;> cases h <;> exact ⟨rfl, rfl⟩
    case sending => cases h; exact ⟨rfl, rfl⟩
  | receive buf length =>
    simp only [DataRelay.step] at h ⊢
    split_ifs at h ⊢
    cases h
    exact ⟨rfl, rfl⟩
  | stopReader => cases h; exact ⟨rfl, rfl⟩
  | _ => cases hm

theorem filterStage_nil (p : Packet) : (filterStage charSigned Plugin.slot [] p).plugins = [] := by
  unfold filterStage
  split_ifs <;> rfl

/-- A move of the writer comes to the same without filters, and leaves the reader alone. -/
theorem step_ofWriter {r r' : DataRelay} {m : DataMove} (hm : m.ofWriter = true)
    (h : r.step charSigned m = some r') :
    DataRelay.step charSigned { r with writer := { r.writer with filters := [] } } m =
        some { r' with writer := { r'.writer with filters := [] } } ∧
      r'.reader = r.reader ∧ r'.endpoint = r.endpoint := by
  cases m with
  | write =>
    simp only [DataRelay.step, DataRelay.write] at h ⊢
    cases hpc : r.writer.pc <;> simp only [hpc, reduceCtorEq] at h ⊢
    case top => split_ifs at h ⊢ <;> cases h <;> exact ⟨rfl, rfl, rfl⟩
    case dequeuing =>
      obtain ⟨⟨p, traffic⟩, hd, rfl⟩ := Option.map_eq_some_iff.1 h
      rw [hd]
      exact ⟨rfl, rfl, rfl⟩
    case dequeued =>
      cases hp : r.writer.p <;> simp only [hp, filterStage_slot_packet, filterStage_nil] at h ⊢ <;>
        split_ifs at h ⊢ <;> cases h <;> exact ⟨rfl, rfl, rfl⟩
    case filtered =>
      cases hp : r.writer.p <;> simp only [hp] at h ⊢ <;> split_ifs at h ⊢ <;> cases h <;>
        exact ⟨rfl, rfl, rfl⟩
  | waitComplete done =>
    simp only [DataRelay.step] at h ⊢
    split_ifs at h ⊢
    cases h
    exact ⟨rfl, rfl, rfl⟩
  | stopWriter => cases h; exact ⟨rfl, rfl, rfl⟩
  | wakeWriter => cases h; exact ⟨rfl, rfl, rfl⟩
  | _ => cases hm

theorem view_of_ne {q : QueueId} {traffic : Traffic} (hreader : t.readers place = s.readers place)
    (hwriter : t.writers place = s.writers place) (hrows : t.rows = s.rows)
    (hqueues : t.queues = Function.update s.queues q traffic)
    (hq : ∀ r, (s.rows place).reader = some r → r.sendQueue ≠ q) : t.view place = s.view place := by
  unfold view
  rw [hrows, hreader, hwriter, hqueues]
  cases hr : (s.rows place).reader with
  | none => rfl
  | some r =>
    dsimp only
    rw [Function.update_of_ne (hq r hr)]

theorem toward_inject {i : ℕ} {p : Packet} {injector : Injector} (hi : s.injectors[i]? = some injector) :
    s.toward place (.inject i p) = match injector.queueOf p with
      | some (.data _) => if .ofAddress p.bEndpoint = place then [.inject p] else []
      | _ => [] := by
  simp only [toward, hi, Option.bind_some]

theorem run_single {r r' : DataRelay} {m : DataMove} (h : r.step charSigned m = some r') :
    Runs.run (DataRelay.step charSigned) r [m] = some r' := (Runs.run_cons_eq_some _).2 ⟨_, h, rfl⟩

theorem view_reader {m : DataMove} {r : RelayReader} {relay : DataRelay} (hm : m.ofReader = true)
    (hr : (s.rows place).reader = some r)
    (h : (s.atReader place r).step charSigned m = some relay) :
    (s.view place).step charSigned m = some (view
      { s with
        readers := Function.update s.readers place relay.reader
        queues := Function.update s.queues r.sendQueue relay.traffic } place) := by
  obtain ⟨hstep, hendpoint⟩ := step_ofReader hm h { s.writers place with filters := [] }
  rw [view_of_reader hr rfl rfl rfl]
  refine hstep.trans (Option.some_inj.2 (Eq.symm ?_))
  rw [hendpoint]
  exact view_of_reader hr (Function.update_self ..) rfl (Function.update_self ..)

theorem view_writer {m : DataMove} {w : RelayWriter} {filters : List Plugin} {relay : DataRelay}
    (hs : s.Wired) (hp : place.number ≠ 0) (hm : m.ofWriter = true)
    (hw : (s.rows place).writer = some w)
    (h : (s.atWriter place w filters).step charSigned m = some relay) :
    (s.view place).step charSigned m = some (view
      { s with
        writers := Function.update s.writers place relay.writer
        queues := Function.update s.queues w.recvQueue relay.traffic } place) := by
  obtain ⟨r, hr, hqueue, hsame⟩ := hs.shared place hp w hw
  obtain ⟨hstep, hreader, hendpoint⟩ := step_ofWriter hm h
  have hbefore : s.view place = { s.atWriter place w filters with
      writer := { (s.atWriter place w filters).writer with filters := [] } } := by
    rw [view_of_reader hr rfl rfl (congrArg s.queues hqueue), hsame]
    rfl
  rw [hbefore]
  refine hstep.trans (Option.some_inj.2 (Eq.symm ?_))
  have hends : (s.atWriter place w filters).endpoint = r.endpoint := hsame.symm
  rw [hreader, hendpoint, hends]
  refine view_of_reader hr rfl ?_ ?_
  · dsimp only
    rw [Function.update_self]
  · exact (congrArg _ hqueue).trans (Function.update_self ..)

/-- **One step of all is a step of each.**  What a move is to a place takes the relay of the place along. -/
theorem view_step (hs : s.Wired) (hp : place.number ≠ 0) (h : s.step charSigned m = some t) :
    Runs.run (DataRelay.step charSigned) (s.view place) (s.toward place m) = some (t.view place) := by
  cases step_cases h with
  | @reader place' m r relay hp' hm hr hrelay =>
    by_cases hplace : place' = place
    · subst hplace
      rw [show s.toward place' (.reader place' m) = [m] from if_pos ⟨rfl, hm⟩]
      exact run_single (view_reader hm hr hrelay)
    · rw [show s.toward place (.reader place' m) = [] from if_neg fun h => hplace h.1]
      refine Option.some_inj.2 (Eq.symm ?_)
      refine view_of_ne (Function.update_of_ne (Ne.symm hplace) ..) rfl rfl rfl fun r' hr' heq => ?_
      exact hplace (hs.apart place' place hp' hp r r' hr hr' heq.symm)
  | @writer place' m filters w relay hp' hm hw hrelay =>
    by_cases hplace : place' = place
    · subst hplace
      rw [show s.toward place' (.writer place' m filters) = [m] from if_pos ⟨rfl, hm⟩]
      exact run_single (view_writer hs hp hm hw hrelay)
    · rw [show s.toward place (.writer place' m filters) = [] from if_neg fun h => hplace h.1]
      obtain ⟨r, hr, hqueue, -⟩ := hs.shared place' hp' w hw
      refine Option.some_inj.2 (Eq.symm ?_)
      refine view_of_ne rfl (Function.update_of_ne (Ne.symm hplace) ..) rfl rfl fun r' hr' heq => ?_
      exact hplace (hs.apart place' place hp' hp r r' hr hr' (hqueue.trans heq.symm))
  | @data i p injector queue hi hq =>
    obtain ⟨hp', r, hr, hqueue⟩ := hs.routed injector (List.mem_of_getElem? hi) _ _ hq
    rw [toward_inject hi, hq]
    dsimp only
    split_ifs with hplace
    · rw [hplace] at hr
      refine run_single ?_
      rw [view_of_reader hr rfl rfl (congrArg s.queues hqueue)]
      refine Option.some_inj.2 (Eq.symm ?_)
      exact view_of_reader hr rfl rfl ((congrArg _ hqueue).trans (Function.update_self ..))
    · refine Option.some_inj.2 (Eq.symm ?_)
      refine view_of_ne rfl rfl rfl rfl fun r' hr' heq => ?_
      exact hplace (hs.apart _ place hp' hp r r' hr hr' (hqueue.trans heq.symm))
  | @control i p injector direction hi hq =>
    rw [toward_inject hi, hq]
    rfl
  | @returned i p injector hi hq =>
    rw [toward_inject hi, hq]
    rfl

/-! ## From the set-up on -/

section Start

variable {device : UsbDeviceDescriptor} {cfg : Configuration} {filters : List AttachedFilter}
  {injectors : List Criteria} {tables : EndpointTables} {setup : RelaySetup}

theorem endpoint_relayed (place : EndpointPlace) (row : EndpointRow) (filters : List AttachedFilter) :
    ((row.relayed place).withFilters filters).endpoint = row.endpoint := by
  unfold EndpointRow.withFilters EndpointRow.relayed
  split <;> rfl

/-- What `start_data_relaying` leaves: every row settled on a queue of its own, and the calls of
`set_queue` made with these rows. -/
theorem exists_settled (hfull : none ∉ cfg.endpointSlots) (hempty : tables.Empty)
    (hsetup : startDataRelaying device cfg filters injectors tables = some setup) :
    ∃ recorded, Recorded cfg.endpointSlots.reduceOption recorded ∧
      (∀ place, place.number ≠ 0 →
        (setup.tables.rows place).endpoint = (recorded.rows place).endpoint ∧
        Settled device cfg filters place (recorded.rows place).queue (setup.tables.rows place)) ∧
      applyInjectors device cfg setup.tables.rows injectors = some setup.injectorQueues := by
  obtain ⟨recorded, r, hrec, hr, hrows⟩ :=
    exists_startDataRelaying device filters injectors hfull hempty
  obtain rfl := Option.some.inj (hr.symm.trans hsetup)
  refine ⟨recorded, hrec, fun place hp => ?_, ?_⟩
  · rw [hrows place hp]
    exact ⟨endpoint_relayed _ _ _, hrec.settled filters hp⟩
  · unfold startDataRelaying at hr
    obtain ⟨t, -, hr⟩ := Option.bind_eq_some_iff.1 hr
    obtain ⟨rows, -, hr⟩ := Option.bind_eq_some_iff.1 hr
    obtain ⟨rows', -, hr⟩ := Option.bind_eq_some_iff.1 hr
    obtain ⟨queues, hqueues, rfl⟩ := Option.map_eq_some_iff.1 hr
    exact hqueues

/-- The arrays of an injector with these criteria. -/
structure Reaches (device : UsbDeviceDescriptor) (cfg : Configuration)
    (rows : EndpointPlace → EndpointRow) (c : Criteria) (i : Injector) : Prop where
  data : ∀ place, place.number ≠ 0 →
    i.queues place = (wantedQueue device cfg rows c place).map QueuePtr.data
  control : ∀ place queue, place.number = 0 → i.queues place ≠ some (.data queue)

theorem reaches_attach {rows : EndpointPlace → EndpointRow} (hstaffed : Staffed rows) (c : Criteria) :
    Reaches device cfg rows c ((Injector.controlled device c).attach (places.flatMap fun place =>
      (wantedQueue device cfg rows c place).toList.map fun queue => (place.address, queue))) where
  data _ hp := queues_attached hstaffed (applyInjector_eq hstaffed c) hp
  control := by
    rintro ⟨direction, number⟩ queue rfl h
    rw [queues_attached_control hstaffed (applyInjector_eq hstaffed c)] at h
    rcases queues_controlled_control device c direction with hnone | hcontrol
    · rw [hnone] at h
      cases h
    · rw [hcontrol] at h
      cases h

/-- The wiring behind the set-up: the rows, and which injector reaches which endpoint. -/
structure Laid (device : UsbDeviceDescriptor) (cfg : Configuration) (injectors : List Criteria)
    (s : DataPlane) : Prop where
  wired : s.Wired
  addressed : ∀ place, place.number ≠ 0 → ∀ r, (s.rows place).reader = some r →
    EndpointPlace.ofAddress r.endpoint = place
  reached : ∀ (i : ℕ) injector, s.injectors[i]? = some injector →
    ∃ c, injectors[i]? = some c ∧ Reaches device cfg s.rows c injector

theorem laid_start (hfull : none ∉ cfg.endpointSlots) (hempty : tables.Empty)
    (hsetup : startDataRelaying device cfg filters injectors tables = some setup) :
    Laid device cfg injectors (start device injectors setup) := by
  obtain ⟨recorded, hrec, hrows, hcalls⟩ := exists_settled hfull hempty hsetup
  have hsettled := fun place hp => (hrows place hp).2
  have hstaffed : Staffed setup.tables.rows := by
    intro place hp hkept
    have hp := mem_places.1 hp
    rw [(hrows place hp).1, hrec.isSome_endpoint hp] at hkept
    exact (hsettled place hp).writer_iff.2 hkept
  have hreached : ∀ (i : ℕ) injector, (start device injectors setup).injectors[i]? = some injector →
      ∃ c, injectors[i]? = some c ∧ Reaches device cfg setup.tables.rows c injector := by
    intro i injector hi
    rw [applyInjectors_eq hstaffed, Option.some.injEq] at hcalls
    unfold start at hi
    dsimp only at hi
    rw [← hcalls, List.zipWith_map_right, List.zipWith_self, List.getElem?_map] at hi
    obtain ⟨c, hc, rfl⟩ := Option.map_eq_some_iff.1 hi
    exact ⟨c, hc, reaches_attach hstaffed c⟩
  have hshared : ∀ place, place.number ≠ 0 → ∀ w, (setup.tables.rows place).writer = some w →
      ∃ r, (setup.tables.rows place).reader = some r ∧ r.sendQueue = w.recvQueue ∧
        r.endpoint = w.endpoint := by
    intro place hp w hw
    rcases hsettled place hp with ⟨-, -, hnone⟩ | ⟨-, kept, q, -, -, hr, hsome⟩
    · rw [hnone] at hw
      cases hw
    · obtain rfl := Option.some.inj (hw.symm.trans hsome)
      exact ⟨_, hr, rfl, rfl⟩
  refine ⟨⟨hshared, ?apart, ?routed⟩, ?addressed, hreached⟩
  case apart =>
    intro place place' hp hp' r r' hr hr' heq
    have hq := ((hsettled place hp).reader hr).1
    have hq' := ((hsettled place' hp').reader hr').1
    rw [← heq] at hq'
    exact hrec.apart place place' hp hp' _ hq hq'
  case routed =>
    intro injector hmem place queue hqueue
    obtain ⟨i, hi⟩ := List.mem_iff_getElem?.1 hmem
    obtain ⟨c, -, hdata, hcontrol⟩ := hreached i injector hi
    have hp : place.number ≠ 0 := fun hp => hcontrol place queue hp hqueue
    refine ⟨hp, ?_⟩
    rw [hdata place hp] at hqueue
    obtain ⟨q, hq, hsame⟩ := Option.map_eq_some_iff.1 hqueue
    obtain rfl := QueuePtr.data.inj hsame
    unfold wantedQueue at hq
    split_ifs at hq
    obtain ⟨w, hw, rfl⟩ := Option.map_eq_some_iff.1 hq
    obtain ⟨r, hr, hsend, -⟩ := hshared place hp w hw
    exact ⟨r, hr, hsend⟩
  case addressed =>
    intro place hp r hr
    rcases hsettled place hp with ⟨-, hnone, -⟩ | ⟨-, kept, q, -, hkept, hsome, -⟩
    · rw [show (setup.tables.rows place).reader = some r from hr] at hnone
      cases hnone
    · obtain rfl := Option.some.inj (hr.symm.trans hsome)
      rw [(hrows place hp).1, hrec.kept place hp] at hkept
      obtain ⟨slot, hslot, rfl⟩ := Option.map_eq_some_iff.1 hkept
      have hmem := List.mem_of_getLast? hslot
      unfold contenders at hmem
      have hplace := (List.mem_filter.1 hmem).2
      rw [Bool.and_eq_true, beq_iff_eq] at hplace
      exact hplace.2

/-- What the reader of a place is given. -/
def receivedAt (place : EndpointPlace) (endpoint : Byte) : PlaneMove → List Packet
  | .reader place' m => if place' = place then m.arrivals endpoint else []
  | _ => []

/-- What injectors with these criteria inject into a place. -/
def injectedAt (device : UsbDeviceDescriptor) (cfg : Configuration)
    (rows : EndpointPlace → EndpointRow) (injectors : List Criteria) (place : EndpointPlace) :
    PlaneMove → List Packet
  | .inject i p =>
    if .ofAddress p.bEndpoint = place ∧
        (injectors[i]?.any fun c => (wantedQueue device cfg rows c place).isSome) then [p]
    else []
  | _ => []

theorem bEndpoint_of_receivedAt {endpoint : Byte} {p : Packet} (h : p ∈ receivedAt place endpoint m) :
    p.bEndpoint = endpoint := by
  cases m with
  | reader place' m =>
    unfold receivedAt at h
    dsimp only at h
    split_ifs at h
    · cases m with
      | receive buf length =>
        simp only [DataMove.arrivals, receivedPacket] at h
        split_ifs at h
        · rw [List.mem_singleton.1 h]
          rfl
        · obtain ⟨buf, -, rfl⟩ := List.mem_map.1 h
          rfl
      | _ => exact absurd h List.not_mem_nil
    · exact absurd h List.not_mem_nil
  | _ => exact absurd h List.not_mem_nil

theorem ofAddress_of_injectedAt {rows : EndpointPlace → EndpointRow} {p : Packet}
    (h : p ∈ injectedAt device cfg rows injectors place m) :
    EndpointPlace.ofAddress p.bEndpoint = place := by
  cases m with
  | inject i p' =>
    unfold injectedAt at h
    dsimp only at h
    split_ifs at h with hplace
    · rw [List.mem_singleton.1 h]
      exact hplace.1
    · exact absurd h List.not_mem_nil
  | _ => exact absurd h List.not_mem_nil

theorem toward_congr (h : t.injectors = s.injectors) : t.toward place = s.toward place := by
  funext m
  cases m with
  | inject i p =>
    unfold toward
    rw [h]
  | _ => rfl

theorem Laid.view_run {moves : List PlaneMove} (h : Laid device cfg injectors s)
    (hrun : Runs.run (step charSigned) s moves = some t) (hp : place.number ≠ 0) :
    Runs.run (DataRelay.step charSigned) (s.view place) (moves.flatMap (s.toward place)) =
      some (t.view place) := by
  refine Runs.run_view (fun u : DataPlane => u.view place) (s.toward place)
    (fun u : DataPlane => u.Wired ∧ u.injectors = s.injectors)
    (fun u m v hstep hu => ?_) (fun u m v hstep hu => ?_) hrun ⟨h.wired, rfl⟩
  · obtain ⟨hrows, hinjectors⟩ := step_rows hstep
    exact ⟨hu.1.of_same hrows hinjectors, hinjectors.trans hu.2⟩
  · rw [← toward_congr hu.2]
    exact view_step hu.1 hp hstep

theorem Laid.injected_toward (h : Laid device cfg injectors s) (hp : place.number ≠ 0) (m : PlaneMove) :
    ((s.toward place m).flatMap DataMove.injected).Sublist
      (injectedAt device cfg s.rows injectors place m) := by
  cases m with
  | reader place' m =>
    unfold toward
    dsimp only
    split_ifs with hm
    · cases m with
      | inject p => cases hm.2
      | _ => exact List.Sublist.refl []
    · exact List.Sublist.refl []
  | writer place' m filters =>
    unfold toward
    dsimp only
    split_ifs with hm
    · cases m with
      | inject p => cases hm.2
      | _ => exact List.Sublist.refl []
    · exact List.Sublist.refl []
  | inject i p =>
    cases hi : s.injectors[i]? with
    | none =>
      simp only [toward, hi, Option.bind_none, List.flatMap_nil]
      exact List.nil_sublist _
    | some injector =>
      obtain ⟨c, hc, hdata, -⟩ := h.reached i injector hi
      rw [toward_inject hi]
      cases hq : injector.queueOf p with
      | none => exact List.nil_sublist _
      | some ptr =>
        cases ptr with
        | control direction => exact List.nil_sublist _
        | data queue =>
          dsimp only
          split_ifs with hplace
          · unfold Injector.queueOf at hq
            rw [hplace, hdata place hp] at hq
            obtain ⟨q, hwanted, -⟩ := Option.map_eq_some_iff.1 hq
            have hpos : injectedAt device cfg s.rows injectors place (.inject i p) = [p] := by
              refine if_pos ⟨hplace, ?_⟩
              rw [hc, Option.any_some, hwanted]
              rfl
            rw [hpos]
            exact List.Sublist.refl [p]
          · exact List.nil_sublist _

theorem arrivals_toward (s : DataPlane) (place : EndpointPlace) (endpoint : Byte) (m : PlaneMove) :
    ((s.toward place m).flatMap (DataMove.arrivals endpoint)).Sublist (receivedAt place endpoint m) := by
  cases m with
  | reader place' m =>
    unfold toward receivedAt
    dsimp only
    split_ifs with hm hplace hplace
    · rw [List.flatMap_singleton]
    · exact absurd hm.1 hplace
    · exact List.nil_sublist _
    · exact List.nil_sublist _
  | writer place' m filters =>
    unfold toward
    dsimp only
    split_ifs with hm
    · cases m with
      | receive buf length => cases hm.2
      | _ => exact List.Sublist.refl []
    · exact List.Sublist.refl []
  | inject i p =>
    unfold toward
    dsimp only
    split
    · split_ifs <;> exact List.Sublist.refl []
    · exact List.Sublist.refl []

variable (charSigned : Bool) (device : UsbDeviceDescriptor) (cfg : Configuration)
  (filters : List AttachedFilter) (injectors : List Criteria) (tables : EndpointTables)
  (setup : RelaySetup) (moves : List PlaneMove) (s : DataPlane)

/-- **Every endpoint has a relay of its own.**  With the threads, queues and arrays that the set-up leaves for
a configuration without null objects: under every interleaving of all readers and writers, whatever state the
shared filters are in, and of all injectors, each data endpoint goes through a run of one relay, by the moves
of its two threads and of the packets injected for it. -/
theorem plane_refines (hfull : none ∉ cfg.endpointSlots) (hempty : tables.Empty)
    (hsetup : startDataRelaying device cfg filters injectors tables = some setup)
    (hrun : Runs.run (step charSigned) (start device injectors setup) moves = some s)
    (place : EndpointPlace) (hp : place.number ≠ 0) (r : RelayReader)
    (hr : (setup.tables.rows place).reader = some r) :
    Runs.run (DataRelay.step charSigned) (.new r.endpoint [])
      (moves.flatMap ((start device injectors setup).toward place)) = some (s.view place) := by
  have hview := (laid_start hfull hempty hsetup).view_run hrun hp
  have hnew : (start device injectors setup).view place = .new r.endpoint [] :=
    view_of_reader (s := start device injectors setup) hr rfl rfl rfl
  rwa [hnew] at hview

/-- An injector for the keyboard of `twoAlternates` only. -/
def keyboardInjector : Criteria :=
  { Criteria.new with endpoint := { CriteriaEndpoint.new with address := 0x81, addressMask := 0xff } }

def keyboardSetup : RelaySetup :=
  (startDataRelaying ⟨0, 0, 0, 8, 0x046d, 0xc31c, 0x6402⟩ twoAlternates [] [keyboardInjector] .new).get rfl

/-- Both endpoints at work.  The packet injected for the keyboard goes first, the one for the endpoint that
the injector does not want comes back. -/
def bothEndpoints : List PlaneMove :=
  [.reader (.ofAddress 0x81) .read, .reader (.ofAddress 0x82) .read,
    .reader (.ofAddress 0x82) (.receive (some [7]) 1), .reader (.ofAddress 0x81) (.receive (some [1]) 1),
    .inject 0 (.new 0x81 (some [2]) 1), .inject 0 (.new 0x82 (some [3]) 1),
    .reader (.ofAddress 0x81) .read, .reader (.ofAddress 0x82) .read, .reader (.ofAddress 0x82) .read,
    .reader (.ofAddress 0x81) .read, .writer (.ofAddress 0x81) .write [],
    .writer (.ofAddress 0x82) .write [], .writer (.ofAddress 0x82) .write [],
    .writer (.ofAddress 0x81) .write [], .writer (.ofAddress 0x81) .write [],
    .writer (.ofAddress 0x82) .write [], .writer (.ofAddress 0x82) .write [],
    .writer (.ofAddress 0x81) .write []]

def keyboardPlane : DataPlane :=
  (Runs.run (step true) (start ⟨0, 0, 0, 8, 0x046d, 0xc31c, 0x6402⟩ [keyboardInjector] keyboardSetup)
    bothEndpoints).get rfl

theorem twoAlternates_full : none ∉ twoAlternates.endpointSlots := by
  have hslots : twoAlternates.endpointSlots =
      [some ⟨0, 0, 0, oneEndpoint 0 0 0xff 0x82 none, interruptEndpoint 0x82⟩,
        some ⟨0, 1, 0, oneEndpoint 0 1 0xff 0x82 none, interruptEndpoint 0x82⟩,
        some ⟨1, 0, 0, oneEndpoint 1 0 3 0x81 (some hidRecord), interruptEndpoint 0x81⟩] := rfl
  rw [hslots]
  simp

theorem plane_refines_bothEndpoints :
    keyboardPlane.returned = [(0, .new 0x82 (some [3]) 1)] ∧
      Runs.run (DataRelay.step true) (.new 0x81 [])
        [.read, .receive (some [1]) 1, .inject (.new 0x81 (some [2]) 1), .read, .read, .write, .write,
          .write, .write] = some (keyboardPlane.view ⟨.inbound, 1⟩) :=
  ⟨rfl, plane_refines true _ twoAlternates [] [keyboardInjector] .new keyboardSetup bothEndpoints
    keyboardPlane twoAlternates_full (fun _ _ => rfl) (Option.some_get _).symm (Option.some_get _).symm
    ⟨.inbound, 1⟩ (by decide) ⟨0x81, 3, 8, .deviceProxy, 2⟩ rfl⟩

/-- **No endpoint gets another's packets.**  What the writer of a data endpoint hands over carries the number
and direction of the endpoint; it is, in order, what its reader was given merged with what was injected for it
by injectors whose criteria take the device, the configuration, the interface and the endpoint. -/
theorem plane_isolates (hfull : none ∉ cfg.endpointSlots) (hempty : tables.Empty)
    (hsetup : startDataRelaying device cfg filters injectors tables = some setup)
    (hrun : Runs.run (step charSigned) (start device injectors setup) moves = some s)
    (place : EndpointPlace) (hp : place.number ≠ 0) (r : RelayReader)
    (hr : (setup.tables.rows place).reader = some r) :
    (∀ p ∈ (s.writers place).sent, EndpointPlace.ofAddress p.bEndpoint = place) ∧
      ∃ relayed injected merged, (s.writers place).sent <+: transmitted merged ∧
        Shuffles.Shuffle relayed injected merged ∧
        relayed.Sublist (moves.flatMap (receivedAt place r.endpoint)) ∧
        injected.Sublist
          (moves.flatMap (injectedAt device cfg setup.tables.rows injectors place)) := by
  have hlaid := laid_start hfull hempty hsetup
  have hview := hlaid.view_run hrun hp
  have hnew : (start device injectors setup).view place = .new r.endpoint [] :=
    view_of_reader (s := start device injectors setup) hr rfl rfl rfl
  rw [hnew] at hview
  obtain ⟨relayed, injected, merged, hinitial, hmerged, hrelayed, hinjected⟩ :=
    DataRelay.exists_sources hview
  have hsent : (s.view place).writer.sent = (s.writers place).sent := by
    have hrows : s.rows = (start device injectors setup).rows :=
      Runs.invariant (fun u : DataPlane => u.rows = (start device injectors setup).rows)
        (fun u m v hstep hu => (step_rows hstep).1.trans hu) hrun rfl
    rw [view_of_reader (r := r) (by rw [hrows]; exact hr) rfl rfl rfl]
    rfl
  rw [hsent] at hinitial
  rw [List.flatMap_assoc] at hrelayed hinjected
  have hreceived := hrelayed.trans (List.Sublist.flatMap_right moves fun m _ =>
    arrivals_toward (start device injectors setup) place r.endpoint m)
  have hput := hinjected.trans (List.Sublist.flatMap_right moves fun m _ =>
    hlaid.injected_toward hp m)
  refine ⟨fun p hsent => ?_, relayed, injected, merged, hinitial, hmerged, hreceived, hput⟩
  have hmem : p ∈ merged := (List.mem_filter.1 (hinitial.subset hsent)).1
  rcases hmerged.mem hmem with hmem | hmem
  · obtain ⟨m, -, hm⟩ := List.mem_flatMap.1 (hreceived.subset hmem)
    rw [bEndpoint_of_receivedAt hm]
    exact hlaid.addressed place hp r hr
  · obtain ⟨m, -, hm⟩ := List.mem_flatMap.1 (hput.subset hmem)
    exact ofAddress_of_injectedAt hm

theorem plane_isolates_bothEndpoints :
    (keyboardPlane.writers ⟨.inbound, 1⟩).sent = [.new 0x81 (some [2]) 1] ∧
      (keyboardPlane.writers ⟨.inbound, 2⟩).sent = [.new 0x82 (some [7]) 1] ∧
      ∀ p ∈ (keyboardPlane.writers ⟨.inbound, 2⟩).sent,
        EndpointPlace.ofAddress p.bEndpoint = ⟨.inbound, 2⟩ :=
  ⟨rfl, rfl, (plane_isolates true _ twoAlternates [] [keyboardInjector] .new keyboardSetup bothEndpoints
    keyboardPlane twoAlternates_full (fun _ _ => rfl) (Option.some_get _).symm (Option.some_get _).symm
    ⟨.inbound, 2⟩ (by decide) ⟨0x82, 3, 8, .deviceProxy, 1⟩ rfl).1⟩

end Start

end DataPlane

end UsbProxy
