import UsbProxy.Library.Tables
import UsbProxy.Criteria
import UsbProxy.EndpointSlots
import UsbProxy.GadgetDescriptor

/-!
# `Manager::start_data_relaying`

Three passes set up the relaying of the data endpoints.  The first keeps, for every endpoint number and
direction, the endpoint that comes last and gives it a queue; the second makes a reader and a writer
where an endpoint was kept; the third hands every filter to the writers it wants.
`startDataRelaying_established` says what all of them together leave in the tables.
-/

namespace UsbProxy

open Tables

def USB_ENDPOINT_XFERTYPE_MASK : Byte := 0x03
def USB_ENDPOINT_XFER_ISOC : Byte := 1

/-! ## The tables -/

inductive Direction
  | inbound
  | outbound
  deriving DecidableEq, Repr

/-- A position in the `in_` or the `out_` arrays of the manager. -/
structure EndpointPlace where
  direction : Direction
  number : Fin 16
  deriving DecidableEq, Repr

/-- `bEndpointAddress&0x80` chooses the arrays, `bEndpointAddress&0x0f` the position. -/
def EndpointPlace.ofAddress (bEndpointAddress : Byte) : EndpointPlace where
  direction := if bEndpointAddress &&& 0x80 ≠ 0 then .inbound else .outbound
  number := ⟨(bEndpointAddress &&& 0x0f).toNat, by
    rw [UInt8.toNat_and]
    exact Nat.lt_of_le_of_lt Nat.and_le_right (by decide)⟩

/-- `i|0x80` or `i`. -/
def EndpointPlace.address (place : EndpointPlace) : Byte :=
  match place.direction with
  | .inbound => UInt8.ofNat place.number ||| 0x80
  | .outbound => UInt8.ofNat place.number

/-- The proxy a relayer was made with. -/
inductive RelayEnd
  | deviceProxy
  | hostProxy
  deriving DecidableEq, Repr

/-- A queue is known by its number in the order of the `new PacketQueue`. -/
abbrev QueueId := ℕ

structure RelayReader where
  endpoint : Byte
  attributes : Byte
  maxPacketSize : UInt16
  proxy : RelayEnd
  sendQueue : QueueId

def RelayReader.new (ep : Endpoint) (proxy : RelayEnd) (sendQueue : QueueId) : RelayReader where
  endpoint := ep.descriptor.bEndpointAddress
  attributes := ep.descriptor.bmAttributes
  maxPacketSize := ep.descriptor.wMaxPacketSize
  proxy := proxy
  sendQueue := sendQueue

structure RelayWriter where
  endpoint : Byte
  attributes : Byte
  maxPacketSize : UInt16
  proxy : RelayEnd
  recvQueue : QueueId
  filters : List AttachedFilter

def RelayWriter.new (ep : Endpoint) (proxy : RelayEnd) (recvQueue : QueueId) : RelayWriter where
  endpoint := ep.descriptor.bEndpointAddress
  attributes := ep.descriptor.bmAttributes
  maxPacketSize := ep.descriptor.wMaxPacketSize
  proxy := proxy
  recvQueue := recvQueue
  filters := []

def RelayWriter.addFilter (w : RelayWriter) (filter : AttachedFilter) : RelayWriter :=
  { w with filters := w.filters ++ [filter] }

/-- An endpoint with its `get_interface()`: the constructor of an interface makes its endpoints with
itself as the interface. -/
structure KeptEndpoint where
  ep : Endpoint
  interface : Interface

/-- The entries of the endpoint, queue, reader and writer arrays at one position. -/
structure EndpointRow where
  endpoint : Option KeptEndpoint
  queue : Option QueueId
  reader : Option RelayReader
  writer : Option RelayWriter

def EndpointRow.empty : EndpointRow :=
  { endpoint := none, queue := none, reader := none, writer := none }

structure EndpointTables where
  rows : EndpointPlace → EndpointRow
  /-- How many queues were made. -/
  queueCount : QueueId
  /-- The calls of `set_endpoint_interface`. -/
  endpointInterfaces : List (Byte × Byte)

/-- What `Manager::Manager` leaves. -/
def EndpointTables.new : EndpointTables :=
  { rows := fun _ => .empty, queueCount := 0, endpointInterfaces := [] }

/-- No data endpoint is in the tables; position 0 belongs to the control endpoint. -/
def EndpointTables.Empty (t : EndpointTables) : Prop :=
  ∀ place, place.number ≠ 0 → t.rows place = .empty

/-! ## The passes -/

def EndpointSlot.isIsochronous (s : EndpointSlot) : Bool :=
  s.fsEp.descriptor.bmAttributes &&& USB_ENDPOINT_XFERTYPE_MASK == USB_ENDPOINT_XFER_ISOC

def EndpointSlot.place (s : EndpointSlot) : EndpointPlace :=
  .ofAddress s.fsEp.descriptor.bEndpointAddress

def EndpointSlot.kept (s : EndpointSlot) : KeptEndpoint := ⟨s.fsEp, s.fsAifc⟩

namespace EndpointTables

/-- The body of the first pass; the queue an endpoint in the same place had is not freed. -/
def register (t : EndpointTables) (s : EndpointSlot) : EndpointTables :=
  if s.isIsochronous then t
  else
    { rows := Function.update t.rows s.place
        { t.rows s.place with endpoint := some s.kept, queue := some t.queueCount }
      queueCount := t.queueCount + 1
      endpointInterfaces := t.endpointInterfaces ++
        [(s.fsEp.descriptor.bEndpointAddress, s.fsAifc.descriptor.bInterfaceNumber)] }

/-- The first pass; `none` when it follows a null object. -/
def enumerate : List (Option EndpointSlot) → EndpointTables → Option EndpointTables
  | [], t => some t
  | none :: _, _ => none
  | some s :: slots, t => enumerate slots (t.register s)

section Register

variable {t : EndpointTables} {s : EndpointSlot}

theorem register_isochronous (h : s.isIsochronous = true) : t.register s = t := if_pos h

theorem rows_register_place (h : s.isIsochronous = false) : (t.register s).rows s.place =
    { t.rows s.place with endpoint := some s.kept, queue := some t.queueCount } := by
  unfold register
  rw [if_neg (by rw [h]; exact Bool.false_ne_true)]
  exact Function.update_self ..

theorem rows_register_of_ne {place : EndpointPlace} (h : place ≠ s.place) :
    (t.register s).rows place = t.rows place := by
  unfold register
  split_ifs
  · rfl
  · exact Function.update_of_ne h ..

theorem queueCount_register (h : s.isIsochronous = false) :
    (t.register s).queueCount = t.queueCount + 1 := by
  unfold register
  rw [if_neg (by rw [h]; exact Bool.false_ne_true)]

end Register

end EndpointTables

/-- `for (i=1;i<16;i++)`, IN before OUT. -/
def places : List EndpointPlace :=
  (List.finRange 16).tail.flatMap fun i => [⟨.inbound, i⟩, ⟨.outbound, i⟩]

def readsFrom : Direction → RelayEnd
  | .inbound => .deviceProxy
  | .outbound => .hostProxy

def writesTo : Direction → RelayEnd
  | .inbound => .hostProxy
  | .outbound => .deviceProxy

namespace EndpointRow

/-- The body of the second pass. -/
def build (place : EndpointPlace) (row : EndpointRow) : Option EndpointRow :=
  match row.endpoint with
  | none => some row
  | some kept =>
    let reader := row.reader.or (row.queue.map (.new kept.ep (readsFrom place.direction)))
    let writer := row.writer.or (row.queue.map (.new kept.ep (writesTo place.direction)))
    if reader.isSome ∧ writer.isSome then some { row with reader, writer } else none

/-- `endpoint.test(..) && interface.test(..)` of the kept endpoint, if there is one. -/
def wantedBy (row : EndpointRow) (c : Criteria) : Bool :=
  row.endpoint.any fun kept => c.endpoint.test kept.ep && c.interface.test kept.interface

/-- The inner body of the third pass. -/
def addFilter (filter : AttachedFilter) (_ : EndpointPlace) (row : EndpointRow) :
    Option EndpointRow :=
  if row.wantedBy filter.toCriteria then
    row.writer.map fun w => { row with writer := some (w.addFilter filter) }
  else some row

/-- `set_queue` of an injector, with the receive queue of the writer. -/
def setQueue (c : Criteria) (place : EndpointPlace) (row : EndpointRow) :
    Option (List (Byte × QueueId)) :=
  if row.wantedBy c then row.writer.map fun w => [(place.address, w.recvQueue)] else some []

end EndpointRow

/-- The test in front of the inner loop. -/
def Criteria.wantsDevice (c : Criteria) (device : UsbDeviceDescriptor) (cfg : Configuration) : Bool :=
  c.device.test device && c.configuration.test cfg

section Passes

variable (device : UsbDeviceDescriptor) (cfg : Configuration)

def applyFilters : List AttachedFilter → (EndpointPlace → EndpointRow) →
    Option (EndpointPlace → EndpointRow)
  | [], rows => some rows
  | filter :: filters, rows =>
    if filter.wantsDevice device cfg then
      (updateEach (EndpointRow.addFilter filter) places rows).bind (applyFilters filters)
    else applyFilters filters rows

def applyInjector (rows : EndpointPlace → EndpointRow) (injector : Criteria) :
    Option (List (Byte × QueueId)) :=
  if injector.wantsDevice device cfg then readEach (EndpointRow.setQueue injector) rows places
  else some []

def applyInjectors (rows : EndpointPlace → EndpointRow) :
    List Criteria → Option (List (List (Byte × QueueId)))
  | [] => some []
  | injector :: injectors =>
    (applyInjector device cfg rows injector).bind fun queues =>
      (applyInjectors rows injectors).map (queues :: ·)

/-- What is set up when the threads are started. -/
structure RelaySetup where
  tables : EndpointTables
  injectorQueues : List (List (Byte × QueueId))

/-- `start_data_relaying` with the active configuration, up to the threads. -/
def startDataRelaying (filters : List AttachedFilter) (injectors : List Criteria)
    (t : EndpointTables) : Option RelaySetup :=
  (t.enumerate cfg.endpointSlots).bind fun t =>
    (updateEach EndpointRow.build places t.rows).bind fun rows =>
      (applyFilters device cfg filters rows).bind fun rows =>
        (applyInjectors device cfg rows injectors).map fun injectorQueues =>
          { tables := { t with rows }, injectorQueues }

end Passes

/-! ## What they establish -/

/-- Some endpoint that is not isochronous has this number and direction. -/
def Configuration.Declares (cfg : Configuration) (place : EndpointPlace) : Prop :=
  ∃ number alternate index ep, cfg.endpointAt number alternate index = some ep ∧
    ep.descriptor.bmAttributes &&& USB_ENDPOINT_XFERTYPE_MASK ≠ USB_ENDPOINT_XFER_ISOC ∧
    .ofAddress ep.descriptor.bEndpointAddress = place

/-- The filters a writer should have for an endpoint. -/
def acceptedFilters (device : UsbDeviceDescriptor) (cfg : Configuration) (kept : KeptEndpoint)
    (filters : List AttachedFilter) : List AttachedFilter :=
  filters.filter fun f => f.device.test device && f.configuration.test cfg &&
    f.endpoint.test kept.ep && f.interface.test kept.interface

theorem mem_places {place : EndpointPlace} : place ∈ places ↔ place.number ≠ 0 := by
  obtain ⟨direction, number⟩ := place
  revert number
  cases direction with
  | inbound => decide
  | outbound => decide

theorem nodup_places : places.Nodup := by decide

theorem declares_iff {cfg : Configuration} {place : EndpointPlace} :
    cfg.Declares place ↔
      ∃ s, some s ∈ cfg.endpointSlots ∧ s.isIsochronous = false ∧ s.place = place := by
  constructor
  · rintro ⟨number, alternate, index, ep, hep, hiso, hplace⟩
    obtain ⟨i, hi, hidx⟩ := Option.bind_eq_some_iff.1 hep
    exact ⟨⟨number, alternate, index, i, ep⟩, some_mem_endpointSlots.2 ⟨hi, hidx⟩,
      beq_eq_false_iff_ne.2 hiso, hplace⟩
  · rintro ⟨s, hs, hiso, hplace⟩
    exact ⟨s.ifcIdx, s.aifcIdx, s.epIdx, s.fsEp, endpointAt_of_mem hs, beq_eq_false_iff_ne.1 hiso,
      hplace⟩

/-! ## The first pass -/

/-- The endpoints for a place, in the order of the loops. -/
def contenders (slots : List EndpointSlot) (place : EndpointPlace) : List EndpointSlot :=
  slots.filter fun s => !s.isIsochronous && s.place == place

/-- The tables behind the first pass: the last endpoint for each place, each with its own queue, and no
relayer yet. -/
structure Recorded (seen : List EndpointSlot) (t : EndpointTables) : Prop where
  kept : ∀ place, place.number ≠ 0 →
    (t.rows place).endpoint = (contenders seen place).getLast?.map EndpointSlot.kept
  queued : ∀ place, place.number ≠ 0 →
    (t.rows place).queue.isSome = (t.rows place).endpoint.isSome
  made : ∀ place, place.number ≠ 0 → ∀ q, (t.rows place).queue = some q → q < t.queueCount
  apart : ∀ place place', place.number ≠ 0 → place'.number ≠ 0 → ∀ q,
    (t.rows place).queue = some q → (t.rows place').queue = some q → place = place'
  idle : ∀ place, place.number ≠ 0 →
    (t.rows place).reader = none ∧ (t.rows place).writer = none

theorem recorded_empty {t : EndpointTables} (h : t.Empty) : Recorded [] t where
  kept place hp := by rw [h place hp]; rfl
  queued place hp := by rw [h place hp]; rfl
  made place hp q hq := by rw [h place hp] at hq; cases hq
  apart place place' hp hp' q hq := by rw [h place hp] at hq; cases hq
  idle place hp := by rw [h place hp]; exact ⟨rfl, rfl⟩

theorem contenders_append_of_isochronous {seen : List EndpointSlot} {s : EndpointSlot}
    (h : s.isIsochronous = true) : contenders (seen ++ [s]) = contenders seen := by
  funext place
  unfold contenders
  rw [List.filter_append, List.filter_singleton, h]
  exact List.append_nil _

theorem getLast?_contenders {seen : List EndpointSlot} {s : EndpointSlot} {place : EndpointPlace}
    (h : s.isIsochronous = false) :
    (contenders (seen ++ [s]) place).getLast? =
      if s.place = place then some s else (contenders seen place).getLast? := by
  unfold contenders
  rw [List.filter_append, List.filter_singleton, h]
  by_cases hp : s.place = place
  · rw [if_pos hp, hp, beq_self_eq_true]
    exact List.getLast?_concat
  · rw [if_neg hp, beq_eq_false_iff_ne.2 hp]
    exact congrArg List.getLast? (List.append_nil _)

theorem Recorded.queue_register {seen : List EndpointSlot} {t : EndpointTables} (h : Recorded seen t)
    {s : EndpointSlot} (hiso : s.isIsochronous = false) {place : EndpointPlace}
    (hp : place.number ≠ 0) {q : QueueId} (hq : ((t.register s).rows place).queue = some q) :
    place = s.place ∧ q = t.queueCount ∨ (t.rows place).queue = some q ∧ q < t.queueCount := by
  by_cases he : place = s.place
  · subst he
    rw [EndpointTables.rows_register_place hiso] at hq
    exact .inl ⟨rfl, (Option.some.inj hq).symm⟩
  · rw [EndpointTables.rows_register_of_ne he] at hq
    exact .inr ⟨hq, h.made place hp q hq⟩

theorem Recorded.register {seen : List EndpointSlot} {t : EndpointTables} (h : Recorded seen t)
    (s : EndpointSlot) : Recorded (seen ++ [s]) (t.register s) := by
  cases hiso : s.isIsochronous with
  | true =>
    rw [EndpointTables.register_isochronous hiso]
    exact ⟨fun place => by rw [contenders_append_of_isochronous hiso]; exact h.kept place, h.queued,
      h.made, h.apart, h.idle⟩
  | false =>
    constructor
    case kept =>
      intro place hp
      rw [getLast?_contenders hiso]
      by_cases he : place = s.place
      · subst he
        rw [if_pos rfl, EndpointTables.rows_register_place hiso]
        rfl
      · rw [if_neg (Ne.symm he), EndpointTables.rows_register_of_ne he, h.kept place hp]
    case queued =>
      intro place hp
      by_cases he : place = s.place
      · subst he
        rw [EndpointTables.rows_register_place hiso]
        rfl
      · rw [EndpointTables.rows_register_of_ne he, h.queued place hp]
    case made =>
      intro place hp q hq
      rw [EndpointTables.queueCount_register hiso]
      rcases h.queue_register hiso hp hq with ⟨-, rfl⟩ | ⟨-, hlt⟩
      · exact Nat.lt_succ_self _
      · exact Nat.lt_succ_of_lt hlt
    case apart =>
      intro place place' hp hp' q hq hq'
      rcases h.queue_register hiso hp hq with ⟨he, rfl⟩ | ⟨hq, hlt⟩
      · rcases h.queue_register hiso hp' hq' with ⟨he', -⟩ | ⟨-, hlt⟩
        · exact he.trans he'.symm
        · exact absurd hlt (Nat.lt_irrefl _)
      · rcases h.queue_register hiso hp' hq' with ⟨-, rfl⟩ | ⟨hq', -⟩
        · exact absurd hlt (Nat.lt_irrefl _)
        · exact h.apart place place' hp hp' q hq hq'
    case idle =>
      intro place hp
      by_cases he : place = s.place
      · subst he
        rw [EndpointTables.rows_register_place hiso]
        exact h.idle _ hp
      · rw [EndpointTables.rows_register_of_ne he]
        exact h.idle place hp

theorem Recorded.enumerate {slots : List (Option EndpointSlot)} (hfull : none ∉ slots)
    {seen : List EndpointSlot} {t : EndpointTables} (h : Recorded seen t) :
    ∃ t', t.enumerate slots = some t' ∧ Recorded (seen ++ slots.reduceOption) t' := by
  induction slots generalizing seen t with
  | nil => exact ⟨t, rfl, by rwa [List.reduceOption_nil, List.append_nil]⟩
  | cons slot slots ih =>
    cases slot with
    | none => exact absurd (List.mem_cons_self ..) hfull
    | some s =>
      have hrest : none ∉ slots := fun hmem => hfull (List.mem_cons_of_mem _ hmem)
      obtain ⟨t', ht', hrec⟩ := ih hrest (h.register s)
      refine ⟨t', ht', ?_⟩
      rwa [List.reduceOption_cons_of_some, List.append_cons]

theorem Recorded.isSome_endpoint {cfg : Configuration} {t : EndpointTables}
    (h : Recorded cfg.endpointSlots.reduceOption t) {place : EndpointPlace} (hp : place.number ≠ 0) :
    (t.rows place).endpoint.isSome ↔ cfg.Declares place := by
  rw [h.kept place hp, Option.isSome_map, Option.isSome_iff_ne_none, Ne, List.getLast?_eq_none_iff,
    declares_iff]
  unfold contenders
  rw [List.filter_eq_nil_iff]
  push Not
  refine exists_congr fun s => ?_
  rw [List.reduceOption_mem_iff, Bool.and_eq_true, Bool.not_eq_true', beq_iff_eq]

/-! ## The second pass -/

def EndpointRow.relayed (place : EndpointPlace) (row : EndpointRow) : EndpointRow :=
  match row.endpoint, row.queue with
  | some kept, some queue =>
    { row with
      reader := some (.new kept.ep (readsFrom place.direction) queue)
      writer := some (.new kept.ep (writesTo place.direction) queue) }
  | _, _ => row

theorem EndpointRow.build_eq {place : EndpointPlace} {row : EndpointRow}
    (hqueue : row.queue.isSome = row.endpoint.isSome) (hr : row.reader = none)
    (hw : row.writer = none) : row.build place = some (row.relayed place) := by
  obtain ⟨endpoint, queue, reader, writer⟩ := row
  cases hr
  cases hw
  cases endpoint with
  | none => rfl
  | some kept =>
    obtain ⟨q, rfl⟩ := Option.isSome_iff_exists.1 hqueue
    rfl

/-! ## The third pass -/

/-- A writer with more filters. -/
def RelayWriter.withFilters (w : RelayWriter) (filters : List AttachedFilter) : RelayWriter :=
  { w with filters := w.filters ++ filters }

/-- A row whose writer got those of the filters that want its endpoint. -/
def EndpointRow.withFilters (filters : List AttachedFilter) (row : EndpointRow) : EndpointRow :=
  { row with
    writer := row.writer.map fun w =>
      w.withFilters (filters.filter fun f => row.wantedBy f.toCriteria) }

@[simp] theorem EndpointRow.wantedBy_withFilters (filters : List AttachedFilter) (row : EndpointRow)
    (c : Criteria) : (row.withFilters filters).wantedBy c = row.wantedBy c := rfl

theorem EndpointRow.withFilters_nil (row : EndpointRow) : row.withFilters [] = row := by
  obtain ⟨endpoint, queue, reader, writer⟩ := row
  cases writer with
  | none => rfl
  | some w =>
    simp only [withFilters, RelayWriter.withFilters, List.filter_nil, List.append_nil, Option.map_some]

theorem EndpointRow.withFilters_withFilters (fs gs : List AttachedFilter) (row : EndpointRow) :
    (row.withFilters fs).withFilters gs = row.withFilters (fs ++ gs) := by
  have hwanted := wantedBy_withFilters fs row
  unfold withFilters at hwanted ⊢
  simp only [hwanted, List.filter_append, Option.map_map]
  congr 2
  funext w
  simp only [Function.comp_apply, RelayWriter.withFilters, List.append_assoc]

theorem EndpointRow.addFilter_eq {f : AttachedFilter} {place : EndpointPlace} {row : EndpointRow}
    (h : row.endpoint.isSome → row.writer.isSome) :
    EndpointRow.addFilter f place row = some (row.withFilters [f]) := by
  unfold addFilter
  by_cases hf : row.wantedBy f.toCriteria
  · have hkept : row.endpoint.isSome := by
      obtain ⟨kept, hkept, -⟩ := Option.any_eq_true _ _ |>.1 hf
      rw [hkept]
      rfl
    obtain ⟨w, hw⟩ := Option.isSome_iff_exists.1 (h hkept)
    rw [if_pos hf, hw, Option.map_some, withFilters, hw, Option.map_some,
      List.filter_singleton, hf]
    rfl
  · have hnone : row.withFilters [f] = row.withFilters [] := by
      unfold withFilters
      rw [List.filter_cons_of_neg (p := fun f : AttachedFilter => row.wantedBy f.toCriteria) hf]
    rw [if_neg hf, hnone, withFilters_nil]

theorem applyFilters_eq (device : UsbDeviceDescriptor) (cfg : Configuration)
    (filters : List AttachedFilter) (rows : EndpointPlace → EndpointRow)
    (h : ∀ place ∈ places, (rows place).endpoint.isSome → (rows place).writer.isSome) :
    applyFilters device cfg filters rows = some fun place =>
      if place ∈ places then
        (rows place).withFilters (filters.filter fun f => f.wantsDevice device cfg)
      else rows place := by
  induction filters generalizing rows with
  | nil =>
    unfold applyFilters
    congr 1
    funext place
    rw [List.filter_nil, EndpointRow.withFilters_nil, ite_self]
  | cons f filters ih =>
    unfold applyFilters
    by_cases hf : f.wantsDevice device cfg
    · have hpass := updateEach_eq (f := EndpointRow.addFilter f) (g := fun place =>
        (rows place).withFilters [f]) nodup_places fun place hp => EndpointRow.addFilter_eq (h place hp)
      rw [if_pos hf, hpass, Option.bind_some,
        List.filter_cons_of_pos (p := fun f : AttachedFilter => f.wantsDevice device cfg) hf, ih]
      · congr 1
        funext place
        by_cases hp : place ∈ places
        · rw [if_pos hp, if_pos hp, if_pos hp, EndpointRow.withFilters_withFilters,
            List.singleton_append]
        · rw [if_neg hp, if_neg hp, if_neg hp]
      · intro place hp hkept
        rw [if_pos hp] at hkept ⊢
        rw [EndpointRow.withFilters, Option.isSome_map]
        exact h place hp hkept
    · rw [if_neg hf,
        List.filter_cons_of_neg (p := fun f : AttachedFilter => f.wantsDevice device cfg) hf]
      exact ih rows h

theorem exists_applyInjectors (device : UsbDeviceDescriptor) (cfg : Configuration)
    (injectors : List Criteria) (rows : EndpointPlace → EndpointRow)
    (h : ∀ place ∈ places, (rows place).endpoint.isSome → (rows place).writer.isSome) :
    ∃ queues, applyInjectors device cfg rows injectors = some queues := by
  have hone : ∀ c, ∃ queues, applyInjector device cfg rows c = some queues := by
    intro c
    unfold applyInjector
    by_cases hc : c.wantsDevice device cfg
    · have hset : ∀ place ∈ places, EndpointRow.setQueue c place (rows place) =
          some (if (rows place).wantedBy c then
            (rows place).writer.toList.map fun w => (place.address, w.recvQueue) else []) := by
        intro place hp
        unfold EndpointRow.setQueue
        by_cases hw : (rows place).wantedBy c
        · obtain ⟨kept, hkept, -⟩ := Option.any_eq_true _ _ |>.1 hw
          obtain ⟨w, hw'⟩ := Option.isSome_iff_exists.1 (h place hp (by rw [hkept]; rfl))
          rw [if_pos hw, if_pos hw, hw']
          rfl
        · rw [if_neg hw, if_neg hw]
      exact ⟨_, by rw [if_pos hc, readEach_eq hset]⟩
    · exact ⟨[], if_neg hc⟩
  induction injectors with
  | nil => exact ⟨[], rfl⟩
  | cons c injectors ih =>
    obtain ⟨first, hfirst⟩ := hone c
    obtain ⟨rest, hrest⟩ := ih
    exact ⟨first :: rest, by rw [applyInjectors, hfirst, Option.bind_some, hrest, Option.map_some]⟩

/-! ## All passes -/

theorem Recorded.row {seen : List EndpointSlot} {t : EndpointTables} (h : Recorded seen t)
    {place : EndpointPlace} (hp : place.number ≠ 0) (filters : List AttachedFilter) :
    let row := ((t.rows place).relayed place).withFilters filters
    (t.rows place).endpoint = none ∧ row.reader = none ∧ row.writer = none ∨
      ∃ kept q, (t.rows place).endpoint = some kept ∧ (t.rows place).queue = some q ∧
        row.endpoint = some kept ∧
        row.reader = some (.new kept.ep (readsFrom place.direction) q) ∧
        row.writer = some ((RelayWriter.new kept.ep (writesTo place.direction) q).withFilters
          (filters.filter fun f => f.endpoint.test kept.ep && f.interface.test kept.interface)) := by
  obtain ⟨hr, hw⟩ := h.idle place hp
  have hqueued := h.queued place hp
  cases hkept : (t.rows place).endpoint with
  | none =>
    left
    simp only [EndpointRow.relayed, EndpointRow.withFilters, hkept, hr, hw, Option.map_none, and_self]
  | some kept =>
    right
    rw [hkept] at hqueued
    obtain ⟨q, hq⟩ := Option.isSome_iff_exists.1 hqueued
    refine ⟨kept, q, rfl, hq, ?_⟩
    simp only [EndpointRow.relayed, EndpointRow.withFilters, hkept, hq, EndpointRow.wantedBy,
      Option.any_some, Option.map_some, RelayWriter.new, RelayWriter.withFilters, List.nil_append,
      and_self]

/-- Every row at the end, from the tables of the first pass. -/
theorem exists_startDataRelaying (device : UsbDeviceDescriptor) {cfg : Configuration}
    (filters : List AttachedFilter) (injectors : List Criteria) {t : EndpointTables}
    (hfull : none ∉ cfg.endpointSlots) (hempty : t.Empty) :
    ∃ recorded r, Recorded cfg.endpointSlots.reduceOption recorded ∧
      startDataRelaying device cfg filters injectors t = some r ∧
      ∀ place, place.number ≠ 0 → r.tables.rows place =
        ((recorded.rows place).relayed place).withFilters
          (filters.filter fun f => f.wantsDevice device cfg) := by
  obtain ⟨recorded, hfirst, hrec⟩ := (recorded_empty hempty).enumerate hfull
  rw [List.nil_append] at hrec
  have hsecond := updateEach_eq (f := EndpointRow.build) (t := recorded.rows)
    (g := fun place => (recorded.rows place).relayed place) nodup_places fun place hp => by
      have hp := mem_places.1 hp
      exact EndpointRow.build_eq (hrec.queued place hp) (hrec.idle place hp).1 (hrec.idle place hp).2
  have hwriters : ∀ place ∈ places, ∀ fs : List AttachedFilter,
      (((recorded.rows place).relayed place).withFilters fs).endpoint.isSome →
        (((recorded.rows place).relayed place).withFilters fs).writer.isSome := by
    intro place hp fs hkept
    rcases hrec.row (mem_places.1 hp) fs with ⟨hnone, -, -⟩ | ⟨kept, q, -, -, -, -, hw⟩
    · simp [EndpointRow.relayed, EndpointRow.withFilters, hnone] at hkept
    · rw [hw]
      rfl
  have hthird := applyFilters_eq device cfg filters
    (fun place => if place ∈ places then (recorded.rows place).relayed place
      else recorded.rows place) fun place hp => by
        rw [if_pos hp, ← EndpointRow.withFilters_nil ((recorded.rows place).relayed place)]
        exact hwriters place hp []
  obtain ⟨queues, hinject⟩ := exists_applyInjectors device cfg injectors
    (fun place => if place ∈ places then
      (if place ∈ places then (recorded.rows place).relayed place
        else recorded.rows place).withFilters (filters.filter fun f => f.wantsDevice device cfg)
      else if place ∈ places then (recorded.rows place).relayed place else recorded.rows place)
    fun place hp => by
      rw [if_pos hp, if_pos hp]
      exact hwriters place hp _
  unfold startDataRelaying
  rw [hfirst, Option.bind_some, hsecond, Option.bind_some, hthird, Option.bind_some, hinject,
    Option.map_some]
  refine ⟨recorded, _, hrec, rfl, fun place hp => ?_⟩
  have hmem := mem_places.2 hp
  simp only [if_pos hmem]

theorem acceptedFilters_eq {device : UsbDeviceDescriptor} {cfg : Configuration} {kept : KeptEndpoint}
    (filters : List AttachedFilter) :
    (filters.filter fun f => f.wantsDevice device cfg).filter
        (fun f => f.endpoint.test kept.ep && f.interface.test kept.interface) =
      acceptedFilters device cfg kept filters := by
  rw [List.filter_filter]
  unfold acceptedFilters Criteria.wantsDevice
  congr 1
  funext f
  rw [Bool.and_comm, Bool.and_assoc, Bool.and_assoc, Bool.and_assoc]

/-- A row at the end: no relayer for a place the configuration does not declare, else both relayers for
one kept endpoint and one queue. -/
def Settled (device : UsbDeviceDescriptor) (cfg : Configuration) (filters : List AttachedFilter)
    (place : EndpointPlace) (queue : Option QueueId) (row : EndpointRow) : Prop :=
  ¬ cfg.Declares place ∧ row.reader = none ∧ row.writer = none ∨
    cfg.Declares place ∧ ∃ kept q, queue = some q ∧ row.endpoint = some kept ∧
      row.reader = some (.new kept.ep (readsFrom place.direction) q) ∧
      row.writer = some ((RelayWriter.new kept.ep (writesTo place.direction) q).withFilters
        (acceptedFilters device cfg kept filters))

theorem Recorded.settled {device : UsbDeviceDescriptor} {cfg : Configuration} {t : EndpointTables}
    (h : Recorded cfg.endpointSlots.reduceOption t) (filters : List AttachedFilter)
    {place : EndpointPlace} (hp : place.number ≠ 0) :
    Settled device cfg filters place (t.rows place).queue (((t.rows place).relayed place).withFilters
      (filters.filter fun f => f.wantsDevice device cfg)) := by
  have hdecl := h.isSome_endpoint hp
  rcases h.row hp (filters.filter fun f => f.wantsDevice device cfg) with
    ⟨hnone, hrow⟩ | ⟨kept, q, hkept, hq, hend, hreader, hwriter⟩
  · rw [hnone] at hdecl
    exact .inl ⟨fun h => Bool.false_ne_true (hdecl.2 h), hrow⟩
  · rw [hkept] at hdecl
    rw [acceptedFilters_eq] at hwriter
    exact .inr ⟨hdecl.1 rfl, kept, q, hq, hend, hreader, hwriter⟩

section Settled

variable {device : UsbDeviceDescriptor} {cfg : Configuration} {filters : List AttachedFilter}
  {place : EndpointPlace} {queue : Option QueueId} {row : EndpointRow}

theorem Settled.writer_iff (h : Settled device cfg filters place queue row) :
    row.writer.isSome ↔ cfg.Declares place := by
  rcases h with ⟨hnot, -, hw⟩ | ⟨hdecl, kept, q, -, -, -, hw⟩
  · rw [hw]
    exact iff_of_false Bool.false_ne_true hnot
  · rw [hw]
    exact iff_of_true rfl hdecl

theorem Settled.reader (h : Settled device cfg filters place queue row) {r : RelayReader}
    (hr : row.reader = some r) : queue = some r.sendQueue ∧ r.proxy = readsFrom place.direction := by
  rcases h with ⟨-, hnone, -⟩ | ⟨-, kept, q, hq, -, hsome, -⟩
  · rw [hnone] at hr
    cases hr
  · obtain rfl := Option.some.inj (hr.symm.trans hsome)
    exact ⟨hq, rfl⟩

/-- A writer has the queue of its place, writes to the right proxy and has the filters its endpoint
accepts. -/
theorem Settled.writer (h : Settled device cfg filters place queue row) {w : RelayWriter}
    (hw : row.writer = some w) : queue = some w.recvQueue ∧ w.proxy = writesTo place.direction ∧
      ∃ kept, row.endpoint = some kept ∧ w.filters = acceptedFilters device cfg kept filters := by
  rcases h with ⟨-, -, hnone⟩ | ⟨-, kept, q, hq, hend, -, hsome⟩
  · rw [hnone] at hw
    cases hw
  · obtain rfl := Option.some.inj (hw.symm.trans hsome)
    exact ⟨hq, rfl, kept, hend, rfl⟩

end Settled

/-- `start_data_relaying` comes back exactly when its loops meet no null pointer. -/
theorem Manager.startDataRelaying_returns_iff {m : Manager} : m.startDataRelaying = .returns ↔
    ∃ cfg, m.device.getActiveConfiguration = some cfg ∧ none ∉ cfg.endpointSlots := by
  have hending : ∀ c : Bool, (if c then Ending.returns else .crashes) = .returns ↔ c = true := by
    intro c
    cases c <;> simp
  unfold Manager.startDataRelaying
  cases m.device.getActiveConfiguration with
  | none => simp
  | some cfg =>
    simp only [Option.some.injEq, exists_eq_left', hending]
    rw [none_mem_endpointSlots, List.all_eq_true]
    push Not
    refine forall_congr' fun g => ?_
    rw [List.reduceOption_mem_iff, List.all_eq_true]
    refine imp_congr_right fun _ => forall_congr' fun slot => imp_congr_right fun _ => ?_
    cases slot with
    | none => simp
    | some i =>
      simp only [List.all_eq_true, Option.some.injEq, exists_eq_left']
      constructor
      · exact fun h hnone => Bool.false_ne_true (h none hnone)
      · intro h e he
        cases e with
        | none => exact absurd he h
        | some e => rfl

/-- The first pass does not get past a null pointer. -/
theorem EndpointTables.enumerate_of_none_mem {slots : List (Option EndpointSlot)} (h : none ∈ slots)
    (t : EndpointTables) : t.enumerate slots = none := by
  induction slots generalizing t with
  | nil => exact absurd h List.not_mem_nil
  | cons slot slots ih =>
    cases slot with
    | none => rfl
    | some s => exact ih ((List.mem_cons.1 h).resolve_left (by simp)) _

/-- The active configuration decides whether the set-up of an empty manager runs through. -/
theorem Manager.exists_startDataRelaying_iff {m : Manager} {cfg : Configuration}
    (hcfg : m.device.getActiveConfiguration = some cfg) (device : UsbDeviceDescriptor)
    (filters : List AttachedFilter) (injectors : List Criteria) {t : EndpointTables}
    (hempty : t.Empty) :
    (∃ r, UsbProxy.startDataRelaying device cfg filters injectors t = some r) ↔
      m.startDataRelaying = .returns := by
  rw [Manager.startDataRelaying_returns_iff, hcfg]
  simp only [Option.some.injEq, exists_eq_left']
  constructor
  · rintro ⟨r, hr⟩ hnull
    unfold UsbProxy.startDataRelaying at hr
    rw [EndpointTables.enumerate_of_none_mem hnull t] at hr
    cases hr
  · intro hfull
    obtain ⟨-, r, -, hr, -⟩ :=
      UsbProxy.exists_startDataRelaying device filters injectors hfull hempty
    exact ⟨r, hr⟩

end UsbProxy
