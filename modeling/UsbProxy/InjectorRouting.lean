import UsbProxy.DataRelaying

/-!
# Where injected packets go

An injector has two arrays of queue pointers, `inQueues` and `outQueues`.  `start_control_relaying` sets those
of endpoint 0, `start_data_relaying` those of the data endpoints it wants, and `listen` picks one by the
endpoint address of a packet.  `queues_attached` says what the two leave in the arrays.
-/

namespace UsbProxy

open Tables

/-- What a pointer in `inQueues` or `outQueues` leads to: a queue of the control relay, `_writersend` or
`_readersend`, or a queue of a data endpoint. -/
inductive QueuePtr
  | control (direction : Direction)
  | data (id : QueueId)
  deriving DecidableEq, Repr

structure Injector where
  queues : EndpointPlace → Option QueuePtr

namespace Injector

/-- `Injector::Injector`. -/
def new : Injector := ⟨fun _ => none⟩

def setQueue (i : Injector) (epAddress : Byte) (queue : QueuePtr) : Injector :=
  ⟨Function.update i.queues (.ofAddress epAddress) (some queue)⟩

/-- The queue `listen` puts a packet into. -/
def queueOf (i : Injector) (p : Packet) : Option QueuePtr := i.queues (.ofAddress p.bEndpoint)

/-- The object for endpoint 0 that `start_control_relaying` makes. -/
def controlEndpoint (device : UsbDeviceDescriptor) : Endpoint where
  descriptor :=
    { bLength := 7, bDescriptorType := 5, bEndpointAddress := 0, bmAttributes := 0
      wMaxPacketSize := device.bMaxPacketSize0.toUInt16, bInterval := 0, bRefresh := 0
      bSynchAddress := 0 }

/-- What `start_control_relaying` sets. -/
def controlled (device : UsbDeviceDescriptor) (c : Criteria) : Injector :=
  if c.device.test device && c.endpoint.test (controlEndpoint device) then
    (new.setQueue 0x80 (.control .inbound)).setQueue 0 (.control .outbound)
  else new

/-- The calls of `set_queue` in `start_data_relaying`. -/
def attach (i : Injector) (calls : List (Byte × QueueId)) : Injector :=
  calls.foldl (fun i call => i.setQueue call.1 (.data call.2)) i

end Injector

/-! ## The calls -/

theorem EndpointPlace.ofAddress_address (place : EndpointPlace) :
    EndpointPlace.ofAddress place.address = place := by
  obtain ⟨direction, number⟩ := place
  revert number
  cases direction with
  | inbound => decide
  | outbound => decide

section Calls

variable {device : UsbDeviceDescriptor} {cfg : Configuration} {rows : EndpointPlace → EndpointRow}

/-- The queue of a place that the injector wants. -/
def wantedQueue (device : UsbDeviceDescriptor) (cfg : Configuration)
    (rows : EndpointPlace → EndpointRow) (c : Criteria) (place : EndpointPlace) : Option QueueId :=
  if c.wantsDevice device cfg ∧ (rows place).wantedBy c then
    (rows place).writer.map RelayWriter.recvQueue
  else none

/-- Every place with an endpoint has a writer. -/
def Staffed (rows : EndpointPlace → EndpointRow) : Prop :=
  ∀ place ∈ places, (rows place).endpoint.isSome → (rows place).writer.isSome

theorem applyInjector_eq (h : Staffed rows) (c : Criteria) : applyInjector device cfg rows c =
    some (places.flatMap fun place =>
      (wantedQueue device cfg rows c place).toList.map fun queue => (place.address, queue)) := by
  unfold applyInjector wantedQueue
  by_cases hc : c.wantsDevice device cfg
  · rw [if_pos hc]
    refine readEach_eq fun place hp => ?_
    unfold EndpointRow.setQueue
    by_cases hw : (rows place).wantedBy c
    · obtain ⟨kept, hkept, -⟩ := Option.any_eq_true _ _ |>.1 hw
      obtain ⟨w, hw'⟩ := Option.isSome_iff_exists.1 (h place hp (by rw [hkept]; rfl))
      rw [if_pos hw, if_pos ⟨hc, hw⟩, hw']
      rfl
    · rw [if_neg hw, if_neg fun h => hw h.2]
      rfl
  · rw [if_neg hc]
    simp only [hc, false_and, Bool.false_eq_true, if_false, Option.toList_none, List.map_nil]
    exact congrArg some (List.flatMap_eq_nil_iff.2 fun _ _ => rfl).symm

theorem applyInjectors_eq (h : Staffed rows) (injectors : List Criteria) :
    applyInjectors device cfg rows injectors = some (injectors.map fun c => places.flatMap fun place =>
      (wantedQueue device cfg rows c place).toList.map fun queue => (place.address, queue)) := by
  induction injectors with
  | nil => rfl
  | cons c injectors ih =>
    rw [applyInjectors, applyInjector_eq h c, Option.bind_some, ih, Option.map_some, List.map_cons]

theorem queues_setQueue (i : Injector) (place place' : EndpointPlace) (queue : QueuePtr) :
    (i.setQueue place.address queue).queues place' =
      if place' = place then some queue else i.queues place' := by
  unfold Injector.setQueue
  rw [EndpointPlace.ofAddress_address]
  exact Function.update_apply ..

theorem queues_attach (queue : EndpointPlace → Option QueueId) (ps : List EndpointPlace) (i : Injector)
    (place : EndpointPlace) :
    (i.attach (ps.flatMap fun p => (queue p).toList.map fun q => (p.address, q))).queues place =
      if place ∈ ps then ((queue place).map .data).or (i.queues place) else i.queues place := by
  unfold Injector.attach
  induction ps generalizing i with
  | nil => rfl
  | cons p ps ih =>
    rw [List.flatMap_cons, List.foldl_append, ih]
    cases hq : queue p with
    | none =>
      by_cases hp : place = p
      · subst hp
        simp [hq]
      · simp [hp]
    | some q =>
      have hset := queues_setQueue i p place (.data q)
      by_cases hp : place = p
      · subst hp
        rw [if_pos rfl] at hset
        simp [hq, hset]
      · rw [if_neg hp] at hset
        simp [hp, hset]

theorem queues_controlled_data (device : UsbDeviceDescriptor) (c : Criteria) {place : EndpointPlace}
    (hp : place.number ≠ 0) : (Injector.controlled device c).queues place = none := by
  have hne : ∀ direction, place ≠ ⟨direction, 0⟩ := fun direction h => hp (h ▸ rfl)
  unfold Injector.controlled
  split_ifs
  · exact (queues_setQueue _ ⟨.outbound, 0⟩ place _).trans ((if_neg (hne .outbound)).trans
      ((queues_setQueue _ ⟨.inbound, 0⟩ place _).trans (if_neg (hne .inbound))))
  · rfl

theorem queues_controlled_control (device : UsbDeviceDescriptor) (c : Criteria) (direction : Direction) :
    (Injector.controlled device c).queues ⟨direction, 0⟩ = none ∨
      (Injector.controlled device c).queues ⟨direction, 0⟩ = some (.control direction) := by
  unfold Injector.controlled
  split_ifs
  · right
    cases direction <;> rfl
  · exact .inl rfl

/-- **The arrays of an injector.**  Behind both set-ups the pointer of a data endpoint leads to the queue of
its writer, if the injector wants the endpoint, and is null otherwise. -/
theorem queues_attached (h : Staffed rows) {c : Criteria} {calls : List (Byte × QueueId)}
    (hcalls : applyInjector device cfg rows c = some calls) {place : EndpointPlace}
    (hp : place.number ≠ 0) : ((Injector.controlled device c).attach calls).queues place =
      (wantedQueue device cfg rows c place).map .data := by
  rw [applyInjector_eq h, Option.some.injEq] at hcalls
  rw [← hcalls, queues_attach, if_pos (mem_places.2 hp), queues_controlled_data device c hp,
    Option.or_none]

theorem queues_attached_control (h : Staffed rows) {c : Criteria} {calls : List (Byte × QueueId)}
    (hcalls : applyInjector device cfg rows c = some calls) (direction : Direction) :
    ((Injector.controlled device c).attach calls).queues ⟨direction, 0⟩ =
      (Injector.controlled device c).queues ⟨direction, 0⟩ := by
  rw [applyInjector_eq h, Option.some.injEq] at hcalls
  rw [← hcalls, queues_attach, if_neg]
  exact fun hp => mem_places.1 hp rfl

end Calls

end UsbProxy
