import Mathlib.Data.List.Perm.Subperm
import Mathlib.Data.List.ReduceOption
import UsbProxy.Interface
import UsbProxy.Library.Runs
import UsbProxy.Library.Upserts

/-!
# Building an interface

An `Interface` made from a descriptor has an empty table of endpoints, that `add_endpoint` fills, and no
other descriptors; `add_generic_descriptor` never raises their count.  `built_iff` says which calls leave
an interface that answers for what was added.

An object of class `Endpoint` is known here by the pointer to it.  Pointers are compared and deleted, so
the table holds pointers, and `made` says what object each is of.
-/

namespace UsbProxy

open Upserts

/-- An `Interface` with its endpoints as pointers, and the endpoints it deleted. -/
structure InterfaceObject where
  descriptor : UsbInterfaceDescriptor
  endpoints : List (Option ℕ)
  deleted : List ℕ
  genericDescriptors : GenericDescriptors
  endpoints_length : endpoints.length = descriptor.bNumEndpoints.toNat

/-- `add_generic_descriptor`: a block for `generic_descriptor_count` entries, which is not raised, and
the store at `generic_descriptor_count-1`; `none` is a store in front of the block. -/
def GenericDescriptors.addGenericDescriptor (g : GenericDescriptors) (d : GenericDescriptor) :
    Option GenericDescriptors :=
  if g.count = 0 then Option.none
  else some { g with
    entries := g.entries.set (g.count.toNat - 1) d
    length_eq := by rw [List.length_set]; exact g.length_eq }

/-- A call that adds to an interface. -/
inductive BuilderCall
  | endpoint (endpoint : ℕ)
  | generic (gd : GenericDescriptor)

def BuilderCall.endpoint? : BuilderCall → Option ℕ
  | endpoint p => some p
  | generic _ => none

def BuilderCall.generic? : BuilderCall → Option GenericDescriptor
  | endpoint _ => none
  | generic gd => some gd

variable (made : ℕ → Endpoint)

/-- `get_descriptor()->bEndpointAddress`. -/
def address (p : ℕ) : Byte := (made p).descriptor.bEndpointAddress

namespace InterfaceObject

/-- The constructor from a descriptor; the one from fields fills in a descriptor first. -/
def new (descriptor : UsbInterfaceDescriptor) : InterfaceObject where
  descriptor := descriptor
  endpoints := List.replicate descriptor.bNumEndpoints.toNat none
  deleted := []
  genericDescriptors := .none
  endpoints_length := List.length_replicate

/-- The loop of `add_endpoint`: the entries and the deleted objects behind it; `none` where a deleted
object is asked for its descriptor. -/
def addLoop (deleted : List ℕ) (endpoint : ℕ) : List (Option ℕ) → Option (List (Option ℕ) × List ℕ)
  | [] => some ([], deleted)
  | none :: endpoints => some (some endpoint :: endpoints, deleted)
  | some q :: endpoints =>
    if q ∈ deleted ∨ endpoint ∈ deleted then none
    else if address made q = address made endpoint then some (some endpoint :: endpoints, q :: deleted)
    else (addLoop deleted endpoint endpoints).map fun r => (some q :: r.1, r.2)

variable {made} in
theorem length_addLoop {deleted : List ℕ} {p : ℕ} {l : List (Option ℕ)} {r : List (Option ℕ) × List ℕ}
    (h : addLoop made deleted p l = some r) : r.1.length = l.length := by
  induction l generalizing r with
  | nil =>
    cases h
    rfl
  | cons slot l ih =>
    cases slot with
    | none =>
      cases h
      rfl
    | some q =>
      rw [addLoop] at h
      split_ifs at h
      · cases h
        rfl
      · obtain ⟨r', hr', rfl⟩ := Option.map_eq_some_iff.1 h
        rw [List.length_cons, List.length_cons, ih hr']

def addEndpoint (i : InterfaceObject) (endpoint : ℕ) : Option InterfaceObject :=
  match h : addLoop made i.deleted endpoint i.endpoints with
  | none => none
  | some r => some { i with
      endpoints := r.1
      deleted := r.2
      endpoints_length := (length_addLoop h).trans i.endpoints_length }

def addGenericDescriptor (i : InterfaceObject) (gd : GenericDescriptor) : Option InterfaceObject :=
  (i.genericDescriptors.addGenericDescriptor gd).map fun g => { i with genericDescriptors := g }

/-- The loop of `get_endpoint_by_address`; `none` where it follows a null pointer or one to a deleted
object. -/
def addressLoop (deleted : List ℕ) (a : Byte) : List (Option ℕ) → Option (Option ℕ)
  | [] => some none
  | none :: _ => none
  | some q :: endpoints =>
    if q ∈ deleted then none
    else if address made q = a then some (some q)
    else addressLoop deleted a endpoints

def getEndpointByAddress (i : InterfaceObject) (a : Byte) : Option (Option ℕ) :=
  addressLoop made i.deleted a i.endpoints

def getGenericDescriptorCount (i : InterfaceObject) : Byte := i.genericDescriptors.count

def getGenericDescriptor (i : InterfaceObject) (index : Byte) : Option GenericDescriptor :=
  if i.genericDescriptors.count ≤ index then none else i.genericDescriptors.entries[index.toNat]?

/-- An entry of the table points to a deleted object. -/
def Dangles (i : InterfaceObject) : Prop := ∃ q ∈ i.deleted, some q ∈ i.endpoints

instance (i : InterfaceObject) : Decidable i.Dangles := inferInstanceAs (Decidable (∃ q ∈ _, _))

/-- The interface with the objects the table points to. -/
def interface (i : InterfaceObject) : Interface where
  descriptor := i.descriptor
  endpoints := i.endpoints.map (Option.map made)
  hidDescriptor := none
  genericDescriptors := i.genericDescriptors
  endpoints_length := by rw [List.length_map]; exact i.endpoints_length

/-- `get_full_descriptor` copies the descriptor of each object the table points to. -/
def getFullDescriptor (i : InterfaceObject) : Option (List Byte) :=
  if i.Dangles then none else some (i.interface made).getFullDescriptor

def step (i : InterfaceObject) : BuilderCall → Option InterfaceObject
  | .endpoint p => i.addEndpoint made p
  | .generic gd => i.addGenericDescriptor gd

end InterfaceObject

/-! ## What was added -/

def added (calls : List BuilderCall) : List ℕ := calls.filterMap BuilderCall.endpoint?

def others (calls : List BuilderCall) : List GenericDescriptor :=
  calls.filterMap BuilderCall.generic?

def addresses (ps : List ℕ) : List Byte := (ps.map (address made)).eraseDups

/-- The interface answers for the endpoints and the descriptors that were added: for every address with
the endpoint last added, with the descriptors by their index, and with the bytes of all. -/
structure InterfaceObject.Answers (d : UsbInterfaceDescriptor) (calls : List BuilderCall)
    (i : InterfaceObject) : Prop where
  lookup : ∀ a, i.getEndpointByAddress made a = some (last (address made) (added calls) a)
  count : i.getGenericDescriptorCount.toNat = (others calls).length
  generic : ∀ index : Byte, index.toNat < (others calls).length →
    i.getGenericDescriptor index = (others calls)[index.toNat]?
  full : i.getFullDescriptor made = some
    (fromStruct d.bytes d.bLength ++ (others calls).flatMap Records.Record.bytes ++
      ((addresses made (added calls)).filterMap (last (address made) (added calls))).flatMap
        fun p => (made p).getFullDescriptor)

namespace InterfaceObject

/-! ## One call -/

section Loops

variable {made} {deleted l front back : List ℕ} {p q : ℕ} {k : ℕ}

theorem addLoop_append (hl : ∀ q ∈ front, q ∉ deleted) (hp : p ∉ deleted)
    (hne : address made p ∉ front.map (address made)) (slots : List (Option ℕ)) :
    addLoop made deleted p (front.map some ++ slots) =
      (addLoop made deleted p slots).map fun r => (front.map some ++ r.1, r.2) := by
  induction front with
  | nil =>
    rw [List.map_nil, List.nil_append]
    exact Option.map_id'.symm
  | cons q front ih =>
    rw [List.map_cons, List.mem_cons, not_or] at hne
    have hq : ¬ (q ∈ deleted ∨ p ∈ deleted) := not_or.2 ⟨hl q List.mem_cons_self, hp⟩
    rw [List.map_cons, List.cons_append, addLoop, if_neg hq, if_neg (Ne.symm hne.1),
      ih (fun q hq => hl q (List.mem_cons_of_mem _ hq)) hne.2, Option.map_map]
    rfl

theorem addLoop_new (hl : ∀ q ∈ l, q ∉ deleted) (hp : p ∉ deleted)
    (hne : address made p ∉ l.map (address made)) (hk : 0 < k) :
    addLoop made deleted p (l.map some ++ List.replicate k none) =
      some ((l ++ [p]).map some ++ List.replicate (k - 1) none, deleted) := by
  obtain ⟨k, rfl⟩ := Nat.exists_eq_add_of_le' hk
  rw [addLoop_append hl hp hne, List.replicate_succ, addLoop, Option.map_some, Nat.add_sub_cancel,
    List.map_append, List.append_assoc]
  rfl

/-- An endpoint whose address is in the table replaces the object there, which is deleted. -/
theorem addLoop_replace (hl : ∀ c ∈ front ++ q :: back, c ∉ deleted) (hp : p ∉ deleted)
    (hne : address made p ∉ front.map (address made)) (hq : address made q = address made p) :
    addLoop made deleted p ((front ++ q :: back).map some ++ List.replicate k none) =
      some ((front ++ p :: back).map some ++ List.replicate k none, q :: deleted) := by
  have hfront : ∀ q ∈ front, q ∉ deleted := fun q hq => hl q (List.mem_append_left _ hq)
  have hlive : ¬ (q ∈ deleted ∨ p ∈ deleted) :=
    not_or.2 ⟨hl q (List.mem_append_right _ List.mem_cons_self), hp⟩
  rw [List.map_append, List.append_assoc, addLoop_append hfront hp hne, List.map_cons,
    List.cons_append, addLoop, if_neg hlive, if_pos hq, Option.map_some, List.map_append,
    List.append_assoc]
  rfl

/-- The loop never takes a pointer to a deleted object out of the table. -/
theorem dangles_of_addLoop {slots : List (Option ℕ)} {r : List (Option ℕ) × List ℕ}
    (h : addLoop made deleted p slots = some r) (hq : q ∈ deleted) (hslot : some q ∈ slots) :
    q ∈ r.2 ∧ some q ∈ r.1 := by
  induction slots generalizing r with
  | nil => exact absurd hslot List.not_mem_nil
  | cons slot slots ih =>
    cases slot with
    | none =>
      cases h
      refine ⟨hq, List.mem_cons_of_mem _ ?_⟩
      exact (List.mem_cons.1 hslot).resolve_left (Option.some_ne_none q)
    | some c =>
      rw [addLoop] at h
      split_ifs at h with hdel haddr
      · cases h
        refine ⟨List.mem_cons_of_mem _ hq, List.mem_cons_of_mem _ ?_⟩
        refine (List.mem_cons.1 hslot).resolve_left fun hqc => hdel (.inl ?_)
        exact Option.some.inj hqc ▸ hq
      · obtain ⟨r', hr', rfl⟩ := Option.map_eq_some_iff.1 h
        rcases List.mem_cons.1 hslot with hqc | hslot
        · exact absurd (.inl (Option.some.inj hqc ▸ hq)) hdel
        · exact ⟨(ih hr' hslot).1, List.mem_cons_of_mem _ (ih hr' hslot).2⟩

theorem addressLoop_append (hl : ∀ q ∈ l, q ∉ deleted) (a : Byte) (slots : List (Option ℕ)) :
    addressLoop made deleted a (l.map some ++ slots) =
      match l.find? (fun q => address made q = a) with
      | some q => some (some q)
      | none => addressLoop made deleted a slots := by
  induction l with
  | nil => rfl
  | cons q l ih =>
    rw [List.map_cons, List.cons_append, addressLoop, if_neg (hl q List.mem_cons_self),
      List.find?_cons]
    by_cases hq : address made q = a
    · rw [if_pos hq, decide_eq_true hq]
    · rw [if_neg hq, decide_eq_false hq]
      exact ih fun q hq => hl q (List.mem_cons_of_mem _ hq)

end Loops

/-! ## All calls -/

/-- The interface after different endpoints: the table holds, in the order in which the addresses first
came, the endpoint that came last with each, and the others are deleted. -/
structure Holds (d : UsbInterfaceDescriptor) (ps : List ℕ) (i : InterfaceObject) : Prop where
  descriptor : i.descriptor = d
  generic : i.genericDescriptors = .none
  endpoints : i.endpoints = (fill (address made) ps).map some ++
    List.replicate (d.bNumEndpoints.toNat - (fill (address made) ps).length) none
  deleted : ∀ q, q ∈ i.deleted ↔ q ∈ ps ∧ q ∉ fill (address made) ps

section Calls

variable {made} {d : UsbInterfaceDescriptor} {ps : List ℕ} {calls : List BuilderCall}
  {i i' : InterfaceObject} {p q : ℕ}

theorem addEndpoint_eq_some {r : List (Option ℕ) × List ℕ}
    (h : addLoop made i.deleted p i.endpoints = some r) :
    ∃ i', i.addEndpoint made p = some i' ∧ i'.descriptor = i.descriptor ∧
      i'.genericDescriptors = i.genericDescriptors ∧ i'.endpoints = r.1 ∧ i'.deleted = r.2 := by
  unfold addEndpoint
  split
  · next hnone =>
    rw [h] at hnone
    cases hnone
  · next r' hsome =>
    obtain rfl := Option.some.inj (h.symm.trans hsome)
    exact ⟨_, rfl, rfl, rfl, rfl, rfl⟩

theorem addLoop_of_addEndpoint (h : i.addEndpoint made p = some i') :
    ∃ r, addLoop made i.deleted p i.endpoints = some r ∧
      i'.genericDescriptors = i.genericDescriptors ∧ i'.endpoints = r.1 ∧ i'.deleted = r.2 := by
  cases hr : addLoop made i.deleted p i.endpoints with
  | none =>
    unfold addEndpoint at h
    split at h
    · cases h
    · next r hsome =>
      rw [hr] at hsome
      cases hsome
  | some r =>
    obtain ⟨i'', h'', -, ho, hep, hdel⟩ := addEndpoint_eq_some hr
    obtain rfl := Option.some.inj (h''.symm.trans h)
    exact ⟨r, rfl, ho, hep, hdel⟩

theorem length_addresses (made : ℕ → Endpoint) (ps : List ℕ) :
    (addresses made ps).length = (fill (address made) ps).length := by
  rw [addresses, ← keys_fill, List.length_map]

theorem holds_new (made : ℕ → Endpoint) (d : UsbInterfaceDescriptor) : (new d).Holds made d [] where
  descriptor := rfl
  generic := rfl
  endpoints := rfl
  deleted := fun _ => iff_of_false List.not_mem_nil fun h => List.not_mem_nil h.1

theorem mem_of_mem_fill (h : q ∈ fill (address made) ps) : q ∈ ps := (mem_of_last (mem_fill.1 h)).1

theorem Holds.live (h : i.Holds made d ps) : ∀ q ∈ fill (address made) ps, q ∉ i.deleted :=
  fun q hq hdel => ((h.deleted q).1 hdel).2 hq

theorem Holds.replace (h : i.Holds made d ps) (hp : p ∉ ps)
    (haddr : address made p ∈ (fill (address made) ps).map (address made)) :
    ∃ i', i.addEndpoint made p = some i' ∧ i'.Holds made d (ps ++ [p]) := by
  have hdel : p ∉ i.deleted := fun hmem => hp ((h.deleted p).1 hmem).1
  obtain ⟨front, c, back, heq, hc, hfront⟩ := exists_of_mem_keys haddr
  have hcf : c ∈ fill (address made) ps := heq ▸ List.mem_append_right _ List.mem_cons_self
  have hcp : c ≠ p := fun he => hp (he ▸ mem_of_mem_fill hcf)
  have hloop := addLoop_replace (k := d.bNumEndpoints.toNat - (front ++ c :: back).length)
    (heq ▸ h.live) hdel hfront hc
  rw [← heq, ← h.endpoints] at hloop
  obtain ⟨i', hi', hd, ho, hep, hdl⟩ := addEndpoint_eq_some hloop
  refine ⟨i', hi', hd.trans h.descriptor, ho.trans h.generic, ?_, fun q => ?_⟩
  · rw [hep, fill_concat, heq, upsert_of_key_eq hfront hc]
    simp only [List.length_append, List.length_cons]
  · rw [hdl, List.mem_cons, h.deleted, fill_concat, mem_upsert (nodup_keys_fill _ _), List.mem_append,
      List.mem_singleton, not_or]
    constructor
    · rintro (rfl | ⟨hq, hqf⟩)
      · exact ⟨.inl (mem_of_mem_fill hcf), hcp, fun hne => hne.2 hc⟩
      · exact ⟨.inl hq, fun he => hp (he ▸ hq), fun hqf' => hqf hqf'.1⟩
    · rintro ⟨hq, hqp, hgone⟩
      by_cases hqf : q ∈ fill (address made) ps
      · -- The table has one object for an address.
        refine .inl (eq_of_mem_fill hqf hcf ?_)
        rw [hc]
        exact not_not.1 fun hne => hgone ⟨hqf, hne⟩
      · exact .inr ⟨hq.resolve_right hqp, hqf⟩

theorem Holds.append (h : i.Holds made d ps) (hp : p ∉ ps)
    (haddr : address made p ∉ (fill (address made) ps).map (address made))
    (hroom : (fill (address made) ps).length < d.bNumEndpoints.toNat) :
    ∃ i', i.addEndpoint made p = some i' ∧ i'.Holds made d (ps ++ [p]) := by
  have hdel : p ∉ i.deleted := fun hmem => hp ((h.deleted p).1 hmem).1
  have hloop := addLoop_new h.live hdel haddr (Nat.sub_pos_of_lt hroom)
  rw [← h.endpoints] at hloop
  obtain ⟨i', hi', hd, ho, hep, hdl⟩ := addEndpoint_eq_some hloop
  refine ⟨i', hi', hd.trans h.descriptor, ho.trans h.generic, ?_, fun q => ?_⟩
  · rw [hep, fill_concat, upsert_of_notMem haddr, List.length_append, List.length_singleton,
      Nat.sub_sub]
  · rw [hdl, h.deleted, fill_concat, upsert_of_notMem haddr, List.mem_append, List.mem_append,
      List.mem_singleton, not_or]
    constructor
    · rintro ⟨hq, hqf⟩
      exact ⟨.inl hq, hqf, fun he => hp (he ▸ hq)⟩
    · rintro ⟨hq, hqf, hqp⟩
      exact ⟨hq.resolve_right hqp, hqf⟩

theorem Holds.addEndpoint (h : i.Holds made d ps) (hp : p ∉ ps)
    (hlen : (addresses made (ps ++ [p])).length ≤ d.bNumEndpoints.toNat) :
    ∃ i', i.addEndpoint made p = some i' ∧ i'.Holds made d (ps ++ [p]) := by
  by_cases haddr : address made p ∈ (fill (address made) ps).map (address made)
  · exact h.replace hp haddr
  · rw [length_addresses, fill_concat, upsert_of_notMem haddr, List.length_append,
      List.length_singleton] at hlen
    exact h.append hp haddr hlen

theorem Holds.not_dangles (h : i.Holds made d ps) : ¬ i.Dangles := by
  rintro ⟨q, hq, hslot⟩
  rw [h.endpoints, List.mem_append, List.mem_replicate] at hslot
  rcases hslot with hslot | ⟨-, hnone⟩
  · obtain ⟨q', hq', he⟩ := List.mem_map.1 hslot
    exact h.live q (Option.some.inj he ▸ hq') hq
  · cases hnone

theorem dangles_of_addEndpoint (h : i.addEndpoint made p = some i') (hd : i.Dangles) : i'.Dangles := by
  obtain ⟨q, hq, hslot⟩ := hd
  obtain ⟨r, hr, -, hep, hdel⟩ := addLoop_of_addEndpoint h
  refine ⟨q, ?_⟩
  rw [hep, hdel]
  exact dangles_of_addLoop hr hq hslot

/-- An endpoint that was added before is deleted, or deleted then and put into the table again. -/
theorem Holds.dangles_of_mem (h : i.Holds made d ps) (hp : p ∈ ps)
    (hi' : i.addEndpoint made p = some i') : i'.Dangles := by
  obtain ⟨r, hr, -, hep, hdel⟩ := addLoop_of_addEndpoint hi'
  by_cases hpf : p ∈ fill (address made) ps
  · obtain ⟨front, c, back, heq, hc, hfront⟩ :=
      exists_of_mem_keys (List.mem_map_of_mem (f := address made) hpf)
    have hcp : c = p := eq_of_mem_fill (heq ▸ List.mem_append_right _ List.mem_cons_self) hpf hc
    subst hcp
    have hlive := h.live
    rw [heq] at hlive
    rw [h.endpoints, heq, addLoop_replace hlive (h.live c hpf) hfront rfl] at hr
    obtain rfl := Option.some.inj hr
    refine ⟨c, ?_, ?_⟩
    · rw [hdel]
      exact List.mem_cons_self
    · rw [hep, List.map_append, List.map_cons]
      simp
  · have hkey : address made p ∈ (fill (address made) ps).map (address made) := by
      rw [keys_fill, List.mem_eraseDups]
      exact List.mem_map_of_mem hp
    cases hf : fill (address made) ps with
    | nil =>
      rw [hf] at hkey
      exact absurd hkey List.not_mem_nil
    | cons c l =>
      have hpd : p ∈ i.deleted := (h.deleted p).2 ⟨hp, hpf⟩
      rw [h.endpoints, hf, List.map_cons, List.cons_append, addLoop, if_pos (.inr hpd)] at hr
      cases hr

theorem length_addresses_le {n : ℕ} (ps : List ℕ) (p : ℕ)
    (h : (addresses made (ps ++ [p])).length ≤ n) : (addresses made ps).length ≤ n := by
  refine Nat.le_trans ?_ h
  unfold addresses
  rw [List.map_append, List.eraseDups_append, List.length_append]
  exact Nat.le_add_right _ _

/-- Different endpoints with at most `bNumEndpoints` addresses find their places. -/
theorem run_endpoints (hnd : ps.Nodup) (hlen : (addresses made ps).length ≤ d.bNumEndpoints.toNat) :
    ∃ i, Runs.run (step made) (new d) (ps.map .endpoint) = some i ∧ i.Holds made d ps := by
  rw [Runs.run_map]
  exact Runs.exists_run (fun ps => (addresses made ps).length ≤ d.bNumEndpoints.toNat)
    (holds_new made d) length_addresses_le (fun _ _ _ h hp hi => hi.addEndpoint hp h) hlen hnd

/-- No endpoint was added twice if the table has no pointer to a deleted object. -/
theorem nodup_of_run (hlen : (addresses made ps).length ≤ d.bNumEndpoints.toNat)
    (hrun : Runs.run (step made) (new d) (ps.map .endpoint) = some i) (hi : ¬ i.Dangles) : ps.Nodup := by
  rw [Runs.run_map] at hrun
  exact Runs.nodup_of_run (fun ps => (addresses made ps).length ≤ d.bNumEndpoints.toNat)
    (holds_new made d) length_addresses_le (fun _ _ _ h hp hi => hi.addEndpoint hp h)
    (fun _ _ _ _ _ _ => dangles_of_addEndpoint) (fun _ _ _ _ hholds => hholds.dangles_of_mem) hlen hrun hi

/-- The count of the other descriptors is 0 all along, and a call that adds one does not get through. -/
theorem others_of_run (ho : i'.genericDescriptors = .none)
    (hrun : Runs.run (step made) i' calls = some i) :
    others calls = [] := by
  induction calls generalizing i' with
  | nil => rfl
  | cons c calls ih =>
    obtain ⟨m, hm, hrest⟩ := (Runs.run_cons_eq_some _).1 hrun
    cases c with
    | endpoint p =>
      obtain ⟨r, -, hgen, -, -⟩ := addLoop_of_addEndpoint hm
      exact ih (hgen.trans ho) hrest
    | generic gd =>
      have hnone : i'.addGenericDescriptor gd = none := by
        have hcount : i'.genericDescriptors.count = 0 := congrArg GenericDescriptors.count ho
        unfold addGenericDescriptor GenericDescriptors.addGenericDescriptor
        rw [if_pos hcount, Option.map_none]
      rw [step, hnone] at hm
      cases hm

theorem calls_of_others (h : others calls = []) : calls = (added calls).map .endpoint := by
  induction calls with
  | nil => rfl
  | cons c calls ih =>
    cases c with
    | endpoint p => exact congrArg (BuilderCall.endpoint p :: ·) (ih h)
    | generic gd => cases h

/-! ## What the interface answers -/

/-- The lookup of an address: behind the endpoints it meets the empty entries. -/
theorem Holds.lookup (h : i.Holds made d ps) (a : Byte) :
    i.getEndpointByAddress made a =
      match last (address made) ps a with
      | some q => some (some q)
      | none => if (addresses made ps).length < d.bNumEndpoints.toNat then none else some none := by
  unfold getEndpointByAddress
  rw [h.endpoints, addressLoop_append h.live, find?_fill, length_addresses]
  cases last (address made) ps a with
  | some q => rfl
  | none =>
    split_ifs with hlt
    · obtain ⟨k, hk⟩ := Nat.exists_eq_add_of_le' (Nat.sub_pos_of_lt hlt)
      simp only [hk, List.replicate_succ, addressLoop]
    · simp only [Nat.sub_eq_zero_of_le (Nat.not_lt.1 hlt), List.replicate_zero, addressLoop]

theorem Holds.getFullDescriptor (h : i.Holds made d ps) :
    i.getFullDescriptor made = some (fromStruct d.bytes d.bLength ++
      ((addresses made ps).filterMap (last (address made) ps)).flatMap
        fun p => (made p).getFullDescriptor) := by
  unfold InterfaceObject.getFullDescriptor
  rw [if_neg h.not_dangles, addresses, ← fill_eq]
  have hends : (i.interface made).endpoints.reduceOption = (fill (address made) ps).map made := by
    show (i.endpoints.map (Option.map made)).reduceOption = _
    rw [List.reduceOption_map, h.endpoints, List.reduceOption_append,
      List.reduceOption_replicate_none, List.append_nil, List.reduceOption, List.filterMap_map]
    exact congrArg (List.map made) List.filterMap_some
  have hd : (i.interface made).descriptor = d := h.descriptor
  have hhid : (i.interface made).hidDescriptor = none := rfl
  have hothers : (i.interface made).genericDescriptors.entries = [] :=
    congrArg GenericDescriptors.entries h.generic
  unfold Interface.getFullDescriptor
  rw [hends, List.flatMap_map, hd, hhid, hothers, Option.toList_none, List.flatMap_nil,
    List.append_nil, List.append_nil]

theorem exists_notMem {l : List Byte} (h : l.length < 256) : ∃ a, a ∉ l := by
  by_contra hall
  have hsub : (List.range 256).map UInt8.ofNat ⊆ l := fun a _ => not_not.1 fun ha => hall ⟨a, ha⟩
  have hnd : ((List.range 256).map UInt8.ofNat).Nodup := by
    refine List.Nodup.map_on (fun m hm n hn he => ?_) List.nodup_range
    rw [← UInt8.toNat_ofNat_of_lt' (List.mem_range.1 hm), he,
      UInt8.toNat_ofNat_of_lt' (List.mem_range.1 hn)]
  have hle := (hnd.subperm hsub).length_le
  rw [List.length_map, List.length_range] at hle
  omega

/-- Behind different endpoints and nothing else, the interface answers if the table is full: the lookup
of an address that was not added goes on to the first empty entry. -/
theorem Holds.answers_iff (h : i.Holds made d (added calls)) (ho : others calls = [])
    (hlen : (addresses made (added calls)).length ≤ d.bNumEndpoints.toNat) :
    i.Answers made d calls ↔ (addresses made (added calls)).length = d.bNumEndpoints.toNat := by
  constructor
  · intro hans
    obtain ⟨a, ha⟩ := exists_notMem (Nat.lt_of_le_of_lt hlen d.bNumEndpoints.toNat_lt)
    have hlast : last (address made) (added calls) a = none := by
      rw [last_eq_none_iff]
      exact fun hmem => ha (List.mem_eraseDups.2 hmem)
    have hnull := hans.lookup a
    rw [h.lookup, hlast] at hnull
    by_contra hne
    rw [if_pos (Nat.lt_of_le_of_ne hlen hne)] at hnull
    cases hnull
  · intro heq
    have hcount : i.genericDescriptors.count = 0 := congrArg GenericDescriptors.count h.generic
    refine ⟨fun a => ?_, ?_, fun index hindex => ?_, ?_⟩
    · rw [h.lookup]
      cases last (address made) (added calls) a with
      | some q => rfl
      | none => exact if_neg (Nat.not_lt.2 (Nat.le_of_eq heq.symm))
    · rw [getGenericDescriptorCount, hcount, ho]
      rfl
    · rw [ho] at hindex
      exact absurd hindex (Nat.not_lt_zero _)
    · rw [h.getFullDescriptor, ho, List.flatMap_nil, List.append_nil]

end Calls

variable {made}

/-- **The interface answers for what was added exactly when nothing but different endpoints was, and as
many addresses as the descriptor announces:** no other descriptor is ever counted, an endpoint added
twice is deleted, and a lookup follows the first empty entry. -/
theorem built_iff (d : UsbInterfaceDescriptor) (calls : List BuilderCall)
    (hlen : (addresses made (added calls)).length ≤ d.bNumEndpoints.toNat) :
    (∃ i, Runs.run (step made) (new d) calls = some i ∧ i.Answers made d calls) ↔
      others calls = [] ∧ (added calls).Nodup ∧
        (addresses made (added calls)).length = d.bNumEndpoints.toNat := by
  constructor
  · rintro ⟨i, hrun, hans⟩
    have hothers := others_of_run rfl hrun
    rw [calls_of_others hothers] at hrun
    have hdangles : ¬ i.Dangles := by
      intro hd
      have hfull := hans.full
      rw [InterfaceObject.getFullDescriptor, if_pos hd] at hfull
      cases hfull
    have hnd := nodup_of_run hlen hrun hdangles
    obtain ⟨i', hrun', hholds⟩ := run_endpoints hnd hlen
    obtain rfl := Option.some.inj (hrun'.symm.trans hrun)
    exact ⟨hothers, hnd, (hholds.answers_iff hothers hlen).1 hans⟩
  · rintro ⟨hothers, hnd, heq⟩
    obtain ⟨i, hrun, hholds⟩ := run_endpoints hnd hlen
    rw [← calls_of_others hothers] at hrun
    exact ⟨i, hrun, (hholds.answers_iff hothers hlen).2 heq⟩

/-- Two endpoints with one address fill the table of one entry. -/
theorem built_replaced :
    let d : UsbInterfaceDescriptor := ⟨9, 4, 0, 0, 1, 3, 0, 0, 0⟩
    let made : ℕ → Endpoint := fun _ => ⟨⟨7, 5, 0x81, 3, 8, 1, 0, 0⟩⟩
    ∃ i, Runs.run (step made) (new d) [.endpoint 0, .endpoint 1] = some i ∧
      i.Answers made d [.endpoint 0, .endpoint 1] :=
  (built_iff _ _ (by decide)).2 ⟨rfl, by decide, by decide⟩

/-- A first other descriptor is stored in front of its block; with one of two endpoints added, the lookup
of another address follows a null pointer; and an endpoint added twice is deleted in the table. -/
theorem built_fails :
    let d (n : Byte) : UsbInterfaceDescriptor := ⟨9, 4, 0, 0, n, 3, 0, 0, 0⟩
    let made : ℕ → Endpoint := fun _ => ⟨⟨7, 5, 0x81, 3, 8, 1, 0, 0⟩⟩
    let gd : GenericDescriptor := ⟨[3, 0x24, 1], rfl⟩
    let Builds (n : Byte) (calls : List BuilderCall) : Prop :=
      ∃ i, Runs.run (step made) (new (d n)) calls = some i ∧ i.Answers made (d n) calls
    ((Runs.run (step made) (new (d 1)) [.generic gd]).isNone ∧ ¬ Builds 1 [.generic gd]) ∧
      ((Runs.run (step made) (new (d 2)) [.endpoint 0]).map (·.getEndpointByAddress made 0x82) =
          some none ∧ ¬ Builds 2 [.endpoint 0]) ∧
      ((Runs.run (step made) (new (d 1)) [.endpoint 0, .endpoint 0]).map
          (·.getEndpointByAddress made 0x81) = some none ∧ ¬ Builds 1 [.endpoint 0, .endpoint 0]) := by
  refine ⟨⟨rfl, ?_⟩, ⟨rfl, ?_⟩, ⟨rfl, ?_⟩⟩
  · rintro ⟨i, hrun, -⟩
    cases hrun
  · rintro ⟨i, hrun, hans⟩
    obtain rfl := Option.some.inj hrun
    exact absurd (hans.lookup 0x82) (by decide)
  · rintro ⟨i, hrun, hans⟩
    obtain rfl := Option.some.inj hrun
    exact absurd (hans.lookup 0x81) (by decide)

end InterfaceObject

end UsbProxy
