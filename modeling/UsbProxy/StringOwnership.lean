import UsbProxy.DeviceStrings

/-!
# Who deletes a string

`Device::~Device` deletes what it finds in the slots of `strings`, one slot after the other.  The three
`add_string` all come down to the one that files a pointer; the ledger is that the (index, language)
pairs in the table are all the pairs ever added, with their repetitions, so an object stands in two slots
exactly when a pair was added twice.
-/

namespace UsbProxy

open KeyedRows

/-- A call of an `add_string`, or a string object made by a caller.  The descriptors are what the device
answers. -/
inductive StringCall
  | new (string : USBString)
  | addString (string : USBStringPtr)
  | addStringByLanguage (index : Byte) (languageId : UInt16) (descriptor : StringDescriptor)
  | addStringByIndex (index : Byte) (descriptors : ℕ → StringDescriptor)

namespace DeviceStrings

/-- `new USBString(..)`; its pointer is the old `made`. -/
def make (d : DeviceStrings) (string : USBString) : DeviceStrings :=
  { d with objects := Function.update d.objects d.made string, made := d.made + 1 }

/-- `add_string(index, languageId)`. -/
def addStringByLanguage (d : DeviceStrings) (index : Byte) (languageId : UInt16)
    (descriptor : StringDescriptor) : DeviceStrings :=
  if !d.proxy then d else (d.make ⟨index, languageId, descriptor⟩).addString d.made

/-- The languages `add_string(index)` goes through: `i<(length-1)` for `length=(p->bLength)>>1`. -/
def zeroLanguages (d : DeviceStrings) : List UInt16 :=
  match d.zero with
  | none => []
  | some z =>
    let p := (d.objects z).descriptor
    (List.range (p.bLength.toNat / 2 - 1)).map fun i => p.wData.getD i 0

/-- `add_string(index)`.  The list is the one string zero has before the loop. -/
def addStringByIndex (d : DeviceStrings) (index : Byte) (descriptors : ℕ → StringDescriptor) :
    DeviceStrings :=
  d.zeroLanguages.zipIdx.foldl (fun d l => d.addStringByLanguage index l.1 (descriptors l.2)) d

/-- A caller's pointer is one of an object. -/
def step (d : DeviceStrings) : StringCall → Option DeviceStrings
  | .new string => some (d.make string)
  | .addString string => if string < d.made then some (d.addString string) else none
  | .addStringByLanguage index languageId descriptor =>
    some (d.addStringByLanguage index languageId descriptor)
  | .addStringByIndex index descriptors => some (d.addStringByIndex index descriptors)

/-- The pairs of index and language a call adds a string for. -/
def added (d : DeviceStrings) : StringCall → List (ℕ × UInt16)
  | .new _ => []
  | .addString string => [(d.indexOf string, d.languageOf string)]
  | .addStringByLanguage index languageId _ => if d.proxy then [(index.toNat, languageId)] else []
  | .addStringByIndex index _ =>
    if d.proxy then d.zeroLanguages.map fun languageId => (index.toNat, languageId) else []

/-- What `~Device` deletes, in order. -/
def deleted (d : DeviceStrings) : List USBStringPtr :=
  (List.range (d.maxStringIdx + 1)).flatMap (row d.strings)

/-- The pairs of the strings in the table. -/
def pairs (d : DeviceStrings) : List (ℕ × UInt16) :=
  (entries d.strings).map fun p => (d.indexOf p, d.languageOf p)

/-- Every string stands in the row of its index, strings of one pair are one object, and what stands in
the table is an object. -/
structure Ledger (d : DeviceStrings) : Prop where
  placed : Placed d.indexOf d.strings
  unambiguous : Unambiguous d.indexOf d.languageOf d.strings
  made : ∀ p ∈ entries d.strings, p < d.made
  allocated : d.strings ≠ []

variable {d t : DeviceStrings}

theorem deleted_eq (h : d.strings ≠ []) : d.deleted = entries d.strings := by
  have hlen : d.maxStringIdx + 1 = d.strings.length :=
    Nat.sub_add_cancel (List.length_pos_iff.2 h)
  have hrows : (List.range d.strings.length).map (Slots.slot d.strings) = d.strings := by
    refine List.ext_getElem (by simp) fun i hi hi' => ?_
    rw [List.getElem_map, List.getElem_range, Slots.slot, List.getElem?_eq_getElem hi',
      Option.join_some]
  unfold deleted entries
  conv_rhs => rw [← hrows]
  rw [hlen, List.flatMap_map]
  rfl

theorem allocated_step {call : StringCall}
    (hstep : d.step call = some t) (h : d.strings ≠ []) : t.strings ≠ [] := by
  have hadd : ∀ (d : DeviceStrings) (string : USBStringPtr), (d.addString string).strings ≠ [] := by
    intro d string
    rw [strings_addString]
    exact List.ne_nil_of_length_pos (by rw [store, Slots.length_put]; omega)
  have hlanguage : ∀ (d : DeviceStrings) index languageId descriptor, d.strings ≠ [] →
      (d.addStringByLanguage index languageId descriptor).strings ≠ [] := by
    intro d index languageId descriptor hd
    unfold addStringByLanguage
    split_ifs
    · exact hd
    · exact hadd _ _
  cases call with
  | new string => exact Option.some.inj hstep ▸ h
  | addString string =>
    simp only [DeviceStrings.step] at hstep
    split_ifs at hstep
    exact Option.some.inj hstep ▸ hadd d string
  | addStringByLanguage index languageId descriptor =>
    exact Option.some.inj hstep ▸ hlanguage d index languageId descriptor h
  | addStringByIndex index descriptors =>
    obtain rfl := Option.some.inj hstep
    unfold addStringByIndex
    induction d.zeroLanguages.zipIdx generalizing d with
    | nil => exact h
    | cons l ls ih => exact ih (hlanguage d index l.1 (descriptors l.2) h) rfl

theorem Ledger.addString (h : d.Ledger) {string : USBStringPtr} (hmade : string < d.made) :
    (d.addString string).Ledger ∧
      (d.addString string).pairs.Perm (d.pairs ++ [(d.indexOf string, d.languageOf string)]) := by
  refine ⟨⟨?_, ?_, ?_, ?_⟩, ?_⟩
  · rw [indexOf_addString, strings_addString]
    exact h.placed.store _ _
  · rw [indexOf_addString, languageOf_addString, strings_addString]
    exact h.unambiguous.store h.placed string
  · rw [strings_addString, made_addString]
    intro p hp
    rcases (mem_entries_store h.placed).1 hp with rfl | ⟨hp, -⟩
    · exact hmade
    · exact h.made p hp
  · rw [strings_addString]
    exact List.ne_nil_of_length_pos (by rw [store, Slots.length_put]; omega)
  · unfold pairs
    rw [indexOf_addString, languageOf_addString, strings_addString]
    exact keys_store h.placed

theorem objects_make (string : USBString) {p : USBStringPtr} (hp : p < d.made) :
    (d.make string).objects p = d.objects p := Function.update_of_ne (Nat.ne_of_lt hp) _ _

theorem Ledger.make (h : d.Ledger) (string : USBString) :
    (d.make string).Ledger ∧ (d.make string).pairs = d.pairs := by
  have hindex : ∀ p ∈ entries d.strings, (d.make string).indexOf p = d.indexOf p := fun p hp =>
    congrArg (fun s => s.index.toNat) (objects_make string (h.made p hp))
  have hlanguage : ∀ p ∈ entries d.strings, (d.make string).languageOf p = d.languageOf p :=
    fun p hp => congrArg USBString.languageId (objects_make string (h.made p hp))
  refine ⟨⟨fun k p hp => ?_, fun p hp q hq hi hl => ?_, fun p hp => ?_, h.allocated⟩, ?_⟩
  · rw [hindex p (mem_entries.2 ⟨k, hp⟩)]
    exact h.placed k p hp
  · rw [hindex p hp, hindex q hq] at hi
    rw [hlanguage p hp, hlanguage q hq] at hl
    exact h.unambiguous p hp q hq hi hl
  · exact Nat.lt_succ_of_lt (h.made p hp)
  · exact List.map_congr_left fun p hp => by rw [hindex p hp, hlanguage p hp]

theorem Ledger.addStringByLanguage (h : d.Ledger) (index : Byte) (languageId : UInt16)
    (descriptor : StringDescriptor) :
    (d.addStringByLanguage index languageId descriptor).Ledger ∧
      (d.addStringByLanguage index languageId descriptor).pairs.Perm
        (d.pairs ++ if d.proxy then [(index.toNat, languageId)] else []) ∧
      (d.addStringByLanguage index languageId descriptor).proxy = d.proxy := by
  unfold DeviceStrings.addStringByLanguage
  cases hproxy : d.proxy with
  | false => exact ⟨h, .of_eq (List.append_nil _).symm, hproxy⟩
  | true =>
    obtain ⟨hmake, hpairs⟩ := h.make ⟨index, languageId, descriptor⟩
    obtain ⟨hadd, hperm⟩ := hmake.addString (Nat.lt_succ_self d.made)
    have hobject : (d.make ⟨index, languageId, descriptor⟩).objects d.made =
        ⟨index, languageId, descriptor⟩ := Function.update_self ..
    rw [hpairs, indexOf, languageOf, hobject] at hperm
    exact ⟨hadd, hperm, (proxy_addString _ _).trans hproxy⟩

theorem Ledger.foldl_addStringByLanguage (h : d.Ledger) (index : Byte)
    (descriptors : ℕ → StringDescriptor) (ls : List (UInt16 × ℕ)) :
    (ls.foldl (fun d l => d.addStringByLanguage index l.1 (descriptors l.2)) d).Ledger ∧
      (ls.foldl (fun d l => d.addStringByLanguage index l.1 (descriptors l.2)) d).pairs.Perm
        (d.pairs ++ if d.proxy then ls.map (fun l => (index.toNat, l.1)) else []) := by
  induction ls generalizing d with
  | nil => exact ⟨h, .of_eq (by simp)⟩
  | cons l ls ih =>
    obtain ⟨hone, hperm, hproxy⟩ := h.addStringByLanguage index l.1 (descriptors l.2)
    obtain ⟨hrest, hrestPerm⟩ := ih hone
    refine ⟨hrest, hrestPerm.trans ?_⟩
    rw [hproxy]
    refine (hperm.append_right _).trans (.of_eq ?_)
    cases d.proxy <;> simp

theorem Ledger.step (h : d.Ledger) {call : StringCall} (hstep : d.step call = some t) :
    t.Ledger ∧ t.pairs.Perm (d.pairs ++ d.added call) := by
  cases call with
  | new string =>
    obtain rfl := Option.some.inj hstep
    obtain ⟨hmake, hpairs⟩ := h.make string
    exact ⟨hmake, .of_eq (hpairs.trans (List.append_nil _).symm)⟩
  | addString string =>
    simp only [DeviceStrings.step] at hstep
    split_ifs at hstep with hmade
    obtain rfl := Option.some.inj hstep
    exact h.addString hmade
  | addStringByLanguage index languageId descriptor =>
    obtain rfl := Option.some.inj hstep
    obtain ⟨hadd, hperm, -⟩ := h.addStringByLanguage index languageId descriptor
    exact ⟨hadd, hperm⟩
  | addStringByIndex index descriptors =>
    obtain rfl := Option.some.inj hstep
    obtain ⟨hadd, hperm⟩ := h.foldl_addStringByLanguage index descriptors d.zeroLanguages.zipIdx
    have hmap : d.zeroLanguages.zipIdx.map (fun l => (index.toNat, l.1)) =
        d.zeroLanguages.map fun languageId => (index.toNat, languageId) := by
      conv_rhs => rw [← List.zipIdx_map_fst 0 d.zeroLanguages, List.map_map]
      rfl
    rw [hmap] at hperm
    exact ⟨hadd, hperm⟩

/-! ## Whole runs -/

theorem entries_new (proxy : Bool) (maxStringIdx : Byte) (zero : StringDescriptor) :
    entries (new proxy maxStringIdx zero).strings = [0] := by
  show [0] ++ entries (List.replicate maxStringIdx.toNat none) = [0]
  rw [entries_replicate, List.append_nil]

theorem ledger_new (proxy : Bool) (maxStringIdx : Byte) (zero : StringDescriptor) :
    (new proxy maxStringIdx zero).Ledger := by
  refine ⟨fun k p hp => ?_, fun p hp q hq _ _ => ?_, fun p hp => ?_, List.cons_ne_nil _ _⟩
  · cases k with
    | zero => rfl
    | succ k =>
      have hmem : p ∈ entries (List.replicate maxStringIdx.toNat none) := mem_entries.2 ⟨k, hp⟩
      rw [entries_replicate] at hmem
      exact absurd hmem List.not_mem_nil
  · rw [entries_new, List.mem_singleton] at hp hq
    rw [hp, hq]
  · rw [entries_new, List.mem_singleton] at hp
    rw [hp]
    exact Nat.zero_lt_one

theorem Ledger.run (h : d.Ledger) {calls : List StringCall}
    (hrun : Runs.run DeviceStrings.step d calls = some t) :
    t.Ledger ∧ t.pairs.Perm (d.pairs ++ (Runs.outputs DeviceStrings.step added d calls).flatten) := by
  induction calls generalizing d with
  | nil =>
    obtain rfl := Option.some.inj hrun
    exact ⟨h, .of_eq (List.append_nil _).symm⟩
  | cons call calls ih =>
    obtain ⟨m, hm, hrun⟩ := (Runs.run_cons_eq_some _).1 hrun
    obtain ⟨hledger, hperm⟩ := h.step hm
    obtain ⟨hfinal, hfinalPerm⟩ := ih hledger hrun
    refine ⟨hfinal, hfinalPerm.trans ?_⟩
    rw [Runs.outputs, hm, List.flatten_cons, ← List.append_assoc]
    exact hperm.append_right _

/-- **After any calls of `add_string`, `~Device` deletes no string twice exactly when no pair of index
and language was added twice, that of string zero included.** -/
theorem deleted_nodup_iff (proxy : Bool) (maxStringIdx : Byte) (zero : StringDescriptor)
    (calls : List StringCall) (t : DeviceStrings)
    (hrun : Runs.run step (new proxy maxStringIdx zero) calls = some t) :
    t.deleted.Nodup ↔
      ((0, 0) :: (Runs.outputs step added (new proxy maxStringIdx zero) calls).flatten).Nodup := by
  obtain ⟨hledger, hperm⟩ := (ledger_new proxy maxStringIdx zero).run hrun
  have hpairs : (new proxy maxStringIdx zero).pairs = [(0, 0)] := by
    rw [pairs, entries_new]
    rfl
  rw [hpairs] at hperm
  rw [deleted_eq hledger.allocated, nodup_entries_iff hledger.unambiguous]
  exact hperm.nodup_iff

/-- The manufacturer string has the same index as that of an interface. -/
def sharedIndex : List StringCall :=
  [.addStringByIndex 1 fun _ => ⟨4, 3, [65]⟩, .addStringByIndex 1 fun _ => ⟨4, 3, [65]⟩]

theorem not_deleted_nodup :
    ¬ ∀ (proxy : Bool) (maxStringIdx : Byte) (zero : StringDescriptor) (calls : List StringCall)
      (t : DeviceStrings), Runs.run step (new proxy maxStringIdx zero) calls = some t →
        t.deleted.Nodup := by
  intro h
  have hnodup := h true 1 ⟨4, 3, [0x0409]⟩ sharedIndex _ rfl
  revert hnodup
  decide

/-- One string in each of two languages. -/
def oneEach : List StringCall :=
  [.addStringByLanguage 1 0x0409 ⟨4, 3, [65]⟩, .addStringByLanguage 1 0x0407 ⟨4, 3, [66]⟩]

theorem deleted_nodup_iff_oneEach :
    ∃ t, Runs.run step (new true 1 ⟨4, 3, [0x0409]⟩) oneEach = some t ∧ t.deleted.Nodup :=
  ⟨_, rfl, (deleted_nodup_iff true 1 ⟨4, 3, [0x0409]⟩ oneEach _ rfl).2 (by decide)⟩

end DeviceStrings

end UsbProxy
