import UsbProxy.Configuration
import UsbProxy.Library.Runs
import UsbProxy.Library.Slots

/-!
# Building an interface group

`add_interface` stores an interface at the index of its alternate setting, in a table that grows by a copy
and has its count in a byte.  A table for the alternate setting 255 has 256 entries and the count 0, so
nothing in it is seen any more.  `addInterfaces_iff` says which calls leave a group that answers for what
was added.

As in an interface, an object is known by the pointer to it; `made` says what object each is of.
-/

namespace UsbProxy

open Slots Upserts

/-- An `InterfaceGroup` with its interfaces as pointers, and the interfaces it deleted. -/
structure InterfaceGroupObject where
  number : Byte
  alternateCount : Byte
  interfaces : List (Option ℕ)
  deleted : List ℕ
  activeAlternateIndex : ℤ
  count_eq : alternateCount = UInt8.ofNat interfaces.length
  length_le : interfaces.length ≤ 256

variable (made : ℕ → Interface)

/-- `get_descriptor()->bAlternateSetting`. -/
def alternateSetting (p : ℕ) : Byte := (made p).descriptor.bAlternateSetting

namespace InterfaceGroupObject

def new (number : Byte) : InterfaceGroupObject where
  number := number
  alternateCount := 0
  interfaces := []
  deleted := []
  activeAlternateIndex := -1
  count_eq := by rw [List.length_nil]; rfl
  length_le := Nat.zero_le _

theorem count_le (g : InterfaceGroupObject) : g.alternateCount.toNat ≤ g.interfaces.length := by
  rw [g.count_eq, UInt8.toNat_ofNat']
  exact Nat.mod_le ..

/-- `calloc(alternate+1)`, the copy of the old entries and the store behind them. -/
def grown (g : InterfaceGroupObject) (alternate : Byte) (interface : ℕ) : List (Option ℕ) :=
  g.interfaces.take g.alternateCount.toNat ++
    List.replicate (alternate.toNat - g.alternateCount.toNat) none ++ [some interface]

theorem length_grown {g : InterfaceGroupObject} {alternate : Byte} (h : g.alternateCount ≤ alternate)
    (interface : ℕ) : (g.grown alternate interface).length = alternate.toNat + 1 := by
  have hle := UInt8.le_iff_toNat_le.1 h
  rw [grown, List.length_append, List.length_append, List.length_take, List.length_replicate,
    List.length_singleton, Nat.min_eq_left g.count_le, Nat.add_sub_cancel' hle]

/-- `interfaces[alternate]=interface` in the table there is. -/
def store (g : InterfaceGroupObject) (alternate : Byte) (interface : ℕ) : InterfaceGroupObject :=
  { g with
    interfaces := g.interfaces.set alternate.toNat (some interface)
    count_eq := by rw [List.length_set]; exact g.count_eq
    length_le := by rw [List.length_set]; exact g.length_le }

/-- `add_interface`; `none` where a deleted object is asked for its descriptor or deleted again. -/
def addInterface (g : InterfaceGroupObject) (interface : ℕ) : Option InterfaceGroupObject :=
  let alternate := alternateSetting made interface
  if interface ∈ g.deleted then none
  else if h : g.alternateCount ≤ alternate then
    some { g with
      alternateCount := alternate + 1
      interfaces := g.grown alternate interface
      count_eq := by rw [length_grown h, UInt8.ofNat_add, UInt8.ofNat_toNat]; rfl
      length_le := by rw [length_grown h]; exact alternate.toNat_lt }
  else
    match slot g.interfaces alternate.toNat with
    | none => some (g.store alternate interface)
    | some q =>
      if q ∈ g.deleted then none
      else some { g.store alternate interface with deleted := q :: g.deleted }

/-- The pointer `get_interface` returns, which is not followed. -/
def getInterface (g : InterfaceGroupObject) (alternate : Byte) : Option ℕ :=
  if g.alternateCount ≤ alternate then none else slot g.interfaces alternate.toNat

/-- An entry the loops over `alternateCount` see points to a deleted object. -/
def Dangles (g : InterfaceGroupObject) : Prop :=
  ∃ q ∈ g.deleted, some q ∈ g.interfaces.take g.alternateCount.toNat

instance (g : InterfaceGroupObject) : Decidable g.Dangles := inferInstanceAs (Decidable (∃ q ∈ _, _))

/-- The group with the objects the table points to. -/
def group (g : InterfaceGroupObject) : InterfaceGroup where
  number := g.number
  alternateCount := g.alternateCount
  interfaces := g.interfaces.map (Option.map made)
  activeAlternateIndex := g.activeAlternateIndex
  count_eq := by rw [List.length_map]; exact g.count_eq
  length_le := by rw [List.length_map]; exact g.length_le

/-- `get_full_descriptor` asks each object the loop sees for its descriptors. -/
def getFullDescriptor (g : InterfaceGroupObject) : Option (List Byte) :=
  if g.Dangles then none else some (g.group made).getFullDescriptor

/-- The group answers for the interfaces that were added: for every alternate setting with the interface
last added, and with the bytes of these in the order of their alternate settings. -/
structure Answers (ps : List ℕ) (g : InterfaceGroupObject) : Prop where
  lookup : ∀ a, g.getInterface a = last (alternateSetting made) ps a
  full : g.getFullDescriptor made = some
    (((List.range 256).filterMap fun a => last (alternateSetting made) ps (UInt8.ofNat a)).flatMap
      fun p => (made p).getFullDescriptor)

/-! ## One call -/

/-- A call that gets through while the count has not wrapped: nothing deleted is touched, and the entry of
the alternate setting is replaced. -/
structure Adds (p : ℕ) (g g' : InterfaceGroupObject) : Prop where
  live : p ∉ g.deleted
  slot_live : ∀ q, slot g.interfaces (alternateSetting made p).toNat = some q → q ∉ g.deleted
  interfaces : g'.interfaces = put g.interfaces (alternateSetting made p).toNat p
  deleted : g'.deleted = (slot g.interfaces (alternateSetting made p).toNat).toList ++ g.deleted

section Calls

variable {made} {g g' : InterfaceGroupObject} {ps : List ℕ} {p q : ℕ} {number : Byte}

theorem toNat_alternateCount (h : g.interfaces.length ≤ 255) :
    g.alternateCount.toNat = g.interfaces.length := by
  rw [g.count_eq, UInt8.toNat_ofNat_of_lt' (by show _ < 256; omega)]

theorem seen_of_length_le (h : g.interfaces.length ≤ 255) :
    g.interfaces.take g.alternateCount.toNat = g.interfaces := by
  rw [toNat_alternateCount h, List.take_length]

theorem getInterface_eq (h : g.interfaces.length ≤ 255) (a : Byte) :
    g.getInterface a = slot g.interfaces a.toNat := by
  unfold getInterface
  by_cases hle : g.alternateCount ≤ a
  · rw [if_pos hle, slot_eq_none_of_le]
    rw [← toNat_alternateCount h]
    exact UInt8.le_iff_toNat_le.1 hle
  · rw [if_neg hle]

/-- Nothing is found at the last alternate setting, whatever the count is. -/
theorem getInterface_last (g : InterfaceGroupObject) : g.getInterface 255 = none :=
  if_pos (UInt8.le_iff_toNat_le.2 (Nat.le_of_lt_succ g.alternateCount.toNat_lt))

theorem grown_eq_put (h : g.interfaces.length ≤ 255) {a : Byte} (ha : g.alternateCount ≤ a) (p : ℕ) :
    g.grown a p = put g.interfaces a.toNat p := by
  have hge := UInt8.le_iff_toNat_le.1 ha
  rw [toNat_alternateCount h] at hge
  rw [grown, put, if_neg (Nat.not_lt.2 hge), toNat_alternateCount h, List.take_length]

theorem store_eq_put (h : g.interfaces.length ≤ 255) {a : Byte} (ha : ¬ g.alternateCount ≤ a) (p : ℕ) :
    (g.store a p).interfaces = put g.interfaces a.toNat p := by
  have hlt := UInt8.lt_iff_toNat_lt.1 (UInt8.not_le.1 ha)
  rw [toNat_alternateCount h] at hlt
  exact (if_pos hlt).symm

theorem slot_of_count_le (h : g.interfaces.length ≤ 255) {a : Byte} (ha : g.alternateCount ≤ a) :
    slot g.interfaces a.toNat = none := by
  rw [← getInterface_eq h]
  exact if_pos ha

theorem adds_of_addInterface (hlen : g.interfaces.length ≤ 255)
    (h : g.addInterface made p = some g') : Adds made p g g' := by
  unfold addInterface at h
  dsimp only at h
  split_ifs at h with hp hle
  · have hslot := slot_of_count_le hlen hle
    obtain rfl := Option.some.inj h
    refine ⟨hp, fun q hq => ?_, grown_eq_put hlen hle p, ?_⟩
    · rw [hslot] at hq
      cases hq
    · rw [hslot]
      rfl
  · cases hslot : slot g.interfaces (alternateSetting made p).toNat with
    | none =>
      rw [hslot] at h
      obtain rfl := Option.some.inj h
      exact ⟨hp, fun q hq => absurd (hslot.symm.trans hq) (Option.some_ne_none q).symm,
        store_eq_put hlen hle p, by rw [hslot]; rfl⟩
    | some c =>
      rw [hslot] at h
      dsimp only at h
      split_ifs at h with hc
      obtain rfl := Option.some.inj h
      refine ⟨hp, fun q hq => ?_, store_eq_put hlen hle p, by rw [hslot]; rfl⟩
      exact Option.some.inj (hslot.symm.trans hq) ▸ hc

theorem exists_addInterface (hp : p ∉ g.deleted)
    (hslot : ∀ q, slot g.interfaces (alternateSetting made p).toNat = some q → q ∉ g.deleted) :
    ∃ g', g.addInterface made p = some g' := by
  unfold addInterface
  dsimp only
  rw [if_neg hp]
  split_ifs with hle
  · exact ⟨_, rfl⟩
  · cases hq : slot g.interfaces (alternateSetting made p).toNat with
    | none => exact ⟨_, rfl⟩
    | some q =>
      dsimp only
      rw [if_neg (hslot q hq)]
      exact ⟨_, rfl⟩

/-! ## The group of the objects -/

/-- A call that gets through does on the objects what `InterfaceGroup.addInterface` does. -/
theorem group_addInterface (h : g.addInterface made p = some g') :
    g'.group made = (g.group made).addInterface (made p) := by
  have hstore : ∀ deleted, ¬ g.alternateCount ≤ alternateSetting made p →
      ({ g.store (alternateSetting made p) p with deleted } : InterfaceGroupObject).group made =
        (g.group made).addInterface (made p) := by
    intro deleted hle
    unfold InterfaceGroup.addInterface
    dsimp only
    rw [dif_neg (show ¬ (g.group made).alternateCount ≤ (made p).descriptor.bAlternateSetting from hle)]
    simp only [group, store, List.map_set, Option.map_some]
    rfl
  unfold addInterface at h
  dsimp only at h
  split_ifs at h with hp hle
  · obtain rfl := Option.some.inj h
    unfold InterfaceGroup.addInterface
    dsimp only
    rw [dif_pos (show (g.group made).alternateCount ≤ (made p).descriptor.bAlternateSetting from hle)]
    simp only [group, grown, List.map_append, List.map_take, List.map_replicate, List.map_singleton,
      Option.map_none, Option.map_some]
    rfl
  · cases hslot : slot g.interfaces (alternateSetting made p).toNat with
    | none =>
      rw [hslot] at h
      obtain rfl := Option.some.inj h
      exact hstore g.deleted hle
    | some q =>
      rw [hslot] at h
      dsimp only at h
      split_ifs at h
      obtain rfl := Option.some.inj h
      exact hstore (q :: g.deleted) hle

theorem group_run (h : Runs.run (addInterface made) (new number) ps = some g) :
    g.group made = (ps.map made).foldl InterfaceGroup.addInterface (.new number) := by
  induction ps using List.reverseRecOn generalizing g with
  | nil =>
    obtain rfl := Option.some.inj h
    rfl
  | append_singleton ps p ih =>
    obtain ⟨g₀, hrun, hadd⟩ := (Runs.run_concat_eq_some _).1 h
    rw [List.map_append, List.foldl_append, ← ih hrun, group_addInterface hadd]
    rfl

theorem getInterface_group (g : InterfaceGroupObject) (a : Byte) :
    (g.group made).getInterface a = (g.getInterface a).map made := by
  unfold InterfaceGroup.getInterface getInterface slot
  by_cases h : g.alternateCount ≤ a
  · rw [if_pos h]
    exact if_pos h
  · rw [if_neg h]
    refine (if_neg h).trans ?_
    show ((g.interfaces.map (Option.map made))[a.toNat]?).join = _
    rw [List.getElem?_map]
    cases g.interfaces[a.toNat]? <;> rfl

/-- The group of the objects finds the object of the pointer found. -/
theorem getInterface_run (h : Runs.run (addInterface made) (new number) ps = some g) (a : Byte) :
    ((ps.map made).foldl InterfaceGroup.addInterface (.new number)).getInterface a =
      (g.getInterface a).map made := by
  rw [← group_run h, getInterface_group]

/-! ## All calls -/

theorem Adds.length (h : Adds made p g g') (hlen : g.interfaces.length ≤ 255)
    (hp : alternateSetting made p ≠ 255) : g'.interfaces.length ≤ 255 := by
  have hlt := (alternateSetting made p).toNat_lt
  have hne : (alternateSetting made p).toNat ≠ 255 := fun he => hp (UInt8.toNat_inj.1 he)
  rw [h.interfaces, length_put]
  omega

theorem dangles_iff (h : g.interfaces.length ≤ 255) :
    g.Dangles ↔ ∃ q ∈ g.deleted, ∃ k, slot g.interfaces k = some q := by
  unfold Dangles
  rw [seen_of_length_le h]
  simp only [mem_iff_exists_slot]

theorem Adds.dangles (h : Adds made p g g') (hlen : g.interfaces.length ≤ 255)
    (hp : alternateSetting made p ≠ 255) (hd : g.Dangles) : g'.Dangles := by
  obtain ⟨q, hq, k, hk⟩ := (dangles_iff hlen).1 hd
  have hne : k ≠ (alternateSetting made p).toNat := by
    rintro rfl
    exact h.slot_live q hk hq
  rw [dangles_iff (h.length hlen hp)]
  refine ⟨q, ?_, k, ?_⟩
  · rw [h.deleted]
    exact List.mem_append_right _ hq
  · rw [h.interfaces, slot_put, if_neg hne, hk]

variable (made) in
/-- The group after different interfaces, none of them for the last alternate setting: the table holds the
one that came last with each, and the others are deleted. -/
structure Holds (ps : List ℕ) (g : InterfaceGroupObject) : Prop where
  length_le : g.interfaces.length ≤ 255
  slots : ∀ a : Byte, slot g.interfaces a.toNat = last (alternateSetting made) ps a
  deleted : ∀ q, q ∈ g.deleted ↔
    q ∈ ps ∧ last (alternateSetting made) ps (alternateSetting made q) ≠ some q

theorem holds_new (made : ℕ → Interface) (number : Byte) : (new number).Holds made [] where
  length_le := Nat.zero_le _
  slots _ := rfl
  deleted _ := iff_of_false List.not_mem_nil fun h => List.not_mem_nil h.1

/-- A pointer in the table is to the interface that came last with its alternate setting. -/
theorem Holds.last_of_slot (h : g.Holds made ps) {k : ℕ} (hk : slot g.interfaces k = some q) :
    last (alternateSetting made) ps (alternateSetting made q) = some q := by
  have hlt : k < 256 := by
    by_contra hge
    rw [slot_eq_none_of_le (by have := h.length_le; omega)] at hk
    cases hk
  have hlast : last (alternateSetting made) ps (UInt8.ofNat k) = some q := by
    rw [← h.slots, UInt8.toNat_ofNat_of_lt' hlt, hk]
  rw [(mem_of_last hlast).2, hlast]

theorem Holds.live (h : g.Holds made ps) {k : ℕ} (hk : slot g.interfaces k = some q) :
    q ∉ g.deleted :=
  fun hdel => ((h.deleted q).1 hdel).2 (h.last_of_slot hk)

theorem Holds.not_dangles (h : g.Holds made ps) : ¬ g.Dangles := by
  rw [dangles_iff h.length_le]
  rintro ⟨q, hq, k, hk⟩
  exact h.live hk hq

theorem Holds.addInterface (h : g.Holds made ps) (hp : p ∉ ps) (hlast : alternateSetting made p ≠ 255) :
    ∃ g', g.addInterface made p = some g' ∧ g'.Holds made (ps ++ [p]) := by
  have hdel : p ∉ g.deleted := fun hmem => hp ((h.deleted p).1 hmem).1
  have hslot : ∀ q, slot g.interfaces (alternateSetting made p).toNat = some q → q ∉ g.deleted :=
    fun q hq => h.live hq
  obtain ⟨g', hg'⟩ := exists_addInterface hdel hslot
  have hadds := adds_of_addInterface h.length_le hg'
  refine ⟨g', hg', hadds.length h.length_le hlast, fun a => ?_, fun q => ?_⟩
  · rw [hadds.interfaces, slot_put, last_concat, h.slots]
    exact if_congr (UInt8.toNat_inj.trans eq_comm) rfl rfl
  · rw [hadds.deleted, List.mem_append, Option.mem_toList, h.slots, h.deleted,
      List.mem_append, List.mem_singleton, last_concat]
    by_cases hq : alternateSetting made p = alternateSetting made q
    · -- What was there for this alternate setting is deleted.
      rw [if_pos hq, hq]
      have hmem : last (alternateSetting made) ps (alternateSetting made q) = some q → q ∈ ps :=
        fun he => (mem_of_last he).1
      have hne : q ∈ ps → some p ≠ some q := fun hqs he => hp (Option.some.inj he ▸ hqs)
      constructor
      · rintro (he | ⟨hqs, -⟩)
        · exact ⟨.inl (hmem he), hne (hmem he)⟩
        · exact ⟨.inl hqs, hne hqs⟩
      · rintro ⟨hqs | rfl, hgone⟩
        · exact (em _).imp id fun he => ⟨hqs, he⟩
        · exact absurd rfl hgone
    · rw [if_neg hq]
      constructor
      · rintro (he | ⟨hqs, hgone⟩)
        · exact absurd (mem_of_last he).2.symm hq
        · exact ⟨.inl hqs, hgone⟩
      · rintro ⟨hqs | rfl, hgone⟩
        · exact .inr ⟨hqs, hgone⟩
        · exact absurd rfl hq

/-- An interface that was added before and gets through again is deleted by that. -/
theorem Holds.dangles_of_mem (h : g.Holds made ps) (hp : p ∈ ps)
    (hadd : g.addInterface made p = some g') : g'.Dangles := by
  have hadds := adds_of_addInterface h.length_le hadd
  have hslot : slot g.interfaces (alternateSetting made p).toNat = some p := by
    rw [h.slots]
    by_contra hgone
    exact hadds.live ((h.deleted p).2 ⟨hp, hgone⟩)
  have hne : alternateSetting made p ≠ 255 := by
    intro hlast
    rw [hlast] at hslot
    exact absurd ((slot_eq_none_of_le h.length_le).symm.trans hslot) (Option.some_ne_none p).symm
  rw [dangles_iff (hadds.length h.length_le hne)]
  refine ⟨p, ?_, (alternateSetting made p).toNat, ?_⟩
  · rw [hadds.deleted, hslot]
    exact List.mem_cons_self
  · rw [hadds.interfaces, slot_put, if_pos rfl]

theorem alternate_ne_of_append (h : ∀ q ∈ ps ++ [p], alternateSetting made q ≠ 255) :
    (∀ q ∈ ps, alternateSetting made q ≠ 255) ∧ alternateSetting made p ≠ 255 := by
  rw [List.forall_mem_append, List.forall_mem_singleton] at h
  exact h

theorem length_of_run (hne : ∀ p ∈ ps, alternateSetting made p ≠ 255)
    (hrun : Runs.run (addInterface made) (new number) ps = some g) : g.interfaces.length ≤ 255 := by
  induction ps using List.reverseRecOn generalizing g with
  | nil =>
    obtain rfl := Option.some.inj hrun
    exact Nat.zero_le _
  | append_singleton ps p ih =>
    obtain ⟨g₀, hrun₀, hadd⟩ := (Runs.run_concat_eq_some _).1 hrun
    have hlen := ih (alternate_ne_of_append hne).1 hrun₀
    exact (adds_of_addInterface hlen hadd).length hlen (alternate_ne_of_append hne).2

theorem run_interfaces (number : Byte) (hnd : ps.Nodup) (hne : ∀ p ∈ ps, alternateSetting made p ≠ 255) :
    ∃ g, Runs.run (addInterface made) (new number) ps = some g ∧ g.Holds made ps :=
  Runs.exists_run (fun ps => ∀ p ∈ ps, alternateSetting made p ≠ 255) (holds_new made number)
    (fun _ _ h => (alternate_ne_of_append h).1)
    (fun _ _ _ h hp hg => hg.addInterface hp (alternate_ne_of_append h).2) hne hnd

/-- No interface was added twice if the table has no pointer to a deleted object. -/
theorem nodup_of_run (hne : ∀ p ∈ ps, alternateSetting made p ≠ 255)
    (hrun : Runs.run (addInterface made) (new number) ps = some g) (hg : ¬ g.Dangles) : ps.Nodup := by
  refine Runs.nodup_of_run (fun ps => ∀ p ∈ ps, alternateSetting made p ≠ 255) (holds_new made number)
    (fun _ _ h => (alternate_ne_of_append h).1)
    (fun _ _ _ h hp hg => hg.addInterface hp (alternate_ne_of_append h).2)
    (fun ps p g g' h hrun hadd hd => ?_) (fun _ _ _ _ hholds => hholds.dangles_of_mem) hne hrun hg
  have hlen := length_of_run (alternate_ne_of_append h).1 hrun
  exact (adds_of_addInterface hlen hadd).dangles hlen (alternate_ne_of_append h).2 hd

/-! ## What the group answers -/

theorem Holds.getFullDescriptor (h : g.Holds made ps) :
    g.getFullDescriptor made = some
      (((List.range 256).filterMap fun a => last (alternateSetting made) ps (UInt8.ofNat a)).flatMap
        fun p => (made p).getFullDescriptor) := by
  have hlen : (g.group made).interfaces.length ≤ 255 := by
    rw [group, List.length_map]
    exact h.length_le
  have hslots : (List.range 256).filterMap (slot g.interfaces) =
      (List.range 256).filterMap fun a => last (alternateSetting made) ps (UInt8.ofNat a) := by
    refine List.filterMap_congr fun a ha => ?_
    rw [← h.slots, UInt8.toNat_ofNat_of_lt' (List.mem_range.1 ha)]
  have hheld : (g.group made).alternates.reduceOption =
      (g.interfaces.reduceOption).map made := by
    rw [InterfaceGroup.alternates_of_length_le hlen]
    exact List.reduceOption_map
  rw [InterfaceGroupObject.getFullDescriptor, if_neg h.not_dangles, InterfaceGroup.getFullDescriptor,
    hheld, reduceOption_eq_slots h.length_le.step, hslots, List.flatMap_map]

theorem Holds.answers (h : g.Holds made ps) : g.Answers made ps where
  lookup a := by rw [getInterface_eq h.length_le, h.slots]
  full := h.getFullDescriptor

/-- The interface last added for the last alternate setting is not found. -/
theorem Answers.alternate_ne (h : g.Answers made ps) : ∀ p ∈ ps, alternateSetting made p ≠ 255 := by
  intro p hp hlast
  have hnone := h.lookup 255
  rw [getInterface_last] at hnone
  exact last_eq_none_iff.1 hnone.symm (hlast ▸ List.mem_map_of_mem hp)

theorem Answers.not_dangles (h : g.Answers made ps) : ¬ g.Dangles := by
  intro hd
  have hfull := h.full
  rw [InterfaceGroupObject.getFullDescriptor, if_pos hd] at hfull
  cases hfull

end Calls

variable {made}

/-- **The group answers for what was added exactly when no interface was added twice and none has the
alternate setting 255:** the count of a table with that entry is 0, and an interface added twice is
deleted in the table. -/
theorem addInterfaces_iff (number : Byte) (ps : List ℕ) :
    (∃ g, Runs.run (addInterface made) (new number) ps = some g ∧ g.Answers made ps) ↔
      ps.Nodup ∧ ∀ p ∈ ps, alternateSetting made p ≠ 255 := by
  constructor
  · rintro ⟨g, hrun, hans⟩
    have hne := hans.alternate_ne
    exact ⟨nodup_of_run hne hrun hans.not_dangles, hne⟩
  · rintro ⟨hnd, hne⟩
    obtain ⟨g, hrun, hholds⟩ := run_interfaces number hnd hne
    exact ⟨g, hrun, hholds.answers⟩

/-- An interface for the alternate setting 255 hides the one there was, and is not found itself; and an
interface added twice is deleted in the table. -/
theorem addInterfaces_fails :
    let made : ℕ → Interface := fun n => .new ⟨9, 4, 0, UInt8.ofNat (255 * n), 0, 3, 0, 0, 0⟩ .none
    let Builds (ps : List ℕ) : Prop :=
      ∃ g, Runs.run (addInterface made) (new 0) ps = some g ∧ g.Answers made ps
    ((Runs.run (addInterface made) (new 0) [0, 1]).map fun g =>
          (g.getInterface 0, g.getInterface 255, g.getFullDescriptor made)) =
        some (none, none, some []) ∧
      ¬ Builds [0, 1] ∧ ¬ Builds [0, 0] := by
  refine ⟨rfl, ?_, ?_⟩
  · rintro ⟨g, hrun, hans⟩
    obtain rfl := Option.some.inj hrun
    exact absurd (hans.lookup 0) (by decide)
  · rintro ⟨g, hrun, hans⟩
    obtain rfl := Option.some.inj hrun
    exact hans.not_dangles (by decide)

end InterfaceGroupObject

end UsbProxy
