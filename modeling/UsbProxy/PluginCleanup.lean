import Mathlib.Data.List.Perm.Basic
import Mathlib.Data.List.Induction
import Mathlib.Data.List.Nodup
import UsbProxy.ManagerPlugins

/-!
# Loading and deleting plugins

`PluginManager::load_plugins` makes an object for every entry of the list of plugins, `Manager`'s
`load_plugins` adds them to its arrays and `cleanup` deletes them.  An object of a plugin that is a
filter and an injector stands in both arrays; its `plugin_type` keeps the first loop of `cleanup`
from deleting it.

1. `loadPlugins_spec`: the arrays hold the objects made, each in the arrays of its kinds.
2. `removeAll_spec`: a loop of `cleanup` empties one array and deletes what its flag says.
3. `cleanup_deletes_iff`: together they delete every object once, if the eight-bit counts could hold
   the objects.
-/

namespace UsbProxy

open PtrArrays

/-! ## Loading -/

/-- A library that could be opened: its `plugin_type`, if it has one, and whether it has
`get_plugin`. -/
structure PluginLib where
  pluginType : Option ℤ
  hasGetPlugin : Bool
  deriving DecidableEq

/-- The vectors of `PluginManager`, and every object that was made. -/
structure PluginManager where
  filters : List PluginObject
  injectors : List PluginObject
  made : List PluginObject

namespace PluginManager

def new : PluginManager := { filters := [], injectors := [], made := [] }

/-- `get_plugin` of a library that has it makes an object.  The `Injector` part of a fresh object
has `PLUGIN_INJECTOR` for its `plugin_type`; a combined one is given the library's. -/
def loadPlugin (s : PluginManager) (lib : PluginLib) : PluginManager :=
  let object (type : Byte) : PluginObject := { serial := s.made.length, pluginType := type }
  if lib.hasGetPlugin = false then s
  else if lib.pluginType = some 8 then
    let filter := object PLUGIN_FILTER
    { s with filters := s.filters ++ [filter], made := s.made ++ [filter] }
  else if lib.pluginType = some 16 then
    let injector := object PLUGIN_INJECTOR
    { s with injectors := s.injectors ++ [injector], made := s.made ++ [injector] }
  else if lib.pluginType = some 24 then
    let filter := object (PLUGIN_FILTER ||| PLUGIN_INJECTOR)
    { filters := s.filters ++ [filter], injectors := s.injectors ++ [filter]
      made := s.made ++ [filter] }
  else s

/-- The loop over the names; a library that cannot be opened ends it. -/
def loadPlugins : PluginManager → List (Option PluginLib) → PluginManager
  | s, [] => s
  | s, none :: _ => s
  | s, some lib :: libs => loadPlugins (s.loadPlugin lib) libs

end PluginManager

/-- The type of a plugin that is only of this kind. -/
def PluginKind.only : PluginKind → ℤ
  | .filter => 8
  | .injector => 16

/-- The entry makes an object for the array. -/
def PluginKind.makes (kind : PluginKind) (lib : Option PluginLib) : Bool :=
  lib.any fun lib => lib.hasGetPlugin &&
    (lib.pluginType == some kind.only || lib.pluginType == some 24)

namespace ManagerPlugins

/-- `add_filter` or `add_injector` for every element of a vector. -/
def addAll (kind : PluginKind) (status : ManagerStatus) :
    ManagerPlugins → List PluginObject → Option ManagerPlugins
  | m, [] => some m
  | m, p :: ps => (m.add kind status (some p)).after.bind fun m => addAll kind status m ps

/-- `Manager::load_plugins`, from the vectors of the plugin manager. -/
def loadPlugins (m : ManagerPlugins) (status : ManagerStatus) (s : PluginManager) :
    Option ManagerPlugins :=
  (addAll .filter status m s.filters).bind fun m => addAll .injector status m s.injectors

/-! ## Deleting -/

/-- A loop of `cleanup`: the last element is removed until the count is 0.  The first argument says
whether it is deleted, the next bounds the number of rounds. -/
def removeAll (kind : PluginKind) (status : ManagerStatus)
    (freeMemory : ManagerPlugins → Option Bool) : ℕ → ManagerPlugins → Option ManagerPlugins
  | 0, _ => none
  | n + 1, m =>
    if (m.array kind).count = 0 then some m
    else
      (freeMemory m).bind fun free =>
        (m.remove kind status ((m.array kind).count - 1) free).after.bind
          (removeAll kind status freeMemory n)

/-- `!(injectors[injectorCount-1]->plugin_type & PLUGIN_FILTER)`. -/
def lastNoFilter (m : ManagerPlugins) : Option Bool :=
  ((m.injectors.block.bind fun xs => xs[(m.injectors.count - 1).toNat]?).join).map fun p =>
    p.pluginType &&& PLUGIN_FILTER == 0

/-- The two loops of `cleanup`, with room for as many rounds as a count can say. -/
def cleanup (m : ManagerPlugins) (status : ManagerStatus) : Option ManagerPlugins :=
  (removeAll .injector status lastNoFilter 256 m).bind fun m =>
    removeAll .filter status (fun _ => some true) 256 m

end ManagerPlugins

/-- What `cleanup` deletes. -/
inductive OwnedObject
  | plugin (p : PluginObject)
  | deviceProxy
  | hostProxy
  deriving DecidableEq, Repr

/-- A manager with its plugins and its proxies. -/
structure LoadedManager where
  plugins : ManagerPlugins
  deviceProxy : Option OwnedObject
  hostProxy : Option OwnedObject

namespace LoadedManager

/-- `Manager::load_plugins` on a new manager, where both proxies could be made. -/
def loadPlugins (status : ManagerStatus) (libs : List (Option PluginLib)) : Option LoadedManager :=
  (ManagerPlugins.new.loadPlugins status (PluginManager.new.loadPlugins libs)).map fun plugins =>
    { plugins, deviceProxy := some .deviceProxy, hostProxy := some .hostProxy }

/-- `Manager::cleanup`, with what it deletes in order. -/
def cleanup (m : LoadedManager) (status : ManagerStatus) : Option (LoadedManager × List OwnedObject) :=
  (m.plugins.cleanup status).map fun plugins =>
    ({ plugins, deviceProxy := none, hostProxy := none },
      plugins.deleted.map .plugin ++ m.deviceProxy.toList ++ m.hostProxy.toList)

end LoadedManager

/-! ## What was made -/

/-- The object is a filter. -/
def PluginObject.isFilter (p : PluginObject) : Bool := p.pluginType &&& PLUGIN_FILTER != 0

/-- The object is an injector. -/
def PluginObject.isInjector (p : PluginObject) : Bool := p.pluginType &&& PLUGIN_INJECTOR != 0

namespace PluginManager

/-- The objects of each vector are those of its kind, in order, and every object is another one. -/
structure Sorted (s : PluginManager) : Prop where
  filters : s.filters = s.made.filter PluginObject.isFilter
  injectors : s.injectors = s.made.filter PluginObject.isInjector
  kind : ∀ p ∈ s.made, p.isFilter = false → p.isInjector = true
  serials : s.made.map PluginObject.serial = List.range s.made.length

theorem sorted_new : Sorted new := ⟨rfl, rfl, by simp [new], rfl⟩

theorem Sorted.nodup {s : PluginManager} (h : Sorted s) : s.made.Nodup := by
  apply List.Nodup.of_map PluginObject.serial
  rw [h.serials]
  exact List.nodup_range

theorem Sorted.push {s : PluginManager} (h : Sorted s) (type : Byte) (filters injectors : Bool)
    (hfilter : (type &&& PLUGIN_FILTER != 0) = filters)
    (hinjector : (type &&& PLUGIN_INJECTOR != 0) = injectors) (hsome : filters || injectors) :
    Sorted
      { filters := if filters then s.filters ++ [⟨s.made.length, type⟩] else s.filters
        injectors := if injectors then s.injectors ++ [⟨s.made.length, type⟩] else s.injectors
        made := s.made ++ [⟨s.made.length, type⟩] } := by
  have hf : PluginObject.isFilter ⟨s.made.length, type⟩ = filters := hfilter
  have hi : PluginObject.isInjector ⟨s.made.length, type⟩ = injectors := hinjector
  refine ⟨?_, ?_, ?_, ?_⟩
  · rw [List.filter_append, ← h.filters]
    cases filters <;> simp [hf]
  · rw [List.filter_append, ← h.injectors]
    cases injectors <;> simp [hi]
  · rw [List.forall_mem_append]
    refine ⟨h.kind, fun p hp hno => ?_⟩
    rw [List.mem_singleton] at hp
    rw [hp] at hno ⊢
    rw [hf] at hno
    rw [hi]
    simpa [hno] using hsome
  · rw [List.map_append, h.serials, List.length_append, List.length_singleton, List.range_succ]
    rfl

theorem Sorted.loadPlugin {s : PluginManager} (h : Sorted s) (lib : PluginLib) :
    Sorted (s.loadPlugin lib) := by
  unfold PluginManager.loadPlugin
  dsimp only
  split_ifs
  · exact h
  · exact h.push PLUGIN_FILTER true false (by decide) (by decide) rfl
  · exact h.push PLUGIN_INJECTOR false true (by decide) (by decide) rfl
  · exact h.push (PLUGIN_FILTER ||| PLUGIN_INJECTOR) true true (by decide) (by decide) rfl
  · exact h

theorem Sorted.loadPlugins {s : PluginManager} (h : Sorted s) (libs : List (Option PluginLib)) :
    Sorted (s.loadPlugins libs) := by
  induction libs generalizing s with
  | nil => exact h
  | cons lib libs ih =>
    cases lib with
    | none => exact h
    | some lib => exact ih (h.loadPlugin lib)

/-- The vector of a kind. -/
def vector (s : PluginManager) : PluginKind → List PluginObject
  | .filter => s.filters
  | .injector => s.injectors

theorem length_loadPlugin (s : PluginManager) (lib : PluginLib) (kind : PluginKind) :
    ((s.loadPlugin lib).vector kind).length =
      (s.vector kind).length + if kind.makes (some lib) then 1 else 0 := by
  obtain ⟨type, getter⟩ := lib
  unfold PluginManager.loadPlugin PluginKind.makes
  cases getter with
  | false => simp
  | true =>
    by_cases h8 : type = some 8
    · cases kind <;> simp [h8, vector, PluginKind.only]
    by_cases h16 : type = some 16
    · cases kind <;> simp [h16, vector, PluginKind.only]
    by_cases h24 : type = some 24
    · cases kind <;> simp [h24, vector, PluginKind.only]
    · cases kind <;> simp [h8, h16, h24, PluginKind.only]

theorem length_loadPlugins (s : PluginManager) (libs : List (Option PluginLib)) (kind : PluginKind) :
    ((s.loadPlugins libs).vector kind).length =
      (s.vector kind).length + (libs.takeWhile Option.isSome).countP kind.makes := by
  induction libs generalizing s with
  | nil => rfl
  | cons lib libs ih =>
    cases lib with
    | none => rfl
    | some lib =>
      have hrest := ih (s.loadPlugin lib)
      rw [length_loadPlugin] at hrest
      rw [List.takeWhile_cons_of_pos rfl, List.countP_cons]
      show ((s.loadPlugin lib).loadPlugins libs |>.vector kind).length = _
      omega

end PluginManager

namespace ManagerPlugins

variable {m : ManagerPlugins} {l : PluginLists} (status : ManagerStatus)

theorem addAll_spec (kind : PluginKind) (ps : List PluginObject) (h : m.Refines l)
    (hlen : (l.list kind).length + ps.length ≤ 255) :
    ∃ t, addAll kind status m ps = some t ∧ t.Refines (l.put kind (l.list kind ++ ps.map some)) ∧
      t.deleted = m.deleted := by
  induction ps generalizing m l with
  | nil =>
    refine ⟨m, rfl, ?_, rfl⟩
    rw [List.map_nil, List.append_nil]
    cases kind <;> exact h
  | cons p ps ih =>
    rw [List.length_cons] at hlen
    obtain ⟨a, ha, hholds⟩ := (refines_iff.1 h kind).add_of_lt
      (show (l.list kind).length < 255 by omega) (some p)
    have hnext : (m.put kind a []).Refines (l.put kind (l.list kind ++ [some p])) := h.put hholds []
    have hlist : (l.put kind (l.list kind ++ [some p])).list kind = l.list kind ++ [some p] := by
      cases kind <;> rfl
    obtain ⟨t, ht, hr, hdel⟩ := ih hnext (by
      rw [hlist, List.length_append, List.length_singleton]
      omega)
    refine ⟨t, ?_, ?_, ?_⟩
    · unfold addAll add
      rw [ha]
      exact ht
    · rw [hlist, List.append_assoc] at hr
      cases kind <;> exact hr
    · rw [hdel]
      cases kind <;> exact List.append_nil _

/-- Adding a vector there is no room for ends in a store in front of the block. -/
theorem addAll_full (kind : PluginKind) (ps : List PluginObject) (h : m.Refines l)
    (hlen : 255 < (l.list kind).length + ps.length) : addAll kind status m ps = none := by
  induction ps generalizing m l with
  | nil =>
    have := (refines_iff.1 h kind).length_lt
    rw [List.length_nil] at hlen
    omega
  | cons p ps ih =>
    rw [List.length_cons] at hlen
    by_cases hroom : (l.list kind).length < 255
    · obtain ⟨a, ha, hholds⟩ := (refines_iff.1 h kind).add_of_lt hroom (some p)
      have hlist : (l.put kind (l.list kind ++ [some p])).list kind = l.list kind ++ [some p] := by
        cases kind <;> rfl
      unfold addAll add
      rw [ha]
      exact ih (h.put hholds []) (by rw [hlist, List.length_append, List.length_singleton]; omega)
    · unfold addAll add
      rw [(refines_iff.1 h kind).add_of_full hroom]
      rfl

/-- Registering only comes to its end if both vectors have at most 255 objects. -/
theorem le_of_loadPlugins {s : PluginManager} {t : ManagerPlugins} (h : m.Refines ⟨[], []⟩)
    (ht : m.loadPlugins status s = some t) : s.filters.length ≤ 255 ∧ s.injectors.length ≤ 255 := by
  obtain ⟨u, hu, ht⟩ := Option.bind_eq_some_iff.1 ht
  have hf : s.filters.length ≤ 255 := by
    by_contra hmany
    rw [addAll_full status .filter s.filters h
      (by rw [show PluginLists.list ⟨[], []⟩ .filter = [] from rfl, List.length_nil]; omega)] at hu
    cases hu
  refine ⟨hf, ?_⟩
  obtain ⟨v, hv, hr, -⟩ := addAll_spec status .filter s.filters h
    (by rw [show PluginLists.list ⟨[], []⟩ .filter = [] from rfl, List.length_nil]; omega)
  obtain rfl := Option.some.inj (hv.symm.trans hu)
  by_contra hmany
  rw [addAll_full status .injector s.injectors hr
    (by
      rw [show (PluginLists.put ⟨[], []⟩ .filter _).list .injector = [] from rfl, List.length_nil]
      omega)] at ht
  cases ht

/-- **Registering.**  The arrays hold the vectors. -/
theorem loadPlugins_spec {s : PluginManager} (h : m.Refines ⟨[], []⟩) (hf : s.filters.length ≤ 255)
    (hi : s.injectors.length ≤ 255) : ∃ t, m.loadPlugins status s = some t ∧
      t.Refines ⟨s.filters.map some, s.injectors.map some⟩ ∧ t.deleted = m.deleted := by
  obtain ⟨t, ht, hr, hdel⟩ := addAll_spec status .filter s.filters h
    (by rw [show PluginLists.list ⟨[], []⟩ .filter = [] from rfl, List.length_nil]; omega)
  obtain ⟨u, hu, hr', hdel'⟩ := addAll_spec status .injector s.injectors hr
    (by
      rw [show (PluginLists.put ⟨[], []⟩ .filter _).list .injector = [] from rfl, List.length_nil]
      omega)
  refine ⟨u, ?_, hr', hdel'.trans hdel⟩
  unfold loadPlugins
  rw [ht]
  exact hu

/-! ## Emptying an array -/

theorem remove_last {kind : PluginKind} {ps : List PluginObject} {p : PluginObject} (h : m.Refines l)
    (hl : l.list kind = (ps ++ [p]).map some) (free : Bool) :
    (m.array kind).count ≠ 0 ∧ ∃ t,
      (m.remove kind status ((m.array kind).count - 1) free).after = some t ∧
      t.Refines (l.put kind (ps.map some)) ∧ t.deleted = m.deleted ++ if free then [p] else [] := by
  have hk := refines_iff.1 h kind
  have hlen : (l.list kind).length = ps.length + 1 := by
    rw [hl, List.length_map, List.length_append, List.length_singleton]
  obtain ⟨hne, hlast⟩ := hk.count_pred hlen
  have hlt : ((m.array kind).count - 1).toNat < (l.list kind).length := by
    rw [hlast, hlen]
    exact Nat.lt_succ_self _
  obtain ⟨a, ha, hholds⟩ := hk.remove_of_lt hlt free
  have herase : (l.list kind).eraseIdx ps.length = ps.map some := by
    rw [hl, List.map_append, List.eraseIdx_append_of_length_le (by rw [List.length_map]),
      List.length_map, Nat.sub_self, List.map_singleton, List.eraseIdx_cons_zero, List.append_nil]
  have hget : ((l.list kind)[ps.length]?).join = some p := by
    rw [hl, List.getElem?_map, List.getElem?_concat_length]
    rfl
  rw [hlast, herase] at hholds
  rw [hlast, hget] at ha
  refine ⟨hne, _, ?_, h.put hholds (if free then [p] else []), ?_⟩
  · unfold remove
    rw [ha]
    cases free <;> rfl
  · cases kind <;> rfl

/-- **Emptying.**  A loop removes the elements from the last one on, and deletes those its flag
says. -/
theorem removeAll_spec (kind : PluginKind) {freeMemory : ManagerPlugins → Option Bool}
    {frees : PluginObject → Bool}
    (hfree : ∀ (m : ManagerPlugins) (l : PluginLists) (ps : List PluginObject) (p : PluginObject),
      m.Refines l → l.list kind = (ps ++ [p]).map some → freeMemory m = some (frees p))
    (ps : List PluginObject) (n : ℕ) (hn : ps.length < n) (h : m.Refines l)
    (hl : l.list kind = ps.map some) :
    ∃ t, removeAll kind status freeMemory n m = some t ∧ t.Refines (l.put kind []) ∧
      t.deleted = m.deleted ++ ps.reverse.filter frees := by
  induction ps using List.reverseRecOn generalizing m l n with
  | nil =>
    obtain ⟨n, rfl⟩ : ∃ k, n = k + 1 := ⟨n - 1, (Nat.succ_pred_eq_of_pos hn).symm⟩
    have hcount : (m.array kind).count = 0 := UInt8.toNat_inj.1 (by
      rw [(refines_iff.1 h kind).count_eq, hl]
      rfl)
    refine ⟨m, ?_, ?_, (List.append_nil _).symm⟩
    · rw [removeAll, if_pos hcount]
    · rw [show ([] : List (Option PluginObject)) = l.list kind from hl.symm]
      cases kind <;> exact h
  | append_singleton ps p ih =>
    rw [List.length_append, List.length_singleton] at hn
    obtain ⟨n, rfl⟩ : ∃ k, n = k + 1 := ⟨n - 1, by omega⟩
    obtain ⟨hcount, t, ht, hr, hdel⟩ := remove_last status h hl (frees p)
    have hlist : (l.put kind (ps.map some)).list kind = ps.map some := by
      cases kind <;> rfl
    obtain ⟨u, hu, hr', hdel'⟩ := ih n (by omega) hr hlist
    refine ⟨u, ?_, ?_, ?_⟩
    · rw [removeAll, if_neg hcount, hfree m l ps p h hl, Option.bind_some, ht]
      exact hu
    · cases kind <;> exact hr'
    · rw [hdel', hdel, List.append_assoc, List.reverse_append, List.reverse_singleton,
        List.singleton_append, List.filter_cons]
      cases frees p <;> rfl

theorem lastNoFilter_eq {ps : List PluginObject} {p : PluginObject} (h : m.Refines l)
    (hl : l.injectors = (ps ++ [p]).map some) : lastNoFilter m = some !p.isFilter := by
  have hk := h.injectors
  have hlast := (hk.count_pred (n := ps.length) (by
    rw [hl, List.length_map, List.length_append, List.length_singleton])).2
  unfold lastNoFilter
  rw [hk.block_of_ne (by rw [hl]; simp), Option.bind_some, hlast, hl, List.getElem?_map,
    List.getElem?_concat_length]
  show some (p.pluginType &&& PLUGIN_FILTER == 0) = some !(p.pluginType &&& PLUGIN_FILTER != 0)
  rw [bne, Bool.not_not]

/-- The two loops empty both arrays. -/
theorem cleanup_spec {s : PluginManager}
    (h : m.Refines ⟨s.filters.map some, s.injectors.map some⟩) (hf : s.filters.length ≤ 255)
    (hi : s.injectors.length ≤ 255) : ∃ t, m.cleanup status = some t ∧ t.Refines ⟨[], []⟩ ∧
      t.deleted =
        m.deleted ++ s.injectors.reverse.filter (fun p => !p.isFilter) ++ s.filters.reverse := by
  obtain ⟨t, ht, hr, hdel⟩ := removeAll_spec status .injector
    (fun _ _ _ _ h hl => lastNoFilter_eq h hl) s.injectors 256 (Nat.lt_succ_of_le hi) h rfl
  obtain ⟨u, hu, hr', hdel'⟩ := removeAll_spec status .filter
    (fun _ _ _ _ _ _ => (rfl : some true = some true)) s.filters 256 (Nat.lt_succ_of_le hf) hr rfl
  refine ⟨u, ?_, hr', ?_⟩
  · unfold cleanup
    rw [ht]
    exact hu
  · rw [hdel', hdel, List.filter_true]

end ManagerPlugins

/-! ## Every object once -/

namespace PluginManager

/-- The injectors that are no filters and the filters are all objects. -/
theorem Sorted.perm {s : PluginManager} (h : Sorted s) :
    (s.injectors.reverse.filter (fun p => !p.isFilter) ++ s.filters.reverse).Perm s.made := by
  have hrest : (s.injectors.filter fun p => !p.isFilter) = s.made.filter fun p => !p.isFilter := by
    rw [h.injectors, List.filter_filter]
    apply List.filter_congr
    intro p hp
    cases hno : p.isFilter with
    | true => rfl
    | false => rw [h.kind p hp hno]; rfl
  rw [List.filter_reverse, hrest, h.filters]
  apply ((List.reverse_perm _).append (List.reverse_perm _)).trans
  exact List.perm_append_comm.trans (List.filter_append_perm _ _)

end PluginManager

namespace LoadedManager

/-- The plugins of the entries can be loaded, and `cleanup` deletes every object and the proxies once
and leaves both counts zero. -/
def DeletesOnce (status status' : ManagerStatus) (libs : List (Option PluginLib)) : Prop :=
  ∃ m t deleted, loadPlugins status libs = some m ∧ m.cleanup status' = some (t, deleted) ∧
    deleted.Perm (.deviceProxy :: .hostProxy ::
      (PluginManager.new.loadPlugins libs).made.map OwnedObject.plugin) ∧
    deleted.Nodup ∧ t.plugins.getFilterCount = 0 ∧ t.plugins.getInjectorCount = 0 ∧
    t.deviceProxy = none ∧ t.hostProxy = none

theorem deletesOnce_of_le (status status' : ManagerStatus) {libs : List (Option PluginLib)}
    (hf : (PluginManager.new.loadPlugins libs).filters.length ≤ 255)
    (hi : (PluginManager.new.loadPlugins libs).injectors.length ≤ 255) :
    DeletesOnce status status' libs := by
  have hsorted := PluginManager.sorted_new.loadPlugins libs
  obtain ⟨m, hm, hr, hnone⟩ := ManagerPlugins.loadPlugins_spec status ManagerPlugins.refines_new hf hi
  obtain ⟨t, ht, hr', hdel⟩ := ManagerPlugins.cleanup_spec status' hr hf hi
  rw [hnone, show ManagerPlugins.new.deleted = [] from rfl, List.nil_append] at hdel
  have hperm : (t.deleted.map OwnedObject.plugin ++ [OwnedObject.deviceProxy] ++
      [OwnedObject.hostProxy]).Perm (.deviceProxy :: .hostProxy ::
        (PluginManager.new.loadPlugins libs).made.map OwnedObject.plugin) := by
    rw [List.append_assoc, hdel]
    exact List.perm_append_comm.trans ((hsorted.perm.map _).append_left _)
  have hnodup : (.deviceProxy :: .hostProxy ::
      (PluginManager.new.loadPlugins libs).made.map OwnedObject.plugin).Nodup := by
    rw [List.nodup_cons, List.nodup_cons]
    refine ⟨by simp, by simp, ?_⟩
    exact hsorted.nodup.map fun p q hpq => OwnedObject.plugin.inj hpq
  refine ⟨⟨m, some .deviceProxy, some .hostProxy⟩, ⟨t, none, none⟩, _, ?_, ?_, hperm,
    hperm.nodup_iff.2 hnodup, ?_, ?_, rfl, rfl⟩
  · unfold loadPlugins
    rw [hm]
    rfl
  · unfold cleanup
    rw [ht]
    rfl
  · exact UInt8.toNat_inj.1 hr'.filterCount
  · exact UInt8.toNat_inj.1 hr'.injectorCount

/-- Loading ends in a store in front of a block when a vector has more than 255 objects. -/
theorem loads_iff {status : ManagerStatus} {libs : List (Option PluginLib)} :
    (loadPlugins status libs).isSome ↔
      ∀ kind : PluginKind, (libs.takeWhile Option.isSome).countP kind.makes ≤ 255 := by
  have hlen : ∀ kind, ((PluginManager.new.loadPlugins libs).vector kind).length =
      (libs.takeWhile Option.isSome).countP kind.makes := fun kind => by
    rw [PluginManager.length_loadPlugins]
    cases kind <;> exact Nat.zero_add _
  constructor
  · intro h kind
    obtain ⟨m, hm⟩ := Option.isSome_iff_exists.1 h
    obtain ⟨plugins, hplugins, -⟩ := Option.map_eq_some_iff.1 hm
    obtain ⟨hf, hi⟩ := ManagerPlugins.le_of_loadPlugins status ManagerPlugins.refines_new hplugins
    rw [← hlen]
    cases kind
    · exact hf
    · exact hi
  · intro h
    obtain ⟨m, hm, -⟩ := ManagerPlugins.loadPlugins_spec status ManagerPlugins.refines_new
      ((hlen .filter).trans_le (h .filter)) ((hlen .injector).trans_le (h .injector))
    unfold loadPlugins
    rw [hm]
    rfl

/-- **Cleaning up.**  After the plugins of a list of entries were loaded `cleanup` deletes every object
and the proxies once and leaves both counts zero, exactly when the entries up to the first library that
cannot be opened make at most 255 filters and at most 255 injectors, a plugin of both kinds being one of
each. -/
theorem cleanup_deletes_iff (status status' : ManagerStatus) (libs : List (Option PluginLib)) :
    DeletesOnce status status' libs ↔
      ∀ kind : PluginKind, (libs.takeWhile Option.isSome).countP kind.makes ≤ 255 := by
  constructor
  · rintro ⟨m, -, -, hm, -⟩
    exact loads_iff.1 (Option.isSome_iff_exists.2 ⟨m, hm⟩)
  · intro h
    have hlen : ∀ kind, ((PluginManager.new.loadPlugins libs).vector kind).length ≤ 255 := fun kind => by
      rw [PluginManager.length_loadPlugins]
      refine Nat.le_trans (Nat.le_of_eq ?_) (h kind)
      cases kind <;> exact Nat.zero_add _
    exact deletesOnce_of_le status status' (hlen .filter) (hlen .injector)

/-- 200 filters and 56 plugins of both kinds. -/
def filtersAndMixed : List (Option PluginLib) :=
  List.replicate 200 (some ⟨some 8, true⟩) ++ List.replicate 56 (some ⟨some 24, true⟩)

/-- Few of each type are too many: the 256th filter is stored in front of its array. -/
theorem cleanup_deletes_not_mixed :
    ¬ ∀ (status status' : ManagerStatus) (libs : List (Option PluginLib)),
      (∀ type : ℤ, libs.countP (fun lib => lib = some ⟨some type, true⟩) ≤ 255) →
        DeletesOnce status status' libs := by
  intro h
  have hfew : ∀ type : ℤ,
      filtersAndMixed.countP (fun lib => lib = some ⟨some type, true⟩) ≤ 255 := by
    intro type
    rw [filtersAndMixed, List.countP_append, List.countP_replicate, List.countP_replicate]
    by_cases h8 : type = 8
    · simp [h8]
    · have hne : ¬ (8 : ℤ) = type := fun he => h8 he.symm
      by_cases h24 : 24 = type
      · subst h24
        simp
      · simp [hne, h24]
  obtain ⟨m, -, -, hm, -⟩ := h .idle .idle filtersAndMixed hfew
  have hroom := loads_iff.1 (Option.isSome_iff_exists.2 ⟨m, hm⟩) .filter
  exact absurd hroom (by decide +kernel)

end LoadedManager

end UsbProxy
