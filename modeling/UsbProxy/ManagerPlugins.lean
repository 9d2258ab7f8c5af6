import UsbProxy.Library.PtrArrays
import UsbProxy.Library.Runs
import UsbProxy.Packet
import UsbProxy.SetupStatus

/-!
# The filters and injectors of a manager

`Manager` keeps its filters and its injectors in two arrays with eight-bit counts.  `add_filter`,
`add_injector`, `remove_filter` and `remove_injector` test the status, and the last two the index,
print what is wrong and go on.  `refined_iff` says along which runs of calls the arrays are the
lists they are meant to be, on which a call that prints something has no effect.
-/

namespace UsbProxy

open PtrArrays

def PLUGIN_FILTER : Byte := 8
def PLUGIN_INJECTOR : Byte := 16

/-- An object of a plugin: which one, and its `plugin_type`, that of the `Injector` part if it has one. -/
structure PluginObject where
  serial : ℕ
  pluginType : Byte
  deriving DecidableEq, Repr

/-- Which of the two arrays. -/
inductive PluginKind
  | filter
  | injector
  deriving DecidableEq, Repr

namespace PluginKind

/-- The statuses `add_filter` and `add_injector` are content with. -/
def mayAdd : PluginKind → ManagerStatus → Bool
  | filter, status => status == .idle || status == .reset
  | injector, status => status == .idle

/-- Those of `remove_filter` and `remove_injector`. -/
def mayRemove (status : ManagerStatus) : Bool := status == .idle || status == .reset

def addMessage : PluginKind → String
  | filter => "Can't add filters unless manager is idle or reset.\n"
  | injector => "Can't add injectors unless manager is idle.\n"

def removeMessage : PluginKind → String
  | filter => "Can't remove filters unless manager is idle or reset.\n"
  | injector => "Can't remove injectors unless manager is idle or reset.\n"

def indexMessage : PluginKind → String
  | filter => "Filter index out of bounds.\n"
  | injector => "Injector index out of bounds.\n"

end PluginKind

structure ManagerPlugins where
  filters : PtrArray PluginObject
  injectors : PtrArray PluginObject
  /-- What `remove_filter` and `remove_injector` deleted. -/
  deleted : List PluginObject

/-- What a call prints, and the manager after it; `none` when it reads or stores outside of an
array. -/
structure PluginResult where
  printed : List String
  after : Option ManagerPlugins

namespace ManagerPlugins

/-- `Manager::Manager`. -/
def new : ManagerPlugins := { filters := .empty, injectors := .empty, deleted := [] }

def array (m : ManagerPlugins) : PluginKind → PtrArray PluginObject
  | .filter => m.filters
  | .injector => m.injectors

/-- One of the arrays changed, with what was deleted meanwhile. -/
def put (m : ManagerPlugins) (kind : PluginKind) (a : PtrArray PluginObject)
    (deleted : List PluginObject) : ManagerPlugins :=
  match kind with
  | .filter => { m with filters := a, deleted := m.deleted ++ deleted }
  | .injector => { m with injectors := a, deleted := m.deleted ++ deleted }

def add (m : ManagerPlugins) (kind : PluginKind) (status : ManagerStatus) (p : Option PluginObject) :
    PluginResult where
  printed := if kind.mayAdd status then [] else [kind.addMessage]
  after := ((m.array kind).add p).map fun a => m.put kind a []

def remove (m : ManagerPlugins) (kind : PluginKind) (status : ManagerStatus) (index : Byte)
    (freeMemory : Bool) : PluginResult where
  printed :=
    (if PluginKind.mayRemove status then [] else [kind.removeMessage]) ++
      if (m.array kind).block.isNone || (m.array kind).count ≤ index then [kind.indexMessage] else []
  after := ((m.array kind).remove index freeMemory).map fun r =>
    m.put kind r.1 r.2.toList

def addFilter (m : ManagerPlugins) (status : ManagerStatus) (filter : Option PluginObject) :
    PluginResult :=
  m.add .filter status filter

def removeFilter (m : ManagerPlugins) (status : ManagerStatus) (index : Byte)
    (freeMemory : Bool := true) : PluginResult :=
  m.remove .filter status index freeMemory

def addInjector (m : ManagerPlugins) (status : ManagerStatus) (injector : Option PluginObject) :
    PluginResult :=
  m.add .injector status injector

def removeInjector (m : ManagerPlugins) (status : ManagerStatus) (index : Byte)
    (freeMemory : Bool := true) : PluginResult :=
  m.remove .injector status index freeMemory

def getFilter (m : ManagerPlugins) (index : Byte) : Option PluginObject := m.filters.get index

def getFilterCount (m : ManagerPlugins) : Byte := m.filters.count

def getInjector (m : ManagerPlugins) (index : Byte) : Option PluginObject := m.injectors.get index

def getInjectorCount (m : ManagerPlugins) : Byte := m.injectors.count

end ManagerPlugins

inductive PluginCall
  | addFilter (filter : Option PluginObject)
  | removeFilter (index : Byte) (freeMemory : Bool)
  | addInjector (injector : Option PluginObject)
  | removeInjector (index : Byte) (freeMemory : Bool)

/-- A call in a manager's status at the time. -/
abbrev PluginInput := ManagerStatus × PluginCall

namespace ManagerPlugins

def call (m : ManagerPlugins) : PluginInput → PluginResult
  | (status, .addFilter filter) => m.addFilter status filter
  | (status, .removeFilter index freeMemory) => m.removeFilter status index freeMemory
  | (status, .addInjector injector) => m.addInjector status injector
  | (status, .removeInjector index freeMemory) => m.removeInjector status index freeMemory

def step (m : ManagerPlugins) (i : PluginInput) : Option ManagerPlugins := (m.call i).after

end ManagerPlugins

/-! ## The lists -/

/-- What the two arrays stand for. -/
structure PluginLists where
  filters : List (Option PluginObject)
  injectors : List (Option PluginObject)

namespace PluginLists

def list (l : PluginLists) : PluginKind → List (Option PluginObject)
  | .filter => l.filters
  | .injector => l.injectors

def put (l : PluginLists) (kind : PluginKind) (xs : List (Option PluginObject)) : PluginLists :=
  match kind with
  | .filter => { l with filters := xs }
  | .injector => { l with injectors := xs }

/-- Adding appends; in a status the check is not content with it does nothing. -/
def add (l : PluginLists) (kind : PluginKind) (status : ManagerStatus) (p : Option PluginObject) :
    PluginLists :=
  if kind.mayAdd status then l.put kind (l.list kind ++ [p]) else l

/-- Removing takes out one element; it does nothing where the checks are not content. -/
def remove (l : PluginLists) (kind : PluginKind) (status : ManagerStatus) (index : Byte) :
    PluginLists :=
  if PluginKind.mayRemove status ∧ index.toNat < (l.list kind).length then
    l.put kind ((l.list kind).eraseIdx index.toNat)
  else l

def call (l : PluginLists) : PluginInput → PluginLists
  | (status, .addFilter filter) => l.add .filter status filter
  | (status, .removeFilter index _) => l.remove .filter status index
  | (status, .addInjector injector) => l.add .injector status injector
  | (status, .removeInjector index _) => l.remove .injector status index

end PluginLists

namespace ManagerPlugins

/-- The arrays are the lists, and the counts and lookups agree with them. -/
structure Refines (m : ManagerPlugins) (l : PluginLists) : Prop where
  filters : m.filters.Holds l.filters
  injectors : m.injectors.Holds l.injectors
  filterCount : m.getFilterCount.toNat = l.filters.length
  injectorCount : m.getInjectorCount.toNat = l.injectors.length
  getFilter : ∀ index, m.getFilter index = (l.filters[index.toNat]?).join
  getInjector : ∀ index, m.getInjector index = (l.injectors[index.toNat]?).join

/-- A call with the managers before and after it. -/
structure Observed where
  before : ManagerPlugins
  input : PluginInput
  after : Option ManagerPlugins

def observe (m : ManagerPlugins) (i : PluginInput) : Observed := ⟨m, i, m.step i⟩

/-- The call did to the arrays what it does to the lists. -/
def Observed.Refined (o : Observed) : Prop :=
  ∃ l t, o.before.Refines l ∧ o.after = some t ∧ t.Refines (l.call o.input)

/-- There is room for what the call adds: an eight-bit count can go up. -/
def HasRoom (m : ManagerPlugins) : PluginCall → Prop
  | .addFilter _ => m.filters.count ≠ 255
  | .addInjector _ => m.injectors.count ≠ 255
  | .removeFilter _ _ | .removeInjector _ _ => True

/-- The call's own checks are content, it prints nothing, and there is room. -/
def Passes (m : ManagerPlugins) (i : PluginInput) : Prop := (m.call i).printed = [] ∧ m.HasRoom i.2

instance (m : ManagerPlugins) (c : PluginCall) : Decidable (m.HasRoom c) := by
  unfold HasRoom
  cases c <;> infer_instance

instance (m : ManagerPlugins) (i : PluginInput) : Decidable (m.Passes i) :=
  inferInstanceAs (Decidable ((m.call i).printed = [] ∧ m.HasRoom i.2))

/-! ## Calls on arrays that are lists -/

variable {m t : ManagerPlugins} {l : PluginLists} {kind kind' : PluginKind} {status : ManagerStatus}
  {a : PtrArray PluginObject} {index : Byte} {freeMemory : Bool} {p : Option PluginObject}

theorem refines_iff : m.Refines l ↔ ∀ kind, (m.array kind).Holds (l.list kind) := by
  constructor
  · intro h kind
    cases kind with
    | filter => exact h.filters
    | injector => exact h.injectors
  · intro h
    have hf := h .filter
    have hi := h .injector
    exact ⟨hf, hi, hf.count_eq, hi.count_eq, hf.get_eq, hi.get_eq⟩

theorem refines_new : new.Refines ⟨[], []⟩ := by
  refine refines_iff.2 fun kind => ?_
  cases kind <;> exact PtrArray.holds_empty

theorem Refines.put {xs : List (Option PluginObject)} (h : m.Refines l) (ha : a.Holds xs)
    (deleted : List PluginObject) : (m.put kind a deleted).Refines (l.put kind xs) := by
  rw [refines_iff] at h
  refine refines_iff.2 fun kind' => ?_
  have hlist : (l.put kind xs).list kind' = if kind' = kind then xs else l.list kind' := by
    cases kind <;> cases kind' <;> rfl
  have harray : (m.put kind a deleted).array kind' = if kind' = kind then a else m.array kind' := by
    cases kind <;> cases kind' <;> rfl
  rw [hlist, harray]
  split_ifs
  · exact ha
  · exact h kind'

theorem Refines.of_put {l' : PluginLists} {deleted : List PluginObject}
    (h : (m.put kind a deleted).Refines l') : a.Holds (l'.list kind) := by
  have ha := refines_iff.1 h kind
  cases kind <;> exact ha

theorem Refines.unique {l' : PluginLists} (h : m.Refines l) (h' : m.Refines l') : l = l' := by
  obtain ⟨fs, is⟩ := l
  obtain ⟨fs', is'⟩ := l'
  rw [show fs = fs' from h.filters.unique h'.filters,
    show is = is' from h.injectors.unique h'.injectors]

theorem printed_add : (m.add kind status p).printed = [] ↔ kind.mayAdd status = true := by
  unfold add
  dsimp only
  split_ifs with h <;> simp [h]

theorem printed_remove (h : m.Refines l) : (m.remove kind status index freeMemory).printed = [] ↔
    PluginKind.mayRemove status = true ∧ index < (m.array kind).count := by
  have hk := refines_iff.1 h kind
  -- A null array has a count of 0, which no index is below.
  have hnull : (m.array kind).block.isNone = true → (m.array kind).count ≤ index := by
    intro hnone
    have hnil : l.list kind = [] := by
      by_contra hne
      rw [hk.block_of_ne hne] at hnone
      cases hnone
    rw [UInt8.le_iff_toNat_le, hk.count_eq, hnil]
    exact Nat.zero_le _
  have hout : ((m.array kind).block.isNone || (m.array kind).count ≤ index) = true ↔
      ¬ index < (m.array kind).count := by
    rw [Bool.or_eq_true, decide_eq_true_eq, UInt8.not_lt]
    exact ⟨fun h => h.elim hnull id, .inr⟩
  unfold remove
  dsimp only
  rw [List.append_eq_nil_iff]
  refine and_congr ?_ ?_
  · split_ifs with hs <;> simp [hs]
  · by_cases hindex : index < (m.array kind).count
    · rw [if_neg fun h => hout.1 h hindex]
      exact iff_of_true rfl hindex
    · rw [if_pos (hout.2 hindex)]
      exact iff_of_false (List.cons_ne_nil _ _) hindex

/-- An element is added to an array as it is to the list exactly when the check is content and the
count does not wrap. -/
theorem add_iff (h : m.Refines l) :
    (∃ t, (m.add kind status p).after = some t ∧ t.Refines (l.add kind status p)) ↔
      kind.mayAdd status = true ∧ (m.array kind).count ≠ 255 := by
  have hk := refines_iff.1 h kind
  have hfull : (l.list kind).length < 255 ↔ (m.array kind).count ≠ 255 := by
    have hlt := (m.array kind).count.toNat_lt
    rw [← hk.count_eq, ne_eq, ← UInt8.toNat_inj, show (255 : Byte).toNat = 255 from rfl]
    omega
  constructor
  · rintro ⟨t, ht, hr⟩
    obtain ⟨a, ha, rfl⟩ := Option.map_eq_some_iff.1 ht
    have hmay : kind.mayAdd status = true := by
      by_contra hno
      rw [PluginLists.add, if_neg hno] at hr
      have hcount := hk.count_add ha
      have hsame : a.count = (m.array kind).count := UInt8.toNat_inj.1 (by
        rw [hr.of_put.count_eq, hk.count_eq])
      rw [hsame] at hcount
      exact absurd hcount (by simp)
    refine ⟨hmay, hfull.1 ?_⟩
    by_contra hno
    rw [hk.add_of_full hno] at ha
    cases ha
  · rintro ⟨hmay, hcount⟩
    obtain ⟨a, ha, hholds⟩ := hk.add_of_lt (hfull.2 hcount) p
    refine ⟨_, by rw [add, ha]; rfl, ?_⟩
    rw [PluginLists.add, if_pos hmay]
    exact h.put hholds []

/-- An element is removed from an array as it is from the list exactly when the checks are content.
-/
theorem remove_iff (h : m.Refines l) :
    (∃ t, (m.remove kind status index freeMemory).after = some t ∧
        t.Refines (l.remove kind status index)) ↔
      PluginKind.mayRemove status = true ∧ index < (m.array kind).count := by
  have hk := refines_iff.1 h kind
  have hlt : index.toNat < (l.list kind).length ↔ index < (m.array kind).count := by
    rw [UInt8.lt_iff_toNat_lt, hk.count_eq]
  rw [← hlt]
  constructor
  · rintro ⟨t, ht, hr⟩
    obtain ⟨⟨a, q⟩, ha, rfl⟩ := Option.map_eq_some_iff.1 ht
    by_contra hno
    rw [PluginLists.remove, if_neg hno] at hr
    have hcount := PtrArray.count_remove ha
    have hsame : a.count = (m.array kind).count := UInt8.toNat_inj.1 (by
      rw [hr.of_put.count_eq, hk.count_eq])
    rw [hsame] at hcount
    have hsucc := congrArg (· + 1) hcount
    simp only [UInt8.sub_add_cancel] at hsucc
    exact absurd hsucc (by simp)
  · intro hpass
    obtain ⟨a, ha, hholds⟩ := hk.remove_of_lt hpass.2 freeMemory
    refine ⟨_, by rw [remove, ha]; rfl, ?_⟩
    rw [PluginLists.remove, if_pos hpass]
    exact h.put hholds _

/-- A call is one on the lists exactly when it passes. -/
theorem call_iff (h : m.Refines l) (i : PluginInput) :
    (∃ t, m.step i = some t ∧ t.Refines (l.call i)) ↔ m.Passes i := by
  obtain ⟨status, c⟩ := i
  cases c with
  | addFilter f => exact (add_iff h).trans (and_congr_left' printed_add.symm)
  | addInjector f => exact (add_iff h).trans (and_congr_left' printed_add.symm)
  | removeFilter index freeMemory =>
    exact (remove_iff h).trans ((printed_remove h).symm.trans (and_iff_left trivial).symm)
  | removeInjector index freeMemory =>
    exact (remove_iff h).trans ((printed_remove h).symm.trans (and_iff_left trivial).symm)

/-- **The arrays are lists.**  Along a run of calls on a new manager, in whatever statuses, every
call does to the arrays what it does to the lists exactly when every call passes its own checks and
no element is added to 255. -/
theorem refined_iff (is : List PluginInput) :
    (∀ o ∈ Runs.outputs step observe new is, o.Refined) ↔ Runs.Along step Passes new is := by
  refine Runs.outputs_forall_iff (fun m => ∃ l, m.Refines l) ?_ ?_ ⟨_, refines_new⟩ is
  · rintro m i t ht hpass ⟨l, hl⟩
    obtain ⟨t', ht', hr⟩ := (call_iff hl i).2 hpass
    rw [ht, Option.some.injEq] at ht'
    exact ⟨_, ht' ▸ hr⟩
  · rintro m i ⟨l, hl⟩
    rw [← call_iff hl i]
    constructor
    · rintro ⟨l', t, hl', ht, hr⟩
      exact ⟨t, ht, hl.unique hl' ▸ hr⟩
    · rintro ⟨t, ht, hr⟩
      exact ⟨l, t, hl, ht, hr⟩

/-- One filter, and the removal of a second one: the error is printed and the first one is gone. -/
theorem refined_fails : ¬ ∀ o ∈ Runs.outputs step observe new
    [(.idle, .addFilter (some ⟨0, PLUGIN_INJECTOR⟩)), (.idle, .removeFilter 1 false)], o.Refined := by
  intro h
  obtain ⟨l, t, hl, ht, hr⟩ := h _ (List.mem_cons_of_mem _ (List.mem_cons_self ..))
  exact absurd ((call_iff hl _).1 ⟨t, ht, hr⟩) (by decide)

end ManagerPlugins

end UsbProxy
