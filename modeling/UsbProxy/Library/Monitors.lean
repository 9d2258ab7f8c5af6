import Mathlib.Algebra.Order.BigOperators.Group.Finset
import Mathlib.Data.Fintype.BigOperators
import UsbProxy.Library.Runs

/-!
# Monitors

An object behind a mutex with one condition variable, used by any number of threads.  An operation takes
the mutex, and waits on the condition variable as long as it cannot be done; once done it may notify one
waiting thread, and gives the mutex back.  Threads may also wake up for no reason.

`linearized` is that the mutex makes each operation one step: between its call and its return lies its
effect, and the effects alone are a run of the object by itself.  `at_rest` is that no wake-up is lost, for
objects whose waiting operations take from a stock to which each notification adds at most one.
-/

namespace Monitors

/-- `body op x` is what `op` gives and makes of the object, `none` if it has to wait. -/
structure Monitor (σ Op Res : Type*) where
  body : Op → σ → Option (Res × σ)
  notifies : Op → σ → Bool

/-- Where a thread stands. -/
inductive Pc (Op Res : Type*)
  | idle
  | entering (op : Op)
  | inside (op : Op)
  | waiting (op : Op)
  | leaving (res : Res)
  deriving DecidableEq, Repr

inductive Event (ι Op Res : Type*)
  | call (t : ι) (op : Op)
  | effect (t : ι) (op : Op) (res : Res)
  | ret (t : ι) (res : Res)
  deriving DecidableEq, Repr

/-- The object, the mutex and the threads; `trace` is what happened so far. -/
structure State (ι σ Op Res : Type*) where
  object : σ
  owner : Option ι
  pc : ι → Pc Op Res
  trace : List (Event ι Op Res)

/-- `run` does the operation and notifies `woken`, or has the thread wait. -/
inductive Move (ι Op : Type*)
  | call (t : ι) (op : Op)
  | enter (t : ι)
  | run (t : ι) (woken : Option ι)
  | leave (t : ι)
  | spurious (t : ι)
  deriving DecidableEq, Repr

variable {ι σ Op Res : Type*}

namespace Pc

def IsWaiting : Pc Op Res → Bool
  | .waiting _ => true
  | _ => false

/-- The thread has the mutex. -/
def IsLocked : Pc Op Res → Bool
  | .inside _ | .leaving _ => true
  | _ => false

/-- A thread that was waiting wants the mutex again. -/
def wake : Pc Op Res → Pc Op Res
  | .waiting op => .entering op
  | pc => pc

end Pc

namespace Event

def thread : Event ι Op Res → ι
  | .call t _ | .effect t _ _ | .ret t _ => t

def effect? : Event ι Op Res → Option (Op × Res)
  | .effect _ op res => some (op, res)
  | _ => none

end Event

/-- The mutex is free and no thread uses the object. -/
def start (x : σ) : State ι σ Op Res := ⟨x, none, fun _ => .idle, []⟩

/-- The threads behind a notification. -/
def State.wake [DecidableEq ι] (s : State ι σ Op Res) : Option ι → ι → Pc Op Res
  | some u => Function.update s.pc u (s.pc u).wake
  | none => s.pc

/-- The threads go on by themselves. -/
def Move.IsOwn : Move ι Op → Bool
  | .enter _ | .run _ _ | .leave _ => true
  | .call _ _ | .spurious _ => false

section Step

variable [DecidableEq ι] [Fintype ι] (mon : Monitor σ Op Res)

/-- `notify_one` wakes a waiting thread if there is one. -/
def State.MayWake (s : State ι σ Op Res) : Option ι → Bool
  | some u => (s.pc u).IsWaiting
  | none => decide (∀ u, (s.pc u).IsWaiting = false)

/-- What an operation done now notifies. -/
def State.Notifies (s : State ι σ Op Res) (op : Op) (woken : Option ι) : Bool :=
  if mon.notifies op s.object then s.MayWake woken else woken.isNone

def step (s : State ι σ Op Res) : Move ι Op → Option (State ι σ Op Res)
  | .call t op =>
    match s.pc t with
    | .idle => some { s with
        pc := Function.update s.pc t (.entering op), trace := s.trace ++ [.call t op] }
    | _ => none
  | .enter t =>
    match s.pc t, s.owner with
    | .entering op, none =>
      some { s with owner := some t, pc := Function.update s.pc t (.inside op) }
    | _, _ => none
  | .run t woken =>
    match s.pc t with
    | .inside op =>
      match mon.body op s.object with
      | none => some { s with owner := none, pc := Function.update s.pc t (.waiting op) }
      | some (res, object) =>
        if s.Notifies mon op woken then
          some { s with
            object, pc := Function.update (s.wake woken) t (.leaving res)
            trace := s.trace ++ [.effect t op res] }
        else none
    | _ => none
  | .leave t =>
    match s.pc t with
    | .leaving res => some { s with
        owner := none, pc := Function.update s.pc t .idle, trace := s.trace ++ [.ret t res] }
    | _ => none
  | .spurious t =>
    if (s.pc t).IsWaiting then some { s with pc := Function.update s.pc t (s.pc t).wake } else none

variable {mon} {s u : State ι σ Op Res} {m : Move ι Op} {t : ι}

/-- All a step can do. -/
inductive Step (mon : Monitor σ Op Res) (s : State ι σ Op Res) :
    Move ι Op → State ι σ Op Res → Prop
  | call {t : ι} {op : Op} (hpc : s.pc t = .idle) : Step mon s (.call t op) { s with
      pc := Function.update s.pc t (.entering op), trace := s.trace ++ [.call t op] }
  | enter {t : ι} {op : Op} (hpc : s.pc t = .entering op) (hfree : s.owner = none) :
      Step mon s (.enter t) { s with
        owner := some t, pc := Function.update s.pc t (.inside op) }
  | wait {t : ι} {op : Op} {woken : Option ι} (hpc : s.pc t = .inside op)
      (hbody : mon.body op s.object = none) : Step mon s (.run t woken) { s with
        owner := none, pc := Function.update s.pc t (.waiting op) }
  | run {t : ι} {op : Op} {woken : Option ι} {res : Res} {object : σ} (hpc : s.pc t = .inside op)
      (hbody : mon.body op s.object = some (res, object))
      (hwoken : s.Notifies mon op woken = true) :
      Step mon s (.run t woken) { s with
        object, pc := Function.update (s.wake woken) t (.leaving res)
        trace := s.trace ++ [.effect t op res] }
  | leave {t : ι} {res : Res} (hpc : s.pc t = .leaving res) : Step mon s (.leave t) { s with
      owner := none, pc := Function.update s.pc t .idle, trace := s.trace ++ [.ret t res] }
  | spurious {t : ι} {op : Op} (hpc : s.pc t = .waiting op) : Step mon s (.spurious t) { s with
      pc := Function.update s.pc t (.entering op) }

theorem exists_of_isWaiting {pc : Pc Op Res} (h : pc.IsWaiting = true) : ∃ op, pc = .waiting op := by
  cases pc with
  | waiting op => exact ⟨op, rfl⟩
  | _ => cases h

theorem step_cases (h : step mon s m = some u) : Step mon s m u := by
  cases m with
  | call t op =>
    simp only [step] at h
    split at h
    next hpc => cases h; exact .call hpc
    next => cases h
  | enter t =>
    simp only [step] at h
    split at h
    next op hpc hfree => cases h; exact .enter hpc hfree
    next => cases h
  | run t woken =>
    simp only [step] at h
    split at h
    next op hpc =>
      split at h
      next hbody => cases h; exact .wait hpc hbody
      next res object hbody =>
        split_ifs at h with hwoken
        cases h
        exact .run hpc hbody hwoken
    next => cases h
  | leave t =>
    simp only [step] at h
    split at h
    next res hpc => cases h; exact .leave hpc
    next => cases h
  | spurious t =>
    simp only [step] at h
    split_ifs at h with hpc
    obtain ⟨op, hop⟩ := exists_of_isWaiting hpc
    cases h
    rw [hop]
    exact .spurious hop

theorem Step.step_eq (h : Step mon s m u) : step mon s m = some u := by
  cases h with
  | call hpc => simp only [step, hpc]
  | enter hpc hfree => simp only [step, hpc, hfree]
  | wait hpc hbody => simp only [step, hpc, hbody]
  | run hpc hbody hwoken => simp only [step, hpc, hbody, hwoken, if_true]
  | leave hpc => simp only [step, hpc]
  | spurious hpc => simp only [step, hpc, Pc.IsWaiting, Pc.wake, if_true]

end Step

/-! ## What the mutex gives -/

section Mutex

variable {mon : Monitor σ Op Res} {s u : State ι σ Op Res} {m : Move ι Op} {t : ι}

/-- The threads and the mutex agree: the one that has it is inside an operation. -/
def Exclusive (s : State ι σ Op Res) : Prop := ∀ t, s.owner = some t ↔ (s.pc t).IsLocked = true

theorem exclusive_start (x : σ) : Exclusive (start x : State ι σ Op Res) := fun t =>
  iff_of_false (Option.some_ne_none t).symm Bool.false_ne_true

theorem Exclusive.of_same {owner : Option ι} {pc : ι → Pc Op Res} (h : Exclusive s)
    (howner : owner = s.owner) (hpc : ∀ v, (pc v).IsLocked = (s.pc v).IsLocked) {object : σ}
    {trace : List (Event ι Op Res)} : Exclusive ⟨object, owner, pc, trace⟩ := by
  intro v
  dsimp only
  rw [howner, hpc v]
  exact h v

variable [DecidableEq ι]

/-- A notification has one thread that waits go on, or none. -/
theorem wake_cases (s : State ι σ Op Res) (woken : Option ι) (v : ι) :
    s.wake woken v = s.pc v ∨
      ∃ op, woken = some v ∧ s.pc v = .waiting op ∧ s.wake woken v = .entering op := by
  cases woken with
  | none => exact .inl rfl
  | some u =>
    by_cases hv : v = u
    · subst hv
      have hwake : s.wake (some v) v = (s.pc v).wake := Function.update_self ..
      rw [hwake]
      cases hpc : s.pc v with
      | waiting op => exact .inr ⟨op, rfl, rfl, rfl⟩
      | _ => exact .inl rfl
    · exact .inl (Function.update_of_ne hv ..)

/-- What a thread keeps when it moves on, all threads keep. -/
theorem kept_update {κ : Type*} (f : Pc Op Res → κ) {pc : Pc Op Res} (h : f pc = f (s.pc t)) (v : ι) :
    f (Function.update s.pc t pc v) = f (s.pc v) := by
  by_cases hv : v = t
  · rw [hv, Function.update_self, h]
  · rw [Function.update_of_ne hv]

/-- What waiting and entering threads have in common, a notification leaves alone. -/
theorem kept_wake {κ : Type*} (f : Pc Op Res → κ) (h : ∀ op, f (.entering op) = f (.waiting op))
    (s : State ι σ Op Res) (woken : Option ι) (v : ι) : f (s.wake woken v) = f (s.pc v) := by
  rcases wake_cases s woken v with hsame | ⟨op, -, hwaiting, hwoken⟩
  · rw [hsame]
  · rw [hwoken, hwaiting, h]

theorem Exclusive.release {pc : Pc Op Res} (h : Exclusive s) (ht : (s.pc t).IsLocked = true)
    (hpc : pc.IsLocked = false) {object : σ} {trace : List (Event ι Op Res)} :
    Exclusive ⟨object, none, Function.update s.pc t pc, trace⟩ := by
  intro v
  dsimp only
  refine iff_of_false (Option.some_ne_none v).symm ?_
  by_cases hv : v = t
  · rw [hv, Function.update_self, hpc]
    exact Bool.false_ne_true
  · rw [Function.update_of_ne hv, ← h v, (h t).2 ht]
    exact fun heq => hv (Option.some.inj heq).symm

variable [Fintype ι]

theorem Exclusive.step (h : step mon s m = some u) (he : Exclusive s) : Exclusive u := by
  cases step_cases h with
  | @call t op hpc =>
    exact he.of_same rfl fun v => kept_update Pc.IsLocked (t := t) (by rw [hpc]; rfl) v
  | @enter t op hpc hfree =>
    intro v
    dsimp only
    by_cases hv : v = t
    · rw [hv, Function.update_self]
      exact iff_of_true rfl rfl
    · rw [Function.update_of_ne hv, ← he v, hfree]
      exact iff_of_false (fun heq => hv (Option.some.inj heq).symm) (Option.some_ne_none v).symm
  | wait hpc _ => exact he.release (by rw [hpc]; rfl) rfl
  | @run t op woken res object hpc _ _ =>
    refine he.of_same rfl fun v => ?_
    by_cases hv : v = t
    · rw [hv, Function.update_self, hpc]
      rfl
    · rw [Function.update_of_ne hv]
      exact kept_wake Pc.IsLocked (fun _ => rfl) s woken v
  | leave hpc => exact he.release (by rw [hpc]; rfl) rfl
  | @spurious t op hpc =>
    exact he.of_same rfl fun v => kept_update Pc.IsLocked (t := t) (by rw [hpc]; rfl) v

end Mutex

/-! ## Each operation is one step -/

/-- What a thread has done of its operation. -/
inductive Phase (Op Res : Type*)
  | out
  | called (op : Op)
  | done (res : Res)
  deriving DecidableEq, Repr

def Pc.phase : Pc Op Res → Phase Op Res
  | .idle => .out
  | .entering op | .inside op | .waiting op => .called op
  | .leaving res => .done res

section Linearized

variable [DecidableEq ι] [DecidableEq Op] [DecidableEq Res]

/-- A thread calls, its operation takes effect, and it returns with what came of that. -/
def Phase.advance : Phase Op Res → Event ι Op Res → Option (Phase Op Res)
  | .out, .call _ op => some (.called op)
  | .called op, .effect _ op' res => if op' = op then some (.done res) else none
  | .done res, .ret _ res' => if res' = res then some .out else none
  | _, _ => none

/-- The object by itself: an operation that gives what it gave. -/
def Monitor.serial (mon : Monitor σ Op Res) (x : σ) (e : Op × Res) : Option σ :=
  (mon.body e.1 x).bind fun (res, y) => if res = e.2 then some y else none

/-- The effects in the trace lead to the object there is, and each thread's events are those of one
operation after the other. -/
structure Linearized (mon : Monitor σ Op Res) (x : σ) (s : State ι σ Op Res) : Prop where
  serial : Runs.run mon.serial x (s.trace.filterMap Event.effect?) = some s.object
  threads : ∀ t, Runs.run Phase.advance .out (s.trace.filter fun e => e.thread = t) =
    some (s.pc t).phase

variable {mon : Monitor σ Op Res} {x : σ} {s u : State ι σ Op Res} {m : Move ι Op} {t : ι}

theorem linearized_start (x : σ) : Linearized mon x (start x : State ι σ Op Res) :=
  ⟨rfl, fun _ => rfl⟩

theorem Linearized.of_same {owner : Option ι} {pc : ι → Pc Op Res} (h : Linearized mon x s)
    (hpc : ∀ v, (pc v).phase = (s.pc v).phase) : Linearized mon x ⟨s.object, owner, pc, s.trace⟩ :=
  ⟨h.serial, fun v => (h.threads v).trans (congrArg some (hpc v).symm)⟩

theorem threads_concat {pc : ι → Pc Op Res} {e : Event ι Op Res} (h : Linearized mon x s)
    (hothers : ∀ v, v ≠ e.thread → (pc v).phase = (s.pc v).phase)
    (hadvance : (s.pc e.thread).phase.advance e = some (pc e.thread).phase) (v : ι) :
    Runs.run Phase.advance .out ((s.trace ++ [e]).filter fun e => e.thread = v) =
      some (pc v).phase := by
  rw [List.filter_append]
  by_cases hv : e.thread = v
  · subst hv
    rw [List.filter_cons_of_pos (by simp)]
    exact (Runs.run_concat_eq_some _).2 ⟨_, h.threads _, hadvance⟩
  · rw [List.filter_cons_of_neg (by simpa using hv), List.filter_nil, List.append_nil,
      hothers v (Ne.symm hv)]
    exact h.threads v

variable [Fintype ι]

theorem Linearized.step (h : step mon s m = some u) (hl : Linearized mon x s) :
    Linearized mon x u := by
  cases step_cases h with
  | @call t op hpc =>
    refine ⟨?_, fun v => threads_concat (e := .call t op) hl (fun v hv => ?_) ?_ v⟩
    · rw [List.filterMap_append]
      exact (congrArg _ (List.append_nil _)).trans hl.serial
    · exact congrArg Pc.phase (Function.update_of_ne hv ..)
    · show (s.pc t).phase.advance _ = some (Function.update s.pc t _ t).phase
      rw [hpc, Function.update_self]
      rfl
  | @enter t op hpc _ =>
    exact hl.of_same fun v => kept_update Pc.phase (t := t) (by rw [hpc]; rfl) v
  | @wait t op _ hpc _ =>
    exact hl.of_same fun v => kept_update Pc.phase (t := t) (by rw [hpc]; rfl) v
  | @run t op woken res object hpc hbody _ =>
    refine ⟨?_, fun v => threads_concat (e := .effect t op res) hl (fun v hv => ?_) ?_ v⟩
    · rw [List.filterMap_append]
      refine (Runs.run_concat_eq_some _).2 ⟨_, hl.serial, ?_⟩
      unfold Monitor.serial
      rw [hbody]
      exact if_pos rfl
    · exact (congrArg Pc.phase (Function.update_of_ne hv ..)).trans
        (kept_wake Pc.phase (fun _ => rfl) s woken v)
    · show (s.pc t).phase.advance _ = some (Function.update (s.wake woken) t _ t).phase
      rw [hpc, Function.update_self]
      exact if_pos rfl
  | @leave t res hpc =>
    refine ⟨?_, fun v => threads_concat (e := .ret t res) hl (fun v hv => ?_) ?_ v⟩
    · rw [List.filterMap_append]
      exact (congrArg _ (List.append_nil _)).trans hl.serial
    · exact congrArg Pc.phase (Function.update_of_ne hv ..)
    · show (s.pc t).phase.advance _ = some (Function.update s.pc t _ t).phase
      rw [hpc, Function.update_self]
      exact if_pos rfl
  | @spurious t op hpc =>
    exact hl.of_same fun v => kept_update Pc.phase (t := t) (by rw [hpc]; rfl) v

/-- Every run, whoever is scheduled and woken. -/
theorem linearized (x : σ) {moves : List (Move ι Op)}
    (hrun : Runs.run (Monitors.step mon) (start x) moves = some s) : Linearized mon x s :=
  Runs.invariant (Linearized mon x) (fun _ _ _ h => Linearized.step h) hrun (linearized_start x)

end Linearized

/-! ## No wake-up is lost -/

/-- The operations in `waits` take one or more from a stock and wait when there is none; each of the others
adds one at most, and only with a notification. -/
structure Stocked (mon : Monitor σ Op Res) (stock : σ → ℕ) (waits : Op → Prop) : Prop where
  wait : ∀ {op x}, mon.body op x = none → waits op ∧ stock x = 0
  take : ∀ {op x res y}, waits op → mon.body op x = some (res, y) → stock y + 1 ≤ stock x
  add : ∀ {op x res y}, ¬ waits op → mon.body op x = some (res, y) →
    stock y ≤ stock x + if mon.notifies op x then 1 else 0

section Stock

variable {mon : Monitor σ Op Res} {stock : σ → ℕ} {waits : Op → Prop} {x : σ}
  {s u : State ι σ Op Res} {m : Move ι Op} {t : ι}

/-- A thread in an operation that waits, and not waiting now. -/
def Awake (waits : Op → Prop) : Pc Op Res → Prop
  | .entering op | .inside op => waits op
  | _ => False

/-- A thread waits only as long as the stock does not exceed the threads that are about to take of it. -/
structure Attended (stock : σ → ℕ) (waits : Op → Prop) (s : State ι σ Op Res) : Prop where
  waiting : ∀ {t op}, s.pc t = .waiting op → waits op
  attended : ∀ {t op}, s.pc t = .waiting op →
    ∃ A : Finset ι, (∀ v ∈ A, Awake waits (s.pc v)) ∧ stock s.object ≤ A.card

theorem attended_start (x : σ) : Attended stock waits (start x : State ι σ Op Res) := by
  constructor
  · intro t op h
    cases h
  · intro t op h
    cases h

theorem Attended.of_same {owner : Option ι} {pc : ι → Pc Op Res} {trace : List (Event ι Op Res)}
    (h : Attended stock waits s) (hwaiting : ∀ v op, pc v = .waiting op → s.pc v = .waiting op)
    (hawake : ∀ v, Awake waits (s.pc v) → Awake waits (pc v)) :
    Attended stock waits ⟨s.object, owner, pc, trace⟩ := by
  refine ⟨fun hv => h.waiting (hwaiting _ _ hv), fun hv => ?_⟩
  obtain ⟨A, hA, hstock⟩ := h.attended (hwaiting _ _ hv)
  exact ⟨A, fun v hv => hawake v (hA v hv), hstock⟩

variable [DecidableEq ι]

theorem Attended.update {owner : Option ι} {pc : Pc Op Res} {trace : List (Event ι Op Res)}
    (h : Attended stock waits s) (ht : ¬ Awake waits (s.pc t)) (hpc : pc.IsWaiting = false) :
    Attended stock waits ⟨s.object, owner, Function.update s.pc t pc, trace⟩ := by
  refine h.of_same (fun v op hv => ?_) fun v hv => ?_
  · by_cases hvt : v = t
    · rw [hvt, Function.update_self] at hv
      rw [hv] at hpc
      cases hpc
    · rwa [Function.update_of_ne hvt] at hv
  · have hvt : v ≠ t := fun heq => ht (heq ▸ hv)
    rwa [Function.update_of_ne hvt]

theorem waiting_of_run {woken : Option ι} {res : Res} {v : ι} {op : Op}
    (h : Function.update (s.wake woken) t (.leaving res) v = .waiting op) :
    v ≠ t ∧ s.pc v = .waiting op := by
  have hvt : v ≠ t := by
    rintro rfl
    rw [Function.update_self] at h
    cases h
  rw [Function.update_of_ne hvt] at h
  refine ⟨hvt, ?_⟩
  rcases wake_cases s woken v with hsame | ⟨op', -, -, hwoken⟩
  · rw [← hsame, h]
  · rw [hwoken] at h
    cases h

theorem awake_of_run {woken : Option ι} {res : Res} {v : ι} (hvt : v ≠ t)
    (h : Awake waits (s.pc v)) : Awake waits (Function.update (s.wake woken) t (.leaving res) v) := by
  rw [Function.update_of_ne hvt]
  rcases wake_cases s woken v with hsame | ⟨op, -, hwaiting, -⟩
  · rwa [hsame]
  · rw [hwaiting] at h
    exact h.elim

/-- An operation of a thread takes from the stock, or adds to it and notifies. -/
theorem Attended.run [Fintype ι] {op : Op} {woken : Option ι} {res : Res} {object : σ}
    {owner : Option ι} {trace : List (Event ι Op Res)} (hmon : Stocked mon stock waits)
    (h : Attended stock waits s) (hpc : s.pc t = .inside op)
    (hbody : mon.body op s.object = some (res, object))
    (hwoken : s.Notifies mon op woken = true) : Attended stock waits
      ⟨object, owner, Function.update (s.wake woken) t (.leaving res), trace⟩ := by
  refine ⟨fun hv => h.waiting (waiting_of_run hv).2, fun {v op'} hv' => ?_⟩
  obtain ⟨-, hv⟩ := waiting_of_run hv'
  obtain ⟨A, hA, hstock⟩ := h.attended hv
  by_cases hop : waits op
  · refine ⟨A.erase t, fun w hw => ?_, ?_⟩
    · obtain ⟨hwt, hwA⟩ := Finset.mem_erase.1 hw
      exact awake_of_run hwt (hA w hwA)
    · have htake := hmon.take hop hbody
      have hcard := Finset.pred_card_le_card_erase (s := A) (a := t)
      show stock object ≤ _
      omega
  · have hne : ∀ w ∈ A, w ≠ t := by
      rintro w hw rfl
      have := hA w hw
      rw [hpc] at this
      exact hop this
    have hadd := hmon.add hop hbody
    unfold State.Notifies at hwoken
    cases hn : mon.notifies op s.object with
    | false =>
      rw [hn, if_neg Bool.false_ne_true] at hadd
      exact ⟨A, fun w hw => awake_of_run (hne w hw) (hA w hw), hadd.trans hstock⟩
    | true =>
      rw [hn, if_pos rfl] at hadd hwoken
      cases woken with
      | none =>
        have := of_decide_eq_true hwoken v
        rw [hv] at this
        cases this
      | some w =>
        -- The thread woken is one more that is about to take.
        obtain ⟨opw, hopw⟩ := exists_of_isWaiting hwoken
        have hwA : w ∉ A := fun hw => by
          have := hA w hw
          rw [hopw] at this
          exact this
        have hwt : w ≠ t := by
          rintro rfl
          rw [hpc] at hopw
          cases hopw
        refine ⟨insert w A, fun z hz => ?_, ?_⟩
        · rcases Finset.mem_insert.1 hz with rfl | hz
          · show Awake waits (Function.update (s.wake (some z)) t _ z)
            rw [Function.update_of_ne hwt]
            have hwake : s.wake (some z) z = .entering opw := by
              show Function.update s.pc z (s.pc z).wake z = _
              rw [Function.update_self, hopw]
              rfl
            rw [hwake]
            exact h.waiting hopw
          · exact awake_of_run (hne z hz) (hA z hz)
        · rw [Finset.card_insert_of_notMem hwA]
          exact hadd.trans (Nat.add_le_add_right hstock 1)

variable [Fintype ι]

theorem Attended.step (hmon : Stocked mon stock waits) (h : step mon s m = some u)
    (ha : Attended stock waits s) : Attended stock waits u := by
  cases step_cases h with
  | call hpc => exact ha.update (by rw [hpc]; exact id) rfl
  | leave hpc => exact ha.update (by rw [hpc]; exact id) rfl
  | spurious hpc => exact ha.update (by rw [hpc]; exact id) rfl
  | run hpc hbody hwoken => exact ha.run hmon hpc hbody hwoken
  | @enter t op hpc _ =>
    refine ha.of_same (fun v op' hv => ?_) fun v hv => ?_
    · by_cases hvt : v = t
      · rw [hvt, Function.update_self] at hv
        cases hv
      · rwa [Function.update_of_ne hvt] at hv
    · have hsame : Awake waits (Function.update s.pc t (.inside op) v) = Awake waits (s.pc v) :=
        kept_update (Awake waits) (by rw [hpc]; rfl) v
      exact hsame ▸ hv
  | @wait t op _ hpc hbody =>
    obtain ⟨hwaits, hnone⟩ := hmon.wait hbody
    refine ⟨fun {v op'} hv => ?_, fun _ => ⟨∅, fun w hw => absurd hw (Finset.notMem_empty w), ?_⟩⟩
    · dsimp only at hv
      by_cases hvt : v = t
      · rw [hvt, Function.update_self] at hv
        cases hv
        exact hwaits
      · rw [Function.update_of_ne hvt] at hv
        exact ha.waiting hv
    · exact hnone.le

/-- The threads are at rest: none of them can go on by itself. -/
def Rests (mon : Monitor σ Op Res) (s : State ι σ Op Res) : Prop :=
  ∀ m : Move ι Op, m.IsOwn = true → step mon s m = none

theorem owner_of_rests (he : Exclusive s) (h : Rests mon s) : s.owner = none := by
  cases ho : s.owner with
  | none => rfl
  | some t =>
    exfalso
    have hlocked := (he t).1 ho
    cases hpc : s.pc t with
    | idle => rw [hpc] at hlocked; cases hlocked
    | entering op => rw [hpc] at hlocked; cases hlocked
    | waiting op => rw [hpc] at hlocked; cases hlocked
    | leaving res =>
      have hnone := h (.leave t) rfl
      simp only [step, hpc, reduceCtorEq] at hnone
    | inside op =>
      have hstuck : ∀ woken, step mon s (.run t woken) = none := fun woken => h (.run t woken) rfl
      simp only [step, hpc] at hstuck
      cases hbody : mon.body op s.object with
      | none => simp only [hbody, reduceCtorEq] at hstuck; exact hstuck none
      | some r =>
        obtain ⟨res, object⟩ := r
        simp only [hbody, ite_eq_right_iff, reduceCtorEq, imp_false] at hstuck
        unfold State.Notifies at hstuck
        cases hn : mon.notifies op s.object with
        | false =>
          apply hstuck none
          rw [hn]
          rfl
        | true =>
          simp only [hn, if_true] at hstuck
          by_cases hw : ∃ u, (s.pc u).IsWaiting = true
          · obtain ⟨u, hu⟩ := hw
            exact hstuck (some u) hu
          · apply hstuck none
            refine decide_eq_true fun u => ?_
            simpa using not_exists.1 hw u

/-- At rest a thread is out of its operations or waits, and does so only if there is no stock. -/
theorem Attended.rests (ha : Attended stock waits s) (he : Exclusive s) (h : Rests mon s) (t : ι) :
    s.pc t = .idle ∨ ∃ op, waits op ∧ s.pc t = .waiting op ∧ stock s.object = 0 := by
  have hfree := owner_of_rests he h
  have hopen : ∀ v, (s.pc v).IsLocked = false := by
    intro v
    rw [← Bool.not_eq_true, ← he v, hfree]
    exact (Option.some_ne_none v).symm
  have hentered : ∀ v op, s.pc v ≠ .entering op := by
    intro v op hpc
    have hnone := h (.enter v) rfl
    simp only [Monitors.step, hpc, hfree, reduceCtorEq] at hnone
  cases hpc : s.pc t with
  | idle => exact .inl rfl
  | entering op => exact absurd hpc (hentered t op)
  | inside op =>
    have := hopen t
    rw [hpc] at this
    cases this
  | leaving res =>
    have := hopen t
    rw [hpc] at this
    cases this
  | waiting op =>
    refine .inr ⟨op, ha.waiting hpc, rfl, ?_⟩
    obtain ⟨A, hA, hstock⟩ := ha.attended hpc
    have hnone : A = ∅ := by
      refine Finset.eq_empty_of_forall_notMem fun v hv => ?_
      have hawake := hA v hv
      have hv' := hopen v
      cases hpv : s.pc v with
      | entering op => exact hentered v op hpv
      | inside op => rw [hpv] at hv'; cases hv'
      | idle => rw [hpv] at hawake; exact hawake
      | waiting op => rw [hpv] at hawake; exact hawake
      | leaving res => rw [hpv] at hawake; exact hawake
    rw [hnone, Finset.card_empty] at hstock
    exact Nat.le_zero.1 hstock

end Stock

/-! ## The threads come to rest -/

section Rest

variable {mon : Monitor σ Op Res} {s u : State ι σ Op Res} {m : Move ι Op} {t : ι}

/-- The steps a thread has before it at most, until it waits or is out of its operation; notifying another
is worth two of them. -/
def Pc.burden : Pc Op Res → ℕ
  | .idle => 0
  | .leaving _ => 1
  | .waiting _ => 3
  | .inside _ => 4
  | .entering _ => 5

variable [Fintype ι]

def State.burden (s : State ι σ Op Res) : ℕ := ∑ t, (s.pc t).burden

theorem burden_le (s : State ι σ Op Res) : s.burden ≤ 5 * Fintype.card ι := by
  have hone : ∀ t ∈ Finset.univ, (s.pc t).burden ≤ 5 := by
    intro t _
    cases s.pc t <;> simp [Pc.burden]
  calc s.burden ≤ Finset.univ.card • 5 := Finset.sum_le_card_nsmul _ _ _ hone
    _ = 5 * Fintype.card ι := Nat.mul_comm _ 5

variable [DecidableEq ι]

theorem sum_update (g : ι → Pc Op Res) (t : ι) (pc : Pc Op Res) :
    ∑ v, (Function.update g t pc v).burden + (g t).burden = ∑ v, (g v).burden + pc.burden := by
  have hothers : ∑ v ∈ Finset.univ.erase t, (Function.update g t pc v).burden =
      ∑ v ∈ Finset.univ.erase t, (g v).burden := by
    apply Finset.sum_congr rfl
    intro v hv
    rw [Function.update_of_ne (Finset.ne_of_mem_erase hv)]
  rw [← Finset.add_sum_erase _ _ (Finset.mem_univ t),
    ← Finset.add_sum_erase _ (fun v => (g v).burden) (Finset.mem_univ t), Function.update_self,
    hothers]
  omega

theorem sum_update_lt {g : ι → Pc Op Res} {pc : Pc Op Res} (h : pc.burden + 1 ≤ (g t).burden) :
    ∑ v, (Function.update g t pc v).burden + 1 ≤ ∑ v, (g v).burden := by
  have hsum := sum_update g t pc
  omega

theorem sum_wake (s : State ι σ Op Res) (woken : Option ι) :
    ∑ v, (s.wake woken v).burden ≤ s.burden + 2 := by
  cases woken with
  | none => exact Nat.le_add_right _ 2
  | some w =>
    have hsum := sum_update s.pc w (s.pc w).wake
    have hwake : (s.pc w).wake.burden ≤ (s.pc w).burden + 2 := by
      cases s.pc w <;> simp [Pc.wake, Pc.burden]
    show ∑ v, (Function.update s.pc w (s.pc w).wake v).burden ≤ ∑ v, (s.pc v).burden + 2
    omega

/-- Each step a thread takes by itself brings all of them closer to rest. -/
theorem burden_step (h : step mon s m = some u) (hm : m.IsOwn = true) : u.burden + 1 ≤ s.burden := by
  unfold State.burden
  cases step_cases h with
  | call _ => cases hm
  | spurious _ => cases hm
  | @enter t op hpc _ =>
    exact sum_update_lt (by rw [hpc]; simp [Pc.burden])
  | @wait t op _ hpc _ =>
    exact sum_update_lt (by rw [hpc]; simp [Pc.burden])
  | @leave t res hpc =>
    exact sum_update_lt (by rw [hpc]; simp [Pc.burden])
  | @run t op woken res object hpc _ _ =>
    have hsum := sum_update (s.wake woken) t (.leaving res)
    have hwake := sum_wake s woken
    have hself : (s.wake woken t).burden = 4 := by
      rcases wake_cases s woken t with hsame | ⟨op', -, hwaiting, -⟩
      · rw [hsame, hpc]
        rfl
      · rw [hpc] at hwaiting
        cases hwaiting
    have hleft : (Pc.leaving res : Pc Op Res).burden = 1 := rfl
    unfold State.burden at hwake
    dsimp only
    omega

theorem length_le_burden {moves : List (Move ι Op)} (hown : ∀ m ∈ moves, m.IsOwn = true)
    (hrun : Runs.run (step mon) s moves = some u) : moves.length + u.burden ≤ s.burden := by
  induction moves generalizing s with
  | nil =>
    rw [Runs.run_nil, Option.some.injEq] at hrun
    rw [hrun, List.length_nil, Nat.zero_add]
  | cons m moves ih =>
    obtain ⟨hm, hmoves⟩ := List.forall_mem_cons.1 hown
    obtain ⟨v, hv, hrest⟩ := (Runs.run_cons_eq_some _).1 hrun
    have hstep := burden_step hv hm
    have hlength := ih hmoves hrest
    rw [List.length_cons]
    omega

/-- Wherever a run has come to and however the threads are scheduled, without a new call and a wake-up for no
reason they are at rest after five steps for each of them at most, all steps counted together; and then one
that is in an operation waits, and there is no stock. -/
theorem at_rest {stock : σ → ℕ} {waits : Op → Prop} (hmon : Stocked mon stock waits) (x : σ)
    {moves own : List (Move ι Op)} (hrun : Runs.run (step mon) (start x) moves = some s)
    (hown : ∀ m ∈ own, m.IsOwn = true) (hgo : Runs.run (step mon) s own = some u) :
    own.length ≤ 5 * Fintype.card ι ∧ (Rests mon u → ∀ t, u.pc t = .idle ∨
      ∃ op, waits op ∧ u.pc t = .waiting op ∧ stock u.object = 0) := by
  refine ⟨?_, fun hrest => ?_⟩
  · have := length_le_burden hown hgo
    have := burden_le s
    omega
  · have hall : Exclusive u ∧ Attended stock waits u :=
      Runs.invariant (fun s => Exclusive s ∧ Attended stock waits s)
        (fun _ _ _ h hs => ⟨hs.1.step h, hs.2.step hmon h⟩)
        ((Runs.run_append_eq_some _).2 ⟨s, hrun, hgo⟩) ⟨exclusive_start x, attended_start x⟩
    exact hall.2.rests hall.1 hrest

end Rest

end Monitors
