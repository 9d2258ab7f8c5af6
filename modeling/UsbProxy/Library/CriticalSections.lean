import UsbProxy.Library.Monitors

/-!
# Critical sections

`Monitors` has an operation done in one step.  Here a thread that has the mutex does one access to the object
after the other, and any other thread may move between two of them; nothing but the mutex keeps it away from the
object.

`linearized` is that it does: where each operation, left alone, does what the monitor says, every run has the
threads call and return as a run of the monitor does, at most one of them inside an operation, and none of
their accesses goes wrong.
-/

namespace CriticalSections

open Monitors

/-- What comes of one access: the object as it is then and the next one to do; the thread waits; or the
operation is over, with a notification if `notify`. -/
inductive Access (σ Res Loc : Type*)
  | goOn (l : Loc) (x : σ)
  | wait
  | ret (res : Res) (notify : Bool)
  | fault
  deriving DecidableEq, Repr

/-- The code of the operations.  `l : Loc` is where a thread stands and its local variables. -/
structure Program (σ Op Res Loc : Type*) where
  start : Op → Loc
  access : Loc → σ → Access σ Res Loc

/-- `loc t` is where `t` stands as long as it is inside an operation. -/
structure State (ι σ Op Res Loc : Type*) extends Monitors.State ι σ Op Res where
  loc : ι → Option Loc

variable {ι σ Op Res Loc : Type*}

def start (x : σ) : State ι σ Op Res Loc := ⟨Monitors.start x, fun _ => none⟩

section Step

variable [DecidableEq ι] [Fintype ι]

/-- What a thread may wake, that notifies if `notify`. -/
def State.MayNotify (s : State ι σ Op Res Loc) (notify : Bool) (woken : Option ι) : Bool :=
  if notify then s.MayWake woken else woken.isNone

variable (prog : Program σ Op Res Loc)

/-- `run` is one access. -/
def step (s : State ι σ Op Res Loc) : Move ι Op → Option (State ι σ Op Res Loc)
  | .call t op =>
    match s.pc t with
    | .idle => some { s with
        pc := Function.update s.pc t (.entering op), trace := s.trace ++ [.call t op] }
    | _ => none
  | .enter t =>
    match s.pc t, s.owner with
    | .entering op, none => some { s with
        owner := some t, pc := Function.update s.pc t (.inside op)
        loc := Function.update s.loc t (some (prog.start op)) }
    | _, _ => none
  | .run t woken =>
    match s.pc t, s.loc t with
    | .inside op, some l =>
      match prog.access l s.object with
      | .goOn l object => some { s with object, loc := Function.update s.loc t (some l) }
      | .wait => some { s with owner := none, pc := Function.update s.pc t (.waiting op) }
      | .ret res notify =>
        if s.MayNotify notify woken then
          some { s with
            pc := Function.update (s.wake woken) t (.leaving res)
            trace := s.trace ++ [.effect t op res] }
        else none
      | .fault => none
    | _, _ => none
  | .leave t =>
    match s.pc t with
    | .leaving res => some { s with
        owner := none, pc := Function.update s.pc t .idle, trace := s.trace ++ [.ret t res] }
    | _ => none
  | .spurious t =>
    if (s.pc t).IsWaiting then some { s with pc := Function.update s.pc t (s.pc t).wake } else none

/-- All a step can do. -/
inductive Step (s : State ι σ Op Res Loc) : Move ι Op → State ι σ Op Res Loc → Prop
  | call {t : ι} {op : Op} (hpc : s.pc t = .idle) : Step s (.call t op) { s with
      pc := Function.update s.pc t (.entering op), trace := s.trace ++ [.call t op] }
  | enter {t : ι} {op : Op} (hpc : s.pc t = .entering op) (hfree : s.owner = none) :
      Step s (.enter t) { s with
        owner := some t, pc := Function.update s.pc t (.inside op)
        loc := Function.update s.loc t (some (prog.start op)) }
  | goOn {t : ι} {op : Op} {woken : Option ι} {l l' : Loc} {object : σ} (hpc : s.pc t = .inside op)
      (hloc : s.loc t = some l) (hgo : prog.access l s.object = .goOn l' object) :
      Step s (.run t woken) { s with object, loc := Function.update s.loc t (some l') }
  | wait {t : ι} {op : Op} {woken : Option ι} {l : Loc} (hpc : s.pc t = .inside op)
      (hloc : s.loc t = some l) (hwait : prog.access l s.object = .wait) :
      Step s (.run t woken) { s with
        owner := none, pc := Function.update s.pc t (.waiting op) }
  | ret {t : ι} {op : Op} {woken : Option ι} {l : Loc} {res : Res} {notify : Bool}
      (hpc : s.pc t = .inside op) (hloc : s.loc t = some l)
      (hret : prog.access l s.object = .ret res notify)
      (hwoken : s.MayNotify notify woken = true) :
      Step s (.run t woken) { s with
        pc := Function.update (s.wake woken) t (.leaving res)
        trace := s.trace ++ [.effect t op res] }
  | leave {t : ι} {res : Res} (hpc : s.pc t = .leaving res) : Step s (.leave t) { s with
      owner := none, pc := Function.update s.pc t .idle, trace := s.trace ++ [.ret t res] }
  | spurious {t : ι} {op : Op} (hpc : s.pc t = .waiting op) : Step s (.spurious t) { s with
      pc := Function.update s.pc t (.entering op) }

variable {prog} {s u : State ι σ Op Res Loc} {m : Move ι Op}

theorem step_cases (h : step prog s m = some u) : Step prog s m u := by
  cases m with
  | call t op =>
    simp only [step] at h
    split at h
    next hpc => cases h; exact .call hpc
    next => cases h
  | enter t =>
    simp only [step] at h
    split at h
    next op hpc hfree => cases h; exact .enter hpc hfree
    next => cases h
  | run t woken =>
    simp only [step] at h
    split at h
    next op l hpc hloc =>
      split at h
      next l' object hgo => cases h; exact .goOn hpc hloc hgo
      next hwait => cases h; exact .wait hpc hloc hwait
      next res notify hret =>
        split_ifs at h with hwoken
        cases h
        exact .ret hpc hloc hret hwoken
      next => cases h
    next => cases h
  | leave t =>
    simp only [step] at h
    split at h
    next res hpc => cases h; exact .leave hpc
    next => cases h
  | spurious t =>
    simp only [step] at h
    split_ifs at h with hpc
    obtain ⟨op, hop⟩ := exists_of_isWaiting hpc
    cases h
    rw [hop]
    exact .spurious hop

end Step

/-! ## An operation left alone -/

/-- Where `op` may stand, with what has become of the object, when it began on `x` and nothing else has touched
the object. -/
inductive Reached (prog : Program σ Op Res Loc) (op : Op) (x : σ) : Loc → σ → Prop
  | start : Reached prog op x (prog.start op) x
  | goOn {l l' : Loc} {y z : σ} (h : Reached prog op x l y) (hgo : prog.access l y = .goOn l' z) :
      Reached prog op x l' z

/-- An operation that is left alone does what the monitor says, and no access goes wrong. -/
structure Implements (prog : Program σ Op Res Loc) (mon : Monitor σ Op Res) : Prop where
  wait : ∀ {op x l y}, Reached prog op x l y → prog.access l y = .wait → mon.body op x = none ∧ y = x
  ret : ∀ {op x l y res notify}, Reached prog op x l y → prog.access l y = .ret res notify →
    mon.body op x = some (res, y) ∧ mon.notifies op x = notify
  safe : ∀ {op x l y}, Reached prog op x l y → prog.access l y ≠ .fault

/-! ## Runs are runs of the monitor -/

/-- The operation a thread is inside of. -/
def inside? : Pc Op Res → Option Op
  | .inside op => some op
  | _ => none

theorem isLocked_of_inside {pc : Pc Op Res} {op : Op} (h : inside? pc = some op) :
    pc.IsLocked = true := by
  cases pc with
  | inside op => rfl
  | _ => cases h

/-- The monitor's state, in which the operation that a thread is inside of has not been begun. -/
def State.before (s : State ι σ Op Res Loc) (x : σ) : Monitors.State ι σ Op Res :=
  { s.toState with object := x }

/-- `x` is the object before the operation that a thread is inside of, and the object there is if there is no
such thread. -/
structure Simulates (prog : Program σ Op Res Loc) (s : State ι σ Op Res Loc) (x : σ) : Prop where
  exclusive : Exclusive (s.before x)
  inside : ∀ {t op}, inside? (s.pc t) = some op → ∃ l, s.loc t = some l ∧ Reached prog op x l s.object
  outside : (∀ t, inside? (s.pc t) = none) → s.object = x

section Simulation

variable {prog : Program σ Op Res Loc} {mon : Monitor σ Op Res} {s u : State ι σ Op Res Loc}
  {m : Move ι Op} {t v : ι} {x : σ}

theorem simulates_start (x : σ) : Simulates prog (start x : State ι σ Op Res Loc) x where
  exclusive := exclusive_start x
  inside := nofun
  outside _ := rfl

/-- A thread inside an operation has the mutex, and no other is inside one. -/
theorem Simulates.unique {op : Op} (hs : Simulates prog s x) (ht : inside? (s.pc t) = some op)
    (hv : (s.pc v).IsLocked = true) : v = t := by
  have howner : s.owner = some t := (hs.exclusive t).2 (isLocked_of_inside ht)
  have howner' : s.owner = some v := (hs.exclusive v).2 hv
  rw [howner, Option.some.injEq] at howner'
  exact howner'.symm

theorem Simulates.object_of_free (hs : Simulates prog s x) (hfree : s.owner = none) :
    s.object = x := by
  refine hs.outside fun t => ?_
  cases ht : inside? (s.pc t) with
  | none => rfl
  | some op =>
    have howner : s.owner = some t := (hs.exclusive t).2 (isLocked_of_inside ht)
    rw [hfree] at howner
    cases howner

theorem Simulates.of_same {owner : Option ι} {pc : ι → Pc Op Res} {trace : List (Event ι Op Res)}
    (hs : Simulates prog s x) (he : Exclusive (⟨x, owner, pc, trace⟩ : Monitors.State ι σ Op Res))
    (hpc : ∀ v, inside? (pc v) = inside? (s.pc v)) :
    Simulates prog ⟨⟨s.object, owner, pc, trace⟩, s.loc⟩ x where
  exclusive := he
  inside h := hs.inside ((hpc _).symm.trans h)
  outside h := hs.outside fun v => (hpc v).symm.trans (h v)

theorem Simulates.of_left {owner : Option ι} {pc : ι → Pc Op Res} {trace : List (Event ι Op Res)}
    {op : Op} (hs : Simulates prog s x) (ht : inside? (s.pc t) = some op)
    (he : Exclusive (⟨s.object, owner, pc, trace⟩ : Monitors.State ι σ Op Res))
    (hpc : ∀ v, v ≠ t → inside? (pc v) = inside? (s.pc v)) (hself : inside? (pc t) = none) :
    Simulates prog ⟨⟨s.object, owner, pc, trace⟩, s.loc⟩ s.object where
  exclusive := he
  inside {v op'} h := by
    have hv : v ≠ t := by
      rintro rfl
      rw [hself] at h
      cases h
    exact absurd (hs.unique ht (isLocked_of_inside ((hpc v hv).symm.trans h))) hv
  outside _ := rfl

/-- A thread that is inside an operation does so with no other having touched the object. -/
theorem Simulates.reached {op : Op} {l : Loc} (hs : Simulates prog s x) (hpc : s.pc t = .inside op)
    (hloc : s.loc t = some l) : Reached prog op x l s.object := by
  have ht : inside? (s.pc t) = some op := by rw [hpc]; rfl
  obtain ⟨l', hl', hreached⟩ := hs.inside ht
  rw [hloc, Option.some.injEq] at hl'
  exact hl' ▸ hreached

variable [DecidableEq ι]

theorem Simulates.goOn {op : Op} {l l' : Loc} {object : σ} (hs : Simulates prog s x)
    (hpc : s.pc t = .inside op) (hloc : s.loc t = some l)
    (hgo : prog.access l s.object = .goOn l' object) :
    Simulates prog { s with object, loc := Function.update s.loc t (some l') } x where
  exclusive := hs.exclusive
  inside {v op'} h := by
    obtain rfl := hs.unique (t := t) (by rw [hpc]; rfl) (isLocked_of_inside h)
    dsimp only at h
    rw [hpc] at h
    cases h
    exact ⟨l', Function.update_self .., (hs.reached hpc hloc).goOn hgo⟩
  outside h := by
    have ht := h t
    dsimp only at ht
    rw [hpc] at ht
    cases ht

theorem Simulates.enter {op : Op} (hs : Simulates prog s x) (hfree : s.owner = none)
    (he : Exclusive ({ s.before x with
      owner := some t, pc := Function.update s.pc t (.inside op) } : Monitors.State ι σ Op Res)) :
    Simulates prog { s with
      owner := some t, pc := Function.update s.pc t (.inside op)
      loc := Function.update s.loc t (some (prog.start op)) } x where
  exclusive := he
  inside {v op'} h := by
    have hv : some t = some v := (he v).2 (isLocked_of_inside h)
    obtain rfl := Option.some.inj hv
    dsimp only at h ⊢
    rw [Function.update_self] at h
    cases h
    refine ⟨_, Function.update_self .., ?_⟩
    rw [hs.object_of_free hfree]
    exact .start
  outside h := by
    have ht := h t
    dsimp only at ht
    rw [Function.update_self] at ht
    cases ht

variable [Fintype ι]

/-- An access is a step inside the monitor's operation, or the one with which the monitor does it; every
other step is one of the monitor. -/
theorem simulates_step (himpl : Implements prog mon) (h : step prog s m = some u)
    (hs : Simulates prog s x) : ∃ y, Simulates prog u y ∧
      (u.before y = s.before x ∨ Monitors.step mon (s.before x) m = some (u.before y)) := by
  cases step_cases h with
  | @call t op hpc =>
    have hmove : Monitors.Step mon (s.before x) (.call t op) _ := .call hpc
    have hstep := hmove.step_eq
    exact ⟨x, hs.of_same (hs.exclusive.step hstep) fun v =>
      kept_update inside? (t := t) (by rw [hpc]; rfl) v, .inr hstep⟩
  | @enter t op hpc hfree =>
    have hmove : Monitors.Step mon (s.before x) (.enter t) _ := .enter hpc hfree
    have hstep := hmove.step_eq
    exact ⟨x, hs.enter hfree (hs.exclusive.step hstep), .inr hstep⟩
  | goOn hpc hloc hgo => exact ⟨x, hs.goOn hpc hloc hgo, .inl rfl⟩
  | @wait t op woken l hpc hloc hwait =>
    obtain ⟨hbody, rfl⟩ := himpl.wait (hs.reached hpc hloc) hwait
    have hmove : Monitors.Step mon (s.before s.object) (.run t woken) _ := .wait hpc hbody
    have hstep := hmove.step_eq
    refine ⟨s.object, hs.of_left (t := t) (by rw [hpc]; rfl) (hs.exclusive.step hstep)
      (fun v hv => ?_) ?_, .inr hstep⟩
    · rw [Function.update_of_ne hv]
    · rw [Function.update_self]
      rfl
  | @ret t op woken l res notify hpc hloc hret hwoken =>
    obtain ⟨hbody, rfl⟩ := himpl.ret (hs.reached hpc hloc) hret
    have hmove : Monitors.Step mon (s.before x) (.run t woken) _ := .run hpc hbody hwoken
    have hstep := hmove.step_eq
    refine ⟨s.object, hs.of_left (t := t) (by rw [hpc]; rfl) (hs.exclusive.step hstep)
      (fun v hv => ?_) ?_, .inr hstep⟩
    · rw [Function.update_of_ne hv]
      exact kept_wake inside? (fun _ => rfl) s.toState woken v
    · rw [Function.update_self]
      rfl
  | @leave t res hpc =>
    have hmove : Monitors.Step mon (s.before x) (.leave t) _ := .leave hpc
    have hstep := hmove.step_eq
    exact ⟨x, hs.of_same (hs.exclusive.step hstep) fun v =>
      kept_update inside? (t := t) (by rw [hpc]; rfl) v, .inr hstep⟩
  | @spurious t op hpc =>
    have hmove : Monitors.Step mon (s.before x) (.spurious t) _ := .spurious hpc
    have hstep := hmove.step_eq
    exact ⟨x, hs.of_same (hs.exclusive.step hstep) fun v =>
      kept_update inside? (t := t) (by rw [hpc]; rfl) v, .inr hstep⟩

/-- A run of the accesses is a run of the monitor in which the threads stand, and have called and returned, the
same way. -/
theorem simulates_run (himpl : Implements prog mon) {x₀ : σ} {moves : List (Move ι Op)}
    (hrun : Runs.run (step prog) (start x₀) moves = some s) : ∃ x, Simulates prog s x ∧
      ∃ coarse, Runs.run (Monitors.step mon) (Monitors.start x₀) coarse = some (s.before x) := by
  refine Runs.invariant (fun s => ∃ x, Simulates prog s x ∧ ∃ coarse,
    Runs.run (Monitors.step mon) (Monitors.start x₀) coarse = some (s.before x)) ?_ hrun
    ⟨x₀, simulates_start x₀, [], rfl⟩
  rintro s m u h ⟨x, hs, coarse, hcoarse⟩
  obtain ⟨y, hy, hsame | hstep⟩ := simulates_step himpl h hs
  · exact ⟨y, hy, coarse, hsame ▸ hcoarse⟩
  · exact ⟨y, hy, coarse ++ [m], (Runs.run_concat_eq_some _).2 ⟨_, hcoarse, hstep⟩⟩

end Simulation

/-! ## Each operation is one step -/

section Linearized

variable [DecidableEq ι] [Fintype ι] {prog : Program σ Op Res Loc} {mon : Monitor σ Op Res}

/-- What the mutex gives at `s`, with `x` the object as the operations done so far have left it: one thread at
most is inside an operation and about to give the mutex back; its next access does not go wrong; and as long as no
thread has the mutex the object is `x`. -/
structure Sound (prog : Program σ Op Res Loc) (x : σ) (s : State ι σ Op Res Loc) : Prop where
  exclusive : ∀ t v, (s.pc t).IsLocked = true → (s.pc v).IsLocked = true → t = v
  safe : ∀ t op, s.pc t = .inside op → ∃ l, s.loc t = some l ∧ prog.access l s.object ≠ .fault
  object : s.owner = none → s.object = x

variable [DecidableEq Op] [DecidableEq Res] {s : State ι σ Op Res Loc}

/-- However the accesses of the threads are interleaved: the effects in the trace are a run of the monitor's
operations, one after the other, and lead to the object there is. -/
theorem linearized (himpl : Implements prog mon) {x₀ : σ} {moves : List (Move ι Op)}
    (hrun : Runs.run (step prog) (start x₀) moves = some s) :
    ∃ x, Sound prog x s ∧ Linearized mon x₀ (s.before x) := by
  obtain ⟨x, hs, coarse, hcoarse⟩ := simulates_run himpl hrun
  refine ⟨x, ⟨fun t v ht hv => ?_, fun t op hpc => ?_, hs.object_of_free⟩,
    Monitors.linearized x₀ hcoarse⟩
  · have ht' : s.owner = some t := (hs.exclusive t).2 ht
    have hv' : s.owner = some v := (hs.exclusive v).2 hv
    exact Option.some.inj (ht'.symm.trans hv')
  · have ht : inside? (s.pc t) = some op := by rw [hpc]; rfl
    obtain ⟨l, hl, hreached⟩ := hs.inside ht
    exact ⟨l, hl, himpl.safe hreached⟩

end Linearized

end CriticalSections
