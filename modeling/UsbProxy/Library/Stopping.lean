import UsbProxy.Library.Runs

/-!
# Stopping a consumer that may wait

A consumer takes entries off a queue, one a round, and waits while there are none.  A call that stops
it has two halves: it raises a flag, then it offers an entry to wake the consumer.  `Consumer` keeps
what matters of both: where the consumer is, the flag, and whether there is an entry.

For a system that steps like a `Consumer`, with any number of callers: behind a call no consumer waits
on an empty queue (`run_woken`), and the entry taken behind a raised flag is the last thing a consumer
does (`settled_of_taken`, `run_settled`,
`run_unchanged`).
-/

namespace Stopping

/-- The half of a call a step is, if any. -/
inductive Half
  | raise
  | wake
  | neither
  deriving DecidableEq, Repr

inductive Place
  /-- at work, or between two rounds -/
  | outside
  /-- about to take an entry; it waits if there is none -/
  | waiting
  /-- with an entry, before it looks at the flag -/
  | taken
  | exited
  deriving DecidableEq, Repr

structure Consumer where
  place : Place
  flag : Bool
  /-- There is an entry. -/
  ready : Bool
  deriving DecidableEq, Repr

namespace Consumer

/-- The consumer looks at the flag before it goes to its wait and behind it, and leaves when it is up.
Only the consumer takes entries off the queue. -/
inductive Step : Half → Consumer → Consumer → Prop
  | raise (c : Consumer) : Step .raise c { c with flag := true }
  | wake (c : Consumer) : Step .wake c { c with ready := true }
  | produce (c : Consumer) : Step .neither c { c with ready := true }
  | idle (c : Consumer) : Step .neither c c
  | enter {c : Consumer} (hp : c.place = .outside) (hf : c.flag = false) :
      Step .neither c { c with place := .waiting }
  | take {c : Consumer} (hp : c.place = .waiting) (ready : Bool) :
      Step .neither c { c with place := .taken, ready }
  | goOn {c : Consumer} (hp : c.place = .taken) (hf : c.flag = false) :
      Step .neither c { c with place := .outside }
  | exit {c : Consumer} (hf : c.flag = true) :
      Step .neither c { c with place := .exited, flag := false }

/-- The consumer has left or will. -/
def Bound (c : Consumer) : Prop := c.flag = true ∨ c.place = .exited

/-- The consumer has left, or holds the entry it leaves with. -/
def Settled (c : Consumer) : Prop := c.place = .exited ∨ c.flag = true ∧ c.place = .taken

variable {k : Half} {c d : Consumer}

theorem Step.idle_of_eq (hp : d.place = c.place) (hf : d.flag = c.flag) (hr : d.ready = c.ready) :
    Step .neither c d := by
  have h : d = c := by
    cases d
    subst hp hf hr
    rfl
  exact h ▸ .idle c

theorem eq_ready (hp : d.place = c.place) (hf : d.flag = c.flag) (hr : d.ready = true) :
    d = { c with ready := true } := by
  cases d
  subst hp hf hr
  rfl

theorem Step.produce_of_eq (hp : d.place = c.place) (hf : d.flag = c.flag) (hr : d.ready = true) :
    Step .neither c d := eq_ready hp hf hr ▸ .produce c

theorem Step.wake_of_eq (hp : d.place = c.place) (hf : d.flag = c.flag) (hr : d.ready = true) :
    Step .wake c d := eq_ready hp hf hr ▸ .wake c

theorem Step.bound (h : Step k c d) (hc : c.Bound) : d.Bound := by
  cases h with
  | raise => exact .inl rfl
  | wake => exact hc
  | produce => exact hc
  | idle => exact hc
  | enter hp hf => simp [Bound, hp, hf] at hc
  | take hp ready => exact hc.imp id fun he => by simp [hp] at he
  | goOn hp hf => simp [Bound, hp, hf] at hc
  | exit hf => exact .inr rfl

/-- A consumer bound to leave waits behind a step only where it waited before, and nobody has taken the
entry it waits for. -/
theorem Step.ready_kept (h : Step k c d) (hc : c.Bound) (hd : d.place = .waiting) :
    c.place = .waiting ∧ (c.ready = true → d.ready = true) := by
  cases h with
  | raise => exact ⟨hd, id⟩
  | wake => exact ⟨hd, fun _ => rfl⟩
  | produce => exact ⟨hd, fun _ => rfl⟩
  | idle => exact ⟨hd, id⟩
  | enter hp hf => simp [Bound, hp, hf] at hc
  | take => cases hd
  | goOn => cases hd
  | exit => cases hd

theorem Step.settled (h : Step k c d) (hc : c.Settled) : d.Settled := by
  cases h with
  | raise => exact hc.imp id fun h => ⟨rfl, h.2⟩
  | wake => exact hc
  | produce => exact hc
  | idle => exact hc
  | enter hp => simp [Settled, hp] at hc
  | take hp => simp [Settled, hp] at hc
  | goOn hp hf => simp [Settled, hp, hf] at hc
  | exit => exact .inl rfl

end Consumer

/-! ## Callers -/

/-- A system with the calls that have raised the flag and not yet offered their entry, and the calls
that have come back. -/
structure Calls (σ : Type*) where
  state : σ
  pending : ℕ
  returned : ℕ

variable {σ ι : Type*}

/-- Before any call. -/
def Calls.new (s : σ) : Calls σ := { state := s, pending := 0, returned := 0 }

/-- Any number of callers, each of which offers its entry behind raising the flag. -/
def step (base : σ → ι → Option σ) (half : ι → Half) (c : Calls σ) (i : ι) : Option (Calls σ) :=
  match half i with
  | .raise => (base c.state i).map fun t => { c with state := t, pending := c.pending + 1 }
  | .wake =>
    if c.pending = 0 then none
    else (base c.state i).map fun t =>
      { state := t, pending := c.pending - 1, returned := c.returned + 1 }
  | .neither => (base c.state i).map fun t => { c with state := t }

section

variable {base : σ → ι → Option σ} {half : ι → Half} {view : σ → Consumer} {c d e : Calls σ} {i : ι}

/-- All a step can do. -/
theorem step_cases (h : step base half c i = some d) :
    base c.state i = some d.state ∧
      (half i = .raise ∧ d.pending = c.pending + 1 ∧ d.returned = c.returned ∨
        half i = .wake ∧ 0 < c.pending ∧ d.returned = c.returned + 1 ∨
        half i = .neither ∧ d.pending = c.pending ∧ d.returned = c.returned) := by
  unfold step at h
  cases hi : half i with
  | raise =>
    rw [hi] at h
    obtain ⟨t, ht, rfl⟩ := Option.map_eq_some_iff.1 h
    exact ⟨ht, .inl ⟨rfl, rfl, rfl⟩⟩
  | wake =>
    simp only [hi] at h
    split_ifs at h with hp
    obtain ⟨t, ht, rfl⟩ := Option.map_eq_some_iff.1 h
    exact ⟨ht, .inr (.inl ⟨rfl, Nat.pos_of_ne_zero hp, rfl⟩)⟩
  | neither =>
    rw [hi] at h
    obtain ⟨t, ht, rfl⟩ := Option.map_eq_some_iff.1 h
    exact ⟨ht, .inr (.inr ⟨rfl, rfl, rfl⟩)⟩

/-- The system steps like a consumer. -/
def StepsLike (base : σ → ι → Option σ) (half : ι → Half) (view : σ → Consumer) : Prop :=
  ∀ ⦃s i t⦄, base s i = some t → Consumer.Step (half i) (view s) (view t)

/-- The consumer is bound to leave from the first half of a call on, and behind the second half it
finds an entry if it waits. -/
structure Woken (view : σ → Consumer) (c : Calls σ) : Prop where
  bound : 0 < c.pending ∨ 0 < c.returned → (view c.state).Bound
  ready : 0 < c.returned → (view c.state).place = .waiting → (view c.state).ready = true

theorem woken_new (s : σ) : Woken view (.new s) where
  bound h := h.elim (absurd · (Nat.lt_irrefl 0)) (absurd · (Nat.lt_irrefl 0))
  ready h := absurd h (Nat.lt_irrefl 0)

theorem raise_bound {c d : Consumer} (h : Consumer.Step .raise c d) : d.Bound := by
  cases h
  exact .inl rfl

theorem wake_ready {c d : Consumer} (h : Consumer.Step .wake c d) : d.ready = true := by
  cases h
  rfl

variable (hview : StepsLike base half view)
include hview

theorem step_woken (h : step base half c i = some d) (hw : Woken view c) : Woken view d := by
  obtain ⟨hb, hcalls⟩ := step_cases h
  have hstep := hview hb
  have hready (hr : 0 < c.returned) (hd : (view d.state).place = .waiting) :
      (view d.state).ready = true := by
    obtain ⟨hwait, hkept⟩ := hstep.ready_kept (hw.bound (.inr hr)) hd
    exact hkept (hw.ready hr hwait)
  rcases hcalls with ⟨hi, hp, hr⟩ | ⟨hi, hp, hr⟩ | ⟨hi, hp, hr⟩
  · rw [hi] at hstep
    exact ⟨fun _ => raise_bound hstep, fun h => hready (hr ▸ h)⟩
  · refine ⟨fun _ => hstep.bound (hw.bound (.inl hp)), fun _ _ => ?_⟩
    rw [hi] at hstep
    exact wake_ready hstep
  · refine ⟨fun h => ?_, fun h => hready (hr ▸ h)⟩
    rw [hp, hr] at h
    exact hstep.bound (hw.bound h)

/-- **No lost wake-up.**  Behind a call a consumer in its wait finds an entry. -/
theorem run_woken {s : σ} {is : List ι} (h : Runs.run (step base half) (.new s) is = some c)
    (hr : 0 < c.returned) (hw : (view c.state).place = .waiting) : (view c.state).ready = true :=
  (Runs.invariant (Woken view) (fun _ _ _ => step_woken hview) h (woken_new s)).ready hr hw

/-- A consumer that takes an entry behind a raised flag is bound to leave with it. -/
theorem settled_of_taken {is : List ι} (hf : (view c.state).flag = true)
    (hi : Runs.run (step base half) c is = some d) (ht : (view d.state).place = .taken) :
    (view d.state).Settled := by
  have hbound : (view d.state).Bound :=
    Runs.invariant (fun c : Calls σ => (view c.state).Bound)
      (fun _ _ _ h => (hview (step_cases h).1).bound) hi (.inl hf)
  exact hbound.elim (fun h => .inr ⟨h, ht⟩) .inl

/-- **The last entry.**  A consumer bound to leave with the entry it holds does leave with it. -/
theorem run_settled {is : List ι} (hs : (view c.state).Settled)
    (h : Runs.run (step base half) c is = some d) : (view d.state).Settled :=
  Runs.invariant (fun e : Calls σ => (view e.state).Settled)
    (fun _ _ _ h => (hview (step_cases h).1).settled) h hs

theorem run_unchanged {ω : Type*} {out : σ → ω}
    (hout : ∀ s i t, base s i = some t → (view s).Settled → out t = out s) {is : List ι}
    (hs : (view c.state).Settled) (h : Runs.run (step base half) c is = some d) :
    out d.state = out c.state := by
  have hrun : (view d.state).Settled ∧ out d.state = out c.state := by
    refine Runs.invariant (fun e : Calls σ => (view e.state).Settled ∧ out e.state = out c.state)
      (fun s i t h hs => ?_) h ⟨hs, rfl⟩
    have hb := (step_cases h).1
    exact ⟨(hview hb).settled hs.1, (hout _ i _ hb hs.1).trans hs.2⟩
  exact hrun.2

end

end Stopping
