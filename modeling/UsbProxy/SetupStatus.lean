import Mathlib.Data.List.Chain
import UsbProxy.Library.Runs

/-!
# The status word during setup

`Manager::start_control_relaying` tests `status` at many places, and other threads write it: the device
proxy's `deviceDisconnectNotification`, and anyone's `stop_relaying`.  Every read and every write is a
move of its own, and `writes` keeps the writes in order.  The model begins where the notification is
installed.

Behind its `switch`, `stop_relaying` ends the process with the `exit(-1)` of `stopEps` before it writes
again; a thread that got there makes no further move.
-/

namespace UsbProxy

inductive ManagerStatus
  | idle
  | setup
  | relaying
  | stopping
  | setupAbort
  | reset
  deriving DecidableEq, Repr

/-- Whether a write is one of `start_control_relaying` or of another thread. -/
inductive StatusWriter
  | start
  | other
  deriving DecidableEq, Repr

abbrev StatusWrite := StatusWriter × ManagerStatus

/-- What `hostProxy->connect` returns. -/
inductive ConnectResult
  | connected
  | timedOut
  | failed
  deriving DecidableEq, Repr

/-- Where `start_control_relaying` stands. -/
inductive SetupPc
  /-- with the device model, before the first test -/
  | device
  /-- before the test behind `out_endpoints[0]=new Endpoint` -/
  | endpoint0
  /-- before the test in the rounds of the three loops -/
  | filter (i : ℕ)
  | injector (i : ℕ)
  | injectorThread (i : ℕ)
  /-- in `hostProxy->connect` -/
  | connecting
  /-- before `status==USBM_SETUP` in `while (rc==ETIMEDOUT && ..)` -/
  | timedOut
  /-- before `status=USBM_SETUP_ABORT` -/
  | aborting
  /-- before the test behind the start of the reader thread -/
  | readerStarted
  /-- before the test behind the start of the writer thread -/
  | writerStarted
  /-- before `status=USBM_RELAYING` -/
  | relaying
  /-- in its own `stop_relaying`, before the `switch` -/
  | stopRelaying
  /-- before `status=USBM_SETUP_ABORT` there -/
  | stopAborting
  /-- before `status = USBM_STOPPING` there -/
  | stopStopping
  /-- behind the `switch` -/
  | stopped
  | returned
  deriving DecidableEq, Repr

structure Setup where
  filterCount : ℕ
  injectorCount : ℕ
  status : ManagerStatus
  pc : SetupPc
  /-- Other threads in `stop_relaying` that have read `USBM_SETUP`. -/
  readSetup : ℕ
  /-- Other threads in `stop_relaying` that are about to write `USBM_STOPPING`. -/
  readRunning : ℕ
  writes : List StatusWrite
  deriving DecidableEq, Repr

/-- A thread going on; what `connect` returns matters only where it is called. -/
inductive SetupMove
  | start (rc : ConnectResult)
  | disconnect
  /-- Another thread enters `stop_relaying`. -/
  | stopRead
  | stopAbort
  | stopStopping
  deriving DecidableEq, Repr

namespace Setup

/-- Behind `setDisconnectNotifierCallback`. -/
def new (filterCount injectorCount : ℕ) : Setup where
  filterCount := filterCount
  injectorCount := injectorCount
  status := .setup
  pc := .device
  readSetup := 0
  readRunning := 0
  writes := [(.start, .setup)]

def write (s : Setup) (w : StatusWriter) (v : ManagerStatus) : Setup :=
  { s with status := v, writes := s.writes ++ [(w, v)] }

/-- The next round of `for(i=0;i<injectorCount;i++)` around the injector threads. -/
def threadsFrom (s : Setup) (i : ℕ) : SetupPc :=
  if i < s.injectorCount then .injectorThread i else .connecting

def injectorsFrom (s : Setup) (i : ℕ) : SetupPc :=
  if i < s.injectorCount then .injector i else s.threadsFrom 0

def filtersFrom (s : Setup) (i : ℕ) : SetupPc :=
  if i < s.filterCount then .filter i else s.injectorsFrom 0

/-- `if (status!=USBM_SETUP) {stop_relaying();return;}` -/
def test (s : Setup) (next : SetupPc) : Setup :=
  { s with pc := if s.status ≠ .setup then .stopRelaying else next }

/-- The next step of `start_control_relaying`. -/
def start (s : Setup) (rc : ConnectResult) : Option Setup :=
  match s.pc with
  | .device => some (s.test .endpoint0)
  | .endpoint0 => some (s.test (s.filtersFrom 0))
  | .filter i => some (s.test (s.filtersFrom (i + 1)))
  | .injector i => some (s.test (s.injectorsFrom (i + 1)))
  | .injectorThread i => some (s.test (s.threadsFrom (i + 1)))
  | .connecting =>
    match rc with
    | .connected => some { s with pc := .readerStarted }
    | .timedOut => some { s with pc := .timedOut }
    | .failed => some { s with pc := .aborting }
  | .timedOut => some { s with pc := if s.status = .setup then .connecting else .aborting }
  | .aborting => some { s.write .start .setupAbort with pc := .stopRelaying }
  | .readerStarted => some { s with pc := if s.status ≠ .setup then .aborting else .writerStarted }
  | .writerStarted => some (s.test .relaying)
  | .relaying => some { s.write .start .relaying with pc := .returned }
  | .stopRelaying =>
    match s.status with
    | .setup => some { s with pc := .stopAborting }
    | .relaying | .setupAbort | .reset => some { s with pc := .stopStopping }
    | .idle | .stopping => some { s with pc := .stopped }
  | .stopAborting => some { s.write .start .setupAbort with pc := .returned }
  | .stopStopping => some { s.write .start .stopping with pc := .stopped }
  | .stopped | .returned => none

def step (s : Setup) : SetupMove → Option Setup
  | .start rc => s.start rc
  | .disconnect => some (s.write .other .reset)
  | .stopRead =>
    match s.status with
    | .setup => some { s with readSetup := s.readSetup + 1 }
    | .relaying | .setupAbort | .reset => some { s with readRunning := s.readRunning + 1 }
    | .idle | .stopping => some s
  | .stopAbort =>
    if s.readSetup = 0 then none
    else some { s.write .other .setupAbort with readSetup := s.readSetup - 1 }
  | .stopStopping =>
    if s.readRunning = 0 then none
    else some { s.write .other .stopping with readRunning := s.readRunning - 1 }

/-! ## What must not happen -/

/-- Another thread wants the setup to end. -/
def Signals (a : StatusWrite) : Prop := a.1 = .other ∧ (a.2 = .reset ∨ a.2 = .setupAbort)

/-- Behind such a write `start_control_relaying` does not write `USBM_RELAYING`. -/
def Heeded (writes : List StatusWrite) : Prop :=
  writes.Pairwise fun a b => Signals a → b ≠ (.start, .relaying)

/-- No `USBM_RESET` is overwritten by `USBM_SETUP_ABORT`. -/
def ResetKept (writes : List StatusWrite) : Prop :=
  writes.IsChain fun a b => a.2 = .reset → b.2 ≠ .setupAbort

/-! ## When it does not -/

/-- A reset that comes here is seen before the status is written, overwritten by `USBM_STOPPING` or left
alone. -/
def SetupPc.Heedful : SetupPc → Prop
  | .device | .endpoint0 | .filter _ | .injector _ | .injectorThread _ | .writerStarted
  | .stopRelaying | .stopStopping | .stopped | .returned => True
  | .connecting | .timedOut | .aborting | .readerStarted | .relaying | .stopAborting => False

/-- Disconnects come where they are heeded, and not between another thread's read of `USBM_SETUP` and its
write; that write does not come between the last test and `status=USBM_RELAYING`. -/
def Timely (s : Setup) : SetupMove → Prop
  | .disconnect => SetupPc.Heedful s.pc ∧ s.readSetup = 0
  | .stopAbort => s.pc ≠ .relaying
  | .start _ | .stopRead | .stopStopping => True

instance : DecidablePred SetupPc.Heedful
  | .device | .endpoint0 | .filter _ | .injector _ | .injectorThread _ | .writerStarted
  | .stopRelaying | .stopStopping | .stopped | .returned => isTrue trivial
  | .connecting | .timedOut | .aborting | .readerStarted | .relaying | .stopAborting => isFalse id

instance (s : Setup) (m : SetupMove) : Decidable (Timely s m) :=
  match m with
  | .disconnect => inferInstanceAs (Decidable (_ ∧ _))
  | .stopAbort => inferInstanceAs (Decidable (_ ≠ _))
  | .start _ | .stopRead | .stopStopping => isTrue trivial

variable {s t : Setup} {m : SetupMove} {next : SetupPc}

/-- What every timely move keeps. -/
structure Kept (s : Setup) : Prop where
  heeded : Heeded s.writes
  resetKept : ResetKept s.writes
  last : ∃ w, s.writes.getLast? = some (w, s.status)
  silent : s.status = .setup ∨ s.pc = .relaying → ∀ a ∈ s.writes, ¬ Signals a
  reset : s.status = .reset → SetupPc.Heedful s.pc ∧ s.readSetup = 0

theorem kept_new (filterCount injectorCount : ℕ) : Kept (new filterCount injectorCount) where
  heeded := List.pairwise_singleton _ _
  resetKept := List.isChain_singleton _
  last := ⟨.start, rfl⟩
  silent _ a ha := by
    rw [new, List.mem_singleton] at ha
    simp [ha, Signals]
  reset h := by simp [new] at h

theorem Kept.write (h : Kept s) {w : StatusWriter} {v : ManagerStatus}
    (hrelaying : (w, v) = (.start, .relaying) → s.pc = .relaying)
    (habort : v = .setupAbort → s.status ≠ .reset) :
    Heeded (s.write w v).writes ∧ ResetKept (s.write w v).writes ∧
      ∃ w', (s.write w v).writes.getLast? = some (w', v) := by
  refine ⟨?_, ?_, w, by simp [Setup.write]⟩
  · refine List.pairwise_append.2 ⟨h.heeded, List.pairwise_singleton _ _, fun a ha b hb hsig hrel => ?_⟩
    rw [List.mem_singleton.1 hb] at hrel
    exact h.silent (.inr (hrelaying hrel)) a ha hsig
  · refine h.resetKept.append (List.isChain_singleton _) fun a ha b hb hreset => ?_
    obtain ⟨w', hlast⟩ := h.last
    rw [hlast, Option.mem_some_iff] at ha
    rw [List.head?_cons, Option.mem_some_iff] at hb
    subst ha hb
    exact fun hv => habort hv hreset

theorem Kept.goTo (h : Kept s) (hrelaying : next = .relaying → s.status = .setup)
    (hreset : s.status = .reset → SetupPc.Heedful s.pc → SetupPc.Heedful next) :
    Kept { s with pc := next } where
  heeded := h.heeded
  resetKept := h.resetKept
  last := h.last
  silent hs := h.silent (.inl (hs.elim id hrelaying))
  reset hs := ⟨hreset hs (h.reset hs).1, (h.reset hs).2⟩

theorem Kept.test (h : Kept s) : Kept (s.test next) := by
  refine h.goTo (fun hnext => ?_) fun hs _ => ?_
  · split_ifs at hnext with hs
    exact not_not.1 hs
  · rw [if_pos (by simp [hs])]
    trivial

/-- Where a reset is not heeded, the status is no reset. -/
theorem Kept.not_reset (h : Kept s) (hpc : ¬ SetupPc.Heedful s.pc) : s.status ≠ .reset :=
  fun hs => hpc (h.reset hs).1

theorem Kept.writeStart (h : Kept s) {v : ManagerStatus}
    (hrelaying : v = .relaying → s.pc = .relaying) (habort : v = .setupAbort → s.status ≠ .reset)
    (hsetup : v ≠ .setup) (hreset : v ≠ .reset) (hnext : next ≠ .relaying) :
    Kept { s.write .start v with pc := next } := by
  obtain ⟨hheeded, hkept, hlast⟩ :=
    h.write (w := .start) (fun hv => hrelaying (Prod.mk.inj hv).2) habort
  exact ⟨hheeded, hkept, hlast, fun hs => absurd hs (not_or.2 ⟨hsetup, hnext⟩),
    fun hs => absurd hs hreset⟩

theorem Kept.start {rc : ConnectResult} (h : Kept s) (hstep : s.start rc = some t) : Kept t := by
  unfold Setup.start at hstep
  cases hpc : s.pc <;> simp only [hpc, reduceCtorEq] at hstep
  case device => cases hstep; exact h.test
  case endpoint0 => cases hstep; exact h.test
  case filter => cases hstep; exact h.test
  case injector => cases hstep; exact h.test
  case injectorThread => cases hstep; exact h.test
  case writerStarted => cases hstep; exact h.test
  case connecting =>
    have hreset := h.not_reset (by simp [hpc, SetupPc.Heedful])
    cases rc <;> cases hstep <;> exact h.goTo (by simp) (absurd · hreset)
  case timedOut =>
    have hreset := h.not_reset (by simp [hpc, SetupPc.Heedful])
    cases hstep
    exact h.goTo (fun hnext => by split_ifs at hnext) (absurd · hreset)
  case readerStarted =>
    have hreset := h.not_reset (by simp [hpc, SetupPc.Heedful])
    cases hstep
    exact h.goTo (fun hnext => by split_ifs at hnext) (absurd · hreset)
  case stopRelaying =>
    split at hstep <;> cases hstep
    next hs => exact h.goTo (by simp) (by simp [hs])
    all_goals exact h.goTo (by simp) fun _ _ => by trivial
  case aborting =>
    have hreset := h.not_reset (by simp [hpc, SetupPc.Heedful])
    cases hstep
    exact h.writeStart nofun (fun _ => hreset) nofun nofun nofun
  case stopAborting =>
    have hreset := h.not_reset (by simp [hpc, SetupPc.Heedful])
    cases hstep
    exact h.writeStart nofun (fun _ => hreset) nofun nofun nofun
  case relaying =>
    cases hstep
    exact h.writeStart (fun _ => hpc) nofun nofun nofun nofun
  case stopStopping =>
    cases hstep
    exact h.writeStart nofun nofun nofun nofun nofun

theorem Kept.step (h : Kept s) (hstep : s.step m = some t) (hm : Timely s m) : Kept t := by
  cases m with
  | start rc => exact h.start hstep
  | disconnect =>
    cases hstep
    obtain ⟨hheeded, hkept, hlast⟩ := h.write (w := .other) (v := .reset) (by simp) (by simp)
    refine ⟨hheeded, hkept, hlast, fun hs => ?_, fun _ => hm⟩
    rcases hs with hs | hs
    · simp [Setup.write] at hs
    · exact absurd hm.1 (by rw [show s.pc = .relaying from hs]; simp [SetupPc.Heedful])
  | stopRead =>
    simp only [Setup.step] at hstep
    split at hstep <;> cases hstep
    next hs => exact ⟨h.heeded, h.resetKept, h.last, h.silent, by simp [hs]⟩
    all_goals exact ⟨h.heeded, h.resetKept, h.last, h.silent, h.reset⟩
  | stopAbort =>
    simp only [Setup.step] at hstep
    split_ifs at hstep with hread
    cases hstep
    obtain ⟨hheeded, hkept, hlast⟩ := h.write (w := .other) (v := .setupAbort) (by simp)
      fun _ hs => hread (h.reset hs).2
    refine ⟨hheeded, hkept, hlast, fun hs => ?_, fun hs => by cases hs⟩
    rcases hs with hs | hs
    · cases hs
    · exact absurd hs hm
  | stopStopping =>
    simp only [Setup.step] at hstep
    split_ifs at hstep with hread
    cases hstep
    obtain ⟨hheeded, hkept, hlast⟩ := h.write (w := .other) (v := .stopping) (by simp) (by simp)
    refine ⟨hheeded, hkept, hlast, fun hs a ha => ?_, fun hs => by cases hs⟩
    rcases hs with hs | hs
    · cases hs
    · rcases List.mem_append.1 ha with ha | ha
      · exact h.silent (.inr hs) a ha
      · rw [List.mem_singleton.1 ha]
        simp [Signals]

/-! ## When it does -/

theorem not_resetKept (l : List StatusWrite) (w w' : StatusWriter) :
    ¬ ResetKept (l ++ [(w, .reset)] ++ [(w', .setupAbort)]) := by
  intro h
  rw [List.append_assoc] at h
  have hpair : ResetKept [(w, .reset), (w', .setupAbort)] := h.right_of_append
  simp [ResetKept] at hpair

theorem not_heeded (l : List StatusWrite) {v : ManagerStatus} (hv : Signals (.other, v)) :
    ¬ Heeded (l ++ [(.other, v)] ++ [(.start, .relaying)]) := by
  intro h
  have hpair := (List.pairwise_append.1 h).2.2 (.other, v) (by simp) (.start, .relaying) (by simp)
  exact hpair hv rfl

/-- **An untimely stop can be lost.**  Behind an untimely move the threads may go on so that a stop is
overwritten or not heeded. -/
theorem lost_of_not_timely (hstep : s.step m = some t) (hm : ¬ Timely s m) :
    ∃ moves u, Runs.run step t moves = some u ∧ ¬ (Heeded u.writes ∧ ResetKept u.writes) := by
  obtain ⟨filterCount, injectorCount, status, pc, readSetup, readRunning, writes⟩ := s
  cases m with
  | start rc => exact absurd trivial hm
  | stopRead => exact absurd trivial hm
  | stopStopping => exact absurd trivial hm
  | stopAbort =>
    obtain rfl : pc = .relaying := not_not.1 hm
    simp only [step] at hstep
    split_ifs at hstep
    cases hstep
    exact ⟨[.start .failed], _, rfl, fun h => not_heeded writes ⟨rfl, .inr rfl⟩ h.1⟩
  | disconnect =>
    cases hstep
    cases readSetup with
    | succ n => exact ⟨[.stopAbort], _, rfl, fun h => not_resetKept writes .other .other h.2⟩
    | zero =>
      have hpc : ¬ SetupPc.Heedful pc := fun hpc => hm ⟨hpc, rfl⟩
      cases pc
      case connecting =>
        exact ⟨[.start .failed, .start .failed], _, rfl,
          fun h => not_resetKept writes .other .start h.2⟩
      case timedOut =>
        exact ⟨[.start .failed, .start .failed], _, rfl,
          fun h => not_resetKept writes .other .start h.2⟩
      case readerStarted =>
        exact ⟨[.start .failed, .start .failed], _, rfl,
          fun h => not_resetKept writes .other .start h.2⟩
      case aborting =>
        exact ⟨[.start .failed], _, rfl, fun h => not_resetKept writes .other .start h.2⟩
      case stopAborting =>
        exact ⟨[.start .failed], _, rfl, fun h => not_resetKept writes .other .start h.2⟩
      case relaying =>
        exact ⟨[.start .failed], _, rfl, fun h => not_heeded writes ⟨rfl, .inl rfl⟩ h.1⟩
      all_goals exact absurd trivial hpc

/-- **A stop during setup is kept by timely moves.**  If every disconnect comes where it is heeded and
every other thread's `USBM_SETUP_ABORT` before the last test or behind `USBM_RELAYING`, no stop is lost;
and any untimely move from the state reached can lose one. -/
theorem stop_kept (filterCount injectorCount : ℕ) (moves : List SetupMove) (s : Setup)
    (hrun : Runs.run step (new filterCount injectorCount) moves = some s) :
    (Runs.Along step Timely (new filterCount injectorCount) moves →
      Heeded s.writes ∧ ResetKept s.writes) ∧
    ∀ m t, step s m = some t → ¬ Timely s m →
      ∃ moves u, Runs.run step t moves = some u ∧ ¬ (Heeded u.writes ∧ ResetKept u.writes) := by
  refine ⟨fun htimely => ?_, fun m t => lost_of_not_timely⟩
  have hkept : Kept s := Runs.invariant_of_along Kept (fun s m t hstep hm h => h.step hstep hm)
    htimely hrun (kept_new filterCount injectorCount)
  exact ⟨hkept.heeded, hkept.resetKept⟩

/-- The setup of a manager without plugins up to its last test. -/
def upToLastTest : List SetupMove := List.replicate 5 (.start .connected)

/-- A disconnect before the last test ends the setup. -/
theorem stop_kept_before_last_test :
    ∃ s, Runs.run step (new 0 0) (upToLastTest.dropLast ++ [.disconnect, .start .connected]) = some s ∧
      s.pc = .stopRelaying ∧ Heeded s.writes ∧ ResetKept s.writes :=
  ⟨_, rfl, rfl, (stop_kept 0 0 (upToLastTest.dropLast ++ [.disconnect, .start .connected]) _ rfl).1
    (by decide)⟩

/-- A disconnect behind it is followed by `USBM_RELAYING`. -/
theorem not_stop_kept :
    ¬ ∀ filterCount injectorCount moves s,
      Runs.run step (new filterCount injectorCount) moves = some s →
      Heeded s.writes ∧ ResetKept s.writes := by
  intro h
  have hlost := h 0 0 (upToLastTest ++ [.disconnect, .start .connected]) _ rfl
  exact not_heeded [(.start, .setup)] ⟨rfl, .inl rfl⟩ hlost.1

end Setup

end UsbProxy
