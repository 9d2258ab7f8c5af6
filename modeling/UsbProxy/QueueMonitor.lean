import UsbProxy.Library.CriticalSections
import UsbProxy.Library.Shuffles
import UsbProxy.SafeQueue

/-!
# `SafeQueue` under its mutex

`SafeQueue` takes each operation for one step.  Here the operations are those of the class: they take the
mutex, `dequeue` waits on the condition variable until a lane has an entry, and the two enqueues notify one
thread unless they find their lane full.  Any number of threads may call them, in any order, and threads
that wait may wake up for no reason.

`monitor` has what an operation does with the mutex in one step.  `program` is the code itself, one call of a
`std::queue` after the other, each a step of its own: a lane found to have an entry must still have it when
`front` and `pop` are called.

The destructor is left out: no thread of a relay that is still up runs into it.  So is what takes no mutex:
a reader's `empty` leaves the queue as it is.
-/

namespace UsbProxy

open Monitors CriticalSections Shuffles

inductive QueueCall (T : Type*)
  | enqueue (t : T)
  | enqueuePriority (t : T)
  | dequeue
  deriving DecidableEq, Repr

namespace SafeQueue

variable {T : Type*}

/-- The bodies of the operations.  An enqueue gives nothing; one that finds the lane full returns before
`c.notify_one`. -/
def monitor : Monitor (SafeQueue T) (QueueCall T) (Option T) where
  body
    | .enqueue t, s => some (none, s.enqueue t)
    | .enqueuePriority t, s => some (none, s.enqueuePriority t)
    | .dequeue, s => s.dequeue.map fun (t, s) => (some t, s)
  notifies
    | .enqueue _, s => !(!s.q.isEmpty && decide (QUEUE_MAX ≤ s.q.length))
    | .enqueuePriority _, s => !(!s.qPriority.isEmpty && decide (QUEUE_MAX ≤ s.qPriority.length))
    | .dequeue, _ => false

variable {s u : SafeQueue T} {t : T}

theorem size_eq_zero_iff : s.size = 0 ↔ s.empty = true := by
  unfold size empty
  rw [Bool.and_eq_true, List.isEmpty_iff, List.isEmpty_iff, Nat.add_eq_zero_iff,
    List.length_eq_zero_iff, List.length_eq_zero_iff]

theorem size_dequeue (h : s.dequeue = some (t, u)) : u.size + 1 = s.size := by
  rcases dequeue_cases h with ⟨rest, hp, rfl⟩ | ⟨rest, -, hq, rfl⟩
  · simp only [size, hp, List.length_cons]
    omega
  · simp only [size, hq, List.length_cons]
    omega

theorem length_offer (lane : List T) (t : T) : (Lane.offer QUEUE_MAX lane t).length =
    lane.length + if !(!lane.isEmpty && decide (QUEUE_MAX ≤ lane.length)) then 1 else 0 := by
  rw [full_guard]
  by_cases h : QUEUE_MAX ≤ lane.length
  · rw [Lane.offer_of_le h, if_neg (by simpa using h)]
    rfl
  · rw [Lane.offer_of_lt (Nat.not_le.1 h), if_pos (by simpa using h), List.length_append]
    rfl

/-- The entries of both lanes are a stock that `dequeue` takes from. -/
theorem stocked_monitor : Stocked (monitor (T := T)) size (· = .dequeue) where
  wait := by
    intro op x h
    cases op with
    | enqueue t => cases h
    | enqueuePriority t => cases h
    | dequeue => exact ⟨rfl, size_eq_zero_iff.2 (dequeue_eq_none_iff.1 (Option.map_eq_none_iff.1 h))⟩
  take := by
    rintro op x res y rfl h
    obtain ⟨⟨t, u⟩, hd, heq⟩ := Option.map_eq_some_iff.1 h
    cases heq
    exact (size_dequeue hd).le
  add := by
    intro op x res y hop h
    cases op with
    | enqueue t =>
      cases h
      have hlength := length_offer x.q t
      show (x.enqueue t).size ≤ x.size + if !(!x.q.isEmpty && _) then 1 else 0
      rw [enqueue_eq]
      simp only [size]
      omega
    | enqueuePriority t =>
      cases h
      have hlength := length_offer x.qPriority t
      show (x.enqueuePriority t).size ≤ x.size + if !(!x.qPriority.isEmpty && _) then 1 else 0
      rw [enqueuePriority_eq]
      simp only [size]
      omega
    | dequeue => exact absurd rfl hop

section Threads

variable {ι : Type*} [DecidableEq ι] [Fintype ι]

/-- **No wake-up is lost.**  From wherever a run has come to, the threads come to rest by themselves after
at most five steps for each of them, all steps counted together; and then no thread waits in `dequeue` while a
lane has an entry, and no other is left in an operation. -/
theorem queue_at_rest (moves own : List (Move ι (QueueCall T)))
    (s u : State ι (SafeQueue T) (QueueCall T) (Option T))
    (hrun : Runs.run (step monitor) (start new) moves = some s)
    (hown : ∀ m ∈ own, m.IsOwn = true) (hgo : Runs.run (step monitor) s own = some u) :
    own.length ≤ 5 * Fintype.card ι ∧ (Rests monitor u →
      ∀ t, u.pc t = .idle ∨ u.pc t = .waiting .dequeue ∧ u.object.empty = true) := by
  obtain ⟨hlength, hrest⟩ := at_rest stocked_monitor new hrun hown hgo
  refine ⟨hlength, fun h t => ?_⟩
  rcases hrest h t with hidle | ⟨op, rfl, hwaiting, hstock⟩
  · exact .inl hidle
  · exact .inr ⟨hwaiting, size_eq_zero_iff.1 hstock⟩

/-- A thread waits in `dequeue` when another puts an entry in. -/
def waitThenEnqueue : List (Move Bool (QueueCall ℕ)) :=
  [.call false .dequeue, .enter false, .run false none, .call true (.enqueue 7), .enter true,
    .run true (some false)]

/-- The first thread takes the entry. -/
def takeEntry : List (Move Bool (QueueCall ℕ)) :=
  [.leave true, .enter false, .run false none, .leave false]

theorem queue_at_rest_waitThenEnqueue :
    ∃ s u, Runs.run (step monitor) (start new) waitThenEnqueue = some s ∧
      Runs.run (step monitor) s takeEntry = some u ∧
      ∀ t, u.pc t = .idle ∨ u.pc t = .waiting .dequeue ∧ u.object.empty = true := by
  refine ⟨_, _, rfl, rfl, (queue_at_rest waitThenEnqueue takeEntry _ _ rfl (by decide) rfl).2 ?_⟩
  intro m hm
  cases m with
  | call t op => cases hm
  | spurious t => cases hm
  | enter t => cases t <;> rfl
  | run t woken => cases t <;> rfl
  | leave t => cases t <;> rfl

end Threads

/-! ## What the threads are given -/

/-- What an operation offers to the lane of relayed entries. -/
def offered? : QueueCall T × Option T → Option T
  | (.enqueue t, _) => some t
  | _ => none

def offeredPriority? : QueueCall T × Option T → Option T
  | (.enqueuePriority t, _) => some t
  | _ => none

/-- What a `dequeue` gave. -/
def given? : QueueCall T × Option T → Option T
  | (.dequeue, given) => given
  | _ => none

/-- The entries given are those of both lanes, merged; each lane gives some of what it was offered, in order
and none twice, and still holds the rest. -/
def Serves (s : SafeQueue T) (log : List (QueueCall T × Option T)) : Prop :=
  ∃ taken takenPriority, Shuffle taken takenPriority (log.filterMap given?) ∧
    Lane.InOrder (log.filterMap offered?) taken s.q ∧
    Lane.InOrder (log.filterMap offeredPriority?) takenPriority s.qPriority

theorem serves_new : Serves (new : SafeQueue T) [] :=
  ⟨[], [], .nil, List.Sublist.refl [], List.Sublist.refl []⟩

section Serial

variable [DecidableEq T]

theorem Serves.step {log : List (QueueCall T × Option T)} {e : QueueCall T × Option T}
    (h : monitor.serial s e = some u) (hs : s.Serves log) : u.Serves (log ++ [e]) := by
  obtain ⟨taken, takenPriority, hmerged, hlane, hpriority⟩ := hs
  obtain ⟨op, given⟩ := e
  obtain ⟨⟨given', v⟩, hbody, hgiven⟩ := Option.bind_eq_some_iff.1 h
  dsimp only at hbody hgiven
  split_ifs at hgiven with heq
  subst heq
  obtain rfl := Option.some.inj hgiven
  unfold Serves
  simp only [List.filterMap_append]
  cases op with
  | enqueue t =>
    cases hbody
    rw [enqueue_eq]
    refine ⟨taken, takenPriority, ?_, hlane.offer_item t, ?_⟩
    · exact (List.append_nil (log.filterMap given?)).symm ▸ hmerged
    · exact (List.append_nil (log.filterMap offeredPriority?)).symm ▸ hpriority
  | enqueuePriority t =>
    cases hbody
    rw [enqueuePriority_eq]
    refine ⟨taken, takenPriority, ?_, ?_, hpriority.offer_item t⟩
    · exact (List.append_nil (log.filterMap given?)).symm ▸ hmerged
    · exact (List.append_nil (log.filterMap offered?)).symm ▸ hlane
  | dequeue =>
    obtain ⟨⟨t, w⟩, hd, hpair⟩ := Option.map_eq_some_iff.1 hbody
    cases hpair
    have hoffered : log.filterMap offered? ++ [(QueueCall.dequeue, some t)].filterMap offered? =
        log.filterMap offered? := List.append_nil _
    have hofferedPriority : log.filterMap offeredPriority? ++
        [(QueueCall.dequeue, some t)].filterMap offeredPriority? =
        log.filterMap offeredPriority? := List.append_nil _
    rw [hoffered, hofferedPriority]
    rcases dequeue_cases hd with ⟨rest, hp, rfl⟩ | ⟨rest, hp, hq, rfl⟩
    · rw [hp] at hpriority
      exact ⟨taken, _, hmerged.right t, hlane, hpriority.take_item⟩
    · rw [hq] at hlane
      exact ⟨_, takenPriority, hmerged.left t, hlane.take_item, hpriority⟩

theorem serves_of_run {log : List (QueueCall T × Option T)}
    (hrun : Runs.run monitor.serial new log = some s) : s.Serves log := by
  have hserves : s.Serves ([] ++ log.flatMap fun e => [e]) :=
    Runs.invariant_of_history Serves (fun _ _ _ _ h _ hs => hs.step h) (Runs.along_true _ log) hrun
      serves_new
  rwa [List.nil_append, List.flatMap_singleton'] at hserves

end Serial

/-! ## The code of the operations -/

inductive QueueLane
  | q
  | qPriority
  deriving DecidableEq, Repr

/-- The enqueue that puts into a lane. -/
def QueueLane.enqueue : QueueLane → T → QueueCall T
  | .q, t => .enqueue t
  | .qPriority, t => .enqueuePriority t

def lane (s : SafeQueue T) : QueueLane → List T
  | .q => s.q
  | .qPriority => s.qPriority

def setLane (s : SafeQueue T) : QueueLane → List T → SafeQueue T
  | .q, q => { s with q }
  | .qPriority, qPriority => { s with qPriority }

/-- What a thread calls next: `empty`, `size` and `push` of a lane and `c.notify_one` for an enqueue, both `empty`
of the loop's condition, `empty` of the branch, `std::swap` with `front`, and `pop` for a `dequeue`. -/
inductive QueueLoc (T : Type*)
  | testEmpty (lane : QueueLane) (t : T)
  | testSize (lane : QueueLane) (t : T)
  | push (lane : QueueLane) (t : T)
  | notify
  | loopQ
  | loopPriority
  | testPriority
  | front (lane : QueueLane)
  | pop (lane : QueueLane) (val : T)
  | ret (val : T)
  deriving DecidableEq, Repr

/-- One call.  `val₀` is what `T val` holds at first, which `std::swap` puts into the lane; `front` and `pop` of an
empty `std::queue` are undefined. -/
def access (val₀ : T) : QueueLoc T → SafeQueue T → Access (SafeQueue T) (Option T) (QueueLoc T)
  | .testEmpty lane t, s => .goOn (if !(s.lane lane).isEmpty then .testSize lane t else .push lane t) s
  | .testSize lane t, s =>
    if QUEUE_MAX ≤ (s.lane lane).length then .ret none false else .goOn (.push lane t) s
  | .push lane t, s => .goOn .notify (s.setLane lane (s.lane lane ++ [t]))
  | .notify, _ => .ret none true
  | .loopQ, s => .goOn (if s.q.isEmpty then .loopPriority else .testPriority) s
  | .loopPriority, s => if s.qPriority.isEmpty then .wait else .goOn .testPriority s
  | .testPriority, s => .goOn (.front (if !s.qPriority.isEmpty then .qPriority else .q)) s
  | .front lane, s =>
    match s.lane lane with
    | [] => .fault
    | t :: rest => .goOn (.pop lane t) (s.setLane lane (val₀ :: rest))
  | .pop lane val, s =>
    match s.lane lane with
    | [] => .fault
    | _ :: rest => .goOn (.ret val) (s.setLane lane rest)
  | .ret val, _ => .ret (some val) false

/-- The code of the class. -/
def program (val₀ : T) : Program (SafeQueue T) (QueueCall T) (Option T) (QueueLoc T) where
  start
    | .enqueue t => .testEmpty .q t
    | .enqueuePriority t => .testEmpty .qPriority t
    | .dequeue => .loopQ
  access := access val₀

/-- What holds at `l` of an operation that began on `x` and has made `y` of it. -/
def At (val₀ : T) (op : QueueCall T) (x y : SafeQueue T) : QueueLoc T → Prop
  | .testEmpty lane t => op = lane.enqueue t ∧ y = x
  | .testSize lane t => op = lane.enqueue t ∧ y = x ∧ x.lane lane ≠ []
  | .push lane t => op = lane.enqueue t ∧ y = x ∧ (x.lane lane).length < QUEUE_MAX
  | .notify => ∃ lane t, op = lane.enqueue t ∧ (x.lane lane).length < QUEUE_MAX ∧
      y = x.setLane lane (x.lane lane ++ [t])
  | .loopQ => op = .dequeue ∧ y = x
  | .loopPriority => op = .dequeue ∧ y = x ∧ x.q = []
  | .testPriority => op = .dequeue ∧ y = x ∧ x.empty = false
  | .front lane => op = .dequeue ∧ y = x ∧
      ∃ t rest, x.lane lane = t :: rest ∧ x.dequeue = some (t, x.setLane lane rest)
  | .pop lane val => op = .dequeue ∧
      ∃ rest, y = x.setLane lane (val₀ :: rest) ∧ x.dequeue = some (val, x.setLane lane rest)
  | .ret val => op = .dequeue ∧ x.dequeue = some (val, y)

section Code

variable {val₀ : T} {op : QueueCall T} {x y z : SafeQueue T} {l l' : QueueLoc T} {lane : QueueLane}

/-- Both enqueues offer their entry to their lane. -/
theorem body_enqueue (lane : QueueLane) (t : T) (x : SafeQueue T) : monitor.body (lane.enqueue t) x =
    some (none, x.setLane lane (Lane.offer QUEUE_MAX (x.lane lane) t)) := by
  cases lane with
  | q => exact congrArg (fun x => some (none, x)) (enqueue_eq x t)
  | qPriority => exact congrArg (fun x => some (none, x)) (enqueuePriority_eq x t)

theorem notifies_enqueue (lane : QueueLane) (t : T) (x : SafeQueue T) :
    monitor.notifies (lane.enqueue t) x = !decide (QUEUE_MAX ≤ (x.lane lane).length) := by
  cases lane with
  | q => exact congrArg not (full_guard x.q)
  | qPriority => exact congrArg not (full_guard x.qPriority)

theorem setLane_lane (x : SafeQueue T) (lane : QueueLane) : x.setLane lane (x.lane lane) = x := by
  cases lane <;> rfl

/-- An enqueue that finds room puts its entry in and notifies. -/
theorem body_enqueue_of_lt (h : (x.lane lane).length < QUEUE_MAX) :
    monitor.body (lane.enqueue t) x = some (none, x.setLane lane (x.lane lane ++ [t])) ∧
      monitor.notifies (lane.enqueue t) x = true := by
  rw [body_enqueue, notifies_enqueue, Lane.offer_of_lt h, decide_eq_false (Nat.not_le.2 h)]
  exact ⟨rfl, rfl⟩

/-- One that does not leaves the queue as it is, and notifies no thread. -/
theorem body_enqueue_of_le (h : QUEUE_MAX ≤ (x.lane lane).length) :
    monitor.body (lane.enqueue t) x = some (none, x) ∧
      monitor.notifies (lane.enqueue t) x = false := by
  rw [body_enqueue, notifies_enqueue, Lane.offer_of_le h, setLane_lane, decide_eq_true h]
  exact ⟨rfl, rfl⟩

/-- The branch of `dequeue` is on the lane that has an entry. -/
theorem exists_front (h : x.empty = false) :
    ∃ t rest, x.lane (if !x.qPriority.isEmpty then .qPriority else .q) = t :: rest ∧
      x.dequeue = some (t, x.setLane (if !x.qPriority.isEmpty then .qPriority else .q) rest) := by
  obtain ⟨q, qPriority⟩ := x
  cases qPriority with
  | cons t rest => exact ⟨t, rest, rfl, rfl⟩
  | nil =>
    cases q with
    | cons t rest => exact ⟨t, rest, rfl, rfl⟩
    | nil => cases h

theorem at_start (op : QueueCall T) (x : SafeQueue T) : At val₀ op x x ((program val₀).start op) := by
  cases op <;> exact ⟨rfl, rfl⟩

/-- One call takes what holds before it to what holds behind it. -/
theorem At.goOn (h : At val₀ op x y l) (hgo : access val₀ l y = .goOn l' z) : At val₀ op x z l' := by
  cases l with
  | testEmpty lane t =>
    obtain ⟨rfl, rfl⟩ := h
    cases hgo
    split_ifs with hempty
    · exact ⟨rfl, rfl, by simpa using hempty⟩
    · have hnil : y.lane lane = [] := by simpa using hempty
      exact ⟨rfl, rfl, hnil ▸ Nat.zero_lt_succ 9999⟩
  | testSize lane t =>
    obtain ⟨rfl, rfl, -⟩ := h
    simp only [access] at hgo
    split_ifs at hgo with hsize
    cases hgo
    exact ⟨rfl, rfl, Nat.not_le.1 hsize⟩
  | push lane t =>
    obtain ⟨rfl, rfl, hroom⟩ := h
    cases hgo
    exact ⟨lane, t, rfl, hroom, rfl⟩
  | notify => cases hgo
  | loopQ =>
    obtain ⟨rfl, rfl⟩ := h
    cases hgo
    split_ifs with hempty
    · exact ⟨rfl, rfl, List.isEmpty_iff.1 hempty⟩
    · exact ⟨rfl, rfl, by simp [SafeQueue.empty, hempty]⟩
  | loopPriority =>
    obtain ⟨rfl, rfl, -⟩ := h
    simp only [access] at hgo
    split_ifs at hgo with hempty
    cases hgo
    exact ⟨rfl, rfl, by simp [SafeQueue.empty, hempty]⟩
  | testPriority =>
    obtain ⟨rfl, rfl, hsome⟩ := h
    cases hgo
    exact ⟨rfl, rfl, exists_front hsome⟩
  | front lane =>
    obtain ⟨rfl, rfl, t, rest, hlane, hdequeue⟩ := h
    simp only [access, hlane] at hgo
    cases hgo
    exact ⟨rfl, rest, rfl, hdequeue⟩
  | pop lane val =>
    obtain ⟨rfl, rest, rfl, hdequeue⟩ := h
    cases lane <;> cases hgo <;> exact ⟨rfl, hdequeue⟩
  | ret val => cases hgo

theorem at_of_reached (h : Reached (program val₀) op x l y) : At val₀ op x y l := by
  induction h with
  | start => exact at_start op x
  | goOn _ hgo ih => exact ih.goOn hgo

theorem access_eq_wait (h : access val₀ l y = .wait) : l = .loopPriority ∧ y.qPriority = [] := by
  cases l with
  | loopPriority =>
    simp only [access] at h
    split_ifs at h with hempty
    exact ⟨rfl, List.isEmpty_iff.1 hempty⟩
  | testSize lane t =>
    simp only [access] at h
    split_ifs at h
  | front lane | pop lane val =>
    simp only [access] at h
    split at h <;> cases h
  | _ => cases h

/-- An enqueue comes back from a full lane or behind its notification, a `dequeue` with what it took. -/
theorem access_eq_ret {res : Option T} {notify : Bool} (h : access val₀ l y = .ret res notify) :
    (∃ lane t, l = .testSize lane t ∧ QUEUE_MAX ≤ (y.lane lane).length ∧ res = none ∧ notify = false) ∨
      (l = .notify ∧ res = none ∧ notify = true) ∨ ∃ val, l = .ret val ∧ res = some val ∧ notify = false := by
  cases l with
  | testSize lane t =>
    simp only [access] at h
    split_ifs at h with hsize
    cases h
    exact .inl ⟨lane, t, rfl, hsize, rfl, rfl⟩
  | notify =>
    cases h
    exact .inr (.inl ⟨rfl, rfl, rfl⟩)
  | ret val =>
    cases h
    exact .inr (.inr ⟨val, rfl, rfl, rfl⟩)
  | loopPriority =>
    simp only [access] at h
    split_ifs at h
  | front lane | pop lane val =>
    simp only [access] at h
    split at h <;> cases h
  | _ => cases h

theorem access_eq_fault (h : access val₀ l y = .fault) :
    ∃ lane, y.lane lane = [] ∧ (l = .front lane ∨ ∃ val, l = .pop lane val) := by
  cases l with
  | front lane =>
    simp only [access] at h
    split at h
    · exact ⟨lane, ‹_›, .inl rfl⟩
    · cases h
  | pop lane val =>
    simp only [access] at h
    split at h
    · exact ⟨lane, ‹_›, .inr ⟨val, rfl⟩⟩
    · cases h
  | testSize lane t =>
    simp only [access] at h
    split_ifs at h
  | loopPriority =>
    simp only [access] at h
    split_ifs at h
  | _ => cases h

/-- Left alone, the code of an operation does what the operation is said to do. -/
theorem implements_program (val₀ : T) : Implements (program val₀) monitor where
  wait := by
    intro op x l y hreached hwait
    have h := at_of_reached hreached
    obtain ⟨rfl, hpriority⟩ := access_eq_wait hwait
    obtain ⟨rfl, rfl, hq⟩ := h
    exact ⟨Option.map_eq_none_iff.2 (dequeue_eq_none_iff.2 (by simp [SafeQueue.empty, hq, hpriority])), rfl⟩
  ret := by
    intro op x l y res notify hreached hret
    have h := at_of_reached hreached
    rcases access_eq_ret hret with ⟨lane, t, rfl, hsize, rfl, rfl⟩ | ⟨rfl, rfl, rfl⟩ | ⟨val, rfl, rfl, rfl⟩
    · obtain ⟨rfl, rfl, -⟩ := h
      exact body_enqueue_of_le hsize
    · obtain ⟨lane, t, rfl, hroom, rfl⟩ := h
      exact body_enqueue_of_lt hroom
    · obtain ⟨rfl, hdequeue⟩ := h
      refine ⟨?_, rfl⟩
      show (x.dequeue.map fun (t, s) => (some t, s)) = _
      rw [hdequeue]
      rfl
  safe := by
    intro op x l y hreached hfault
    have h := at_of_reached hreached
    obtain ⟨lane, hempty, rfl | ⟨val, rfl⟩⟩ := access_eq_fault hfault
    · obtain ⟨-, rfl, t, rest, hlane, -⟩ := h
      rw [hlane] at hempty
      cases hempty
    · obtain ⟨-, rest, rfl, -⟩ := h
      cases lane <;> cases hempty

end Code

section Accesses

variable {ι : Type*}

/-- The operations done so far, in the order in which they were done. -/
def done (s : State ι (SafeQueue T) (QueueCall T) (Option T)) : List (QueueCall T × Option T) :=
  s.trace.filterMap Event.effect?

variable [DecidableEq T] [DecidableEq ι] [Fintype ι]

/-- **The queue is atomic.**  However the threads are scheduled between any two calls of the code, and woken:
one thread at most is between taking the mutex and giving it back, and none calls `front` or `pop` of an empty
lane; between the call of an operation and its return there is one point at which it is done, and done
in that order the operations are those of a queue used by one thread, which is the queue there is whenever
the mutex is free; so what the threads were given are the entries of both lanes merged, those of each lane in the
order in which they were put in, none twice. -/
theorem queue_linearizes (val₀ : T) (moves : List (Move ι (QueueCall T)))
    (s : CriticalSections.State ι (SafeQueue T) (QueueCall T) (Option T) (QueueLoc T))
    (hrun : Runs.run (CriticalSections.step (program val₀)) (CriticalSections.start new) moves = some s) :
    ∃ x, Sound (program val₀) x s ∧
      Runs.run monitor.serial new (done s.toState) = some x ∧ x.Serves (done s.toState) ∧
      ∀ t, Runs.run Monitors.Phase.advance .out (s.trace.filter fun e => e.thread = t) =
        some (s.pc t).phase := by
  obtain ⟨x, hsound, hserial, hthreads⟩ := CriticalSections.linearized (implements_program val₀) hrun
  exact ⟨x, hsound, hserial, serves_of_run hserial, hthreads⟩

/-- A thread waits in `dequeue` when another puts an entry in, and one ahead of it while the first is on its
way to the mutex. -/
def overtaken : List (Move Bool (QueueCall ℕ)) :=
  [.call false .dequeue, .enter false, .run false none, .call true (.enqueue 7), .run false none,
    .enter true, .run true none, .run true none, .run true (some false), .leave true,
    .call true (.enqueuePriority 8), .enter true, .run true none, .run true none, .run true none,
    .leave true, .enter false, .run false none, .run false none, .run false none, .run false none,
    .run false none, .leave false, .call false .dequeue, .enter false, .run false none,
    .run false none, .run false none, .run false none, .run false none]

theorem queue_linearizes_overtaken :
    ∃ s, Runs.run (CriticalSections.step (program 0)) (CriticalSections.start new) overtaken = some s ∧
      (done s.toState).filterMap given? = [8, 7] ∧
      ∃ x, Sound (program 0) x s ∧
        Runs.run monitor.serial new (done s.toState) = some x ∧ x.Serves (done s.toState) ∧
        ∀ t, Runs.run Monitors.Phase.advance .out (s.trace.filter fun e => e.thread = t) =
          some (s.pc t).phase :=
  ⟨_, rfl, rfl, queue_linearizes 0 overtaken _ rfl⟩

end Accesses

end SafeQueue

end UsbProxy
