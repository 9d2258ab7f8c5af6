import UsbProxy.Library.Lanes

/-!
# `SafeQueue`

The two-lane queue between a reader and a writer: `q` for relayed packets, `qPriority` for injected
ones.  Every operation runs under the queue's mutex, so each is one step here.  `dequeue` waits on
the condition variable while both lanes are empty: there it has no result.
-/

namespace UsbProxy

def QUEUE_MAX : ℕ := 10000

structure SafeQueue (T : Type*) where
  q : List T
  qPriority : List T
  deriving DecidableEq, Repr

namespace SafeQueue

variable {T : Type*}

def new : SafeQueue T := { q := [], qPriority := [] }

/-- `enqueue`: silently drops the item when the lane is at its capacity. -/
def enqueue (s : SafeQueue T) (t : T) : SafeQueue T :=
  if !s.q.isEmpty && decide (QUEUE_MAX ≤ s.q.length) then s else { s with q := s.q ++ [t] }

/-- `enqueuePriority`: the same on the other lane. -/
def enqueuePriority (s : SafeQueue T) (t : T) : SafeQueue T :=
  if !s.qPriority.isEmpty && decide (QUEUE_MAX ≤ s.qPriority.length) then s
  else { s with qPriority := s.qPriority ++ [t] }

/-- `dequeue`: the priority lane first. -/
def dequeue (s : SafeQueue T) : Option (T × SafeQueue T) :=
  match s.qPriority, s.q with
  | t :: rest, _ => some (t, { s with qPriority := rest })
  | [], t :: rest => some (t, { s with q := rest })
  | [], [] => none

def empty (s : SafeQueue T) : Bool := s.q.isEmpty && s.qPriority.isEmpty

def size (s : SafeQueue T) : ℕ := s.q.length + s.qPriority.length

variable {s s' : SafeQueue T} {t : T}

/-- The emptiness test before the size test never matters: the capacity is positive. -/
theorem full_guard (l : List T) :
    (!l.isEmpty && decide (QUEUE_MAX ≤ l.length)) = decide (QUEUE_MAX ≤ l.length) := by
  cases l with
  | nil => rfl
  | cons a l => rfl

/-- Both enqueues are bounded lanes of capacity `QUEUE_MAX`. -/
theorem enqueue_eq (s : SafeQueue T) (t : T) :
    s.enqueue t = { s with q := Lane.offer QUEUE_MAX s.q t } := by
  unfold enqueue
  rw [full_guard]
  by_cases h : QUEUE_MAX ≤ s.q.length
  · rw [Lane.offer_of_le h, if_pos (by simpa using h)]
  · rw [Lane.offer_of_lt (by omega), if_neg (by simpa using h)]

theorem enqueuePriority_eq (s : SafeQueue T) (t : T) :
    s.enqueuePriority t = { s with qPriority := Lane.offer QUEUE_MAX s.qPriority t } := by
  unfold enqueuePriority
  rw [full_guard]
  by_cases h : QUEUE_MAX ≤ s.qPriority.length
  · rw [Lane.offer_of_le h, if_pos (by simpa using h)]
  · rw [Lane.offer_of_lt (by omega), if_neg (by simpa using h)]

/-- All a dequeue can do: the head of the priority lane, or of the other lane when that is empty. -/
theorem dequeue_cases (h : s.dequeue = some (t, s')) :
    (∃ rest, s.qPriority = t :: rest ∧ s' = { s with qPriority := rest }) ∨
      (∃ rest, s.qPriority = [] ∧ s.q = t :: rest ∧ s' = { s with q := rest }) := by
  cases s with
  | mk q qPriority =>
    cases qPriority with
    | cons a l =>
      simp only [dequeue, Option.some.injEq, Prod.mk.injEq] at h
      obtain ⟨rfl, rfl⟩ := h
      exact .inl ⟨l, rfl, rfl⟩
    | nil =>
      cases q with
      | nil => simp [dequeue] at h
      | cons a l =>
        simp only [dequeue, Option.some.injEq, Prod.mk.injEq] at h
        obtain ⟨rfl, rfl⟩ := h
        exact .inr ⟨l, rfl, rfl, rfl⟩

section All

/-- Every entry of both lanes has the property. -/
def All (P : T → Prop) (s : SafeQueue T) : Prop := ∀ t ∈ s.qPriority ++ s.q, P t

variable {P : T → Prop}

theorem All.enqueue (h : s.All P) (ht : P t) : (s.enqueue t).All P := by
  intro u hu
  rw [enqueue_eq] at hu
  rcases List.mem_append.1 hu with hu | hu
  · exact h u (List.mem_append_left _ hu)
  · rcases Lane.mem_offer hu with hu | rfl
    · exact h u (List.mem_append_right _ hu)
    · exact ht

theorem All.enqueuePriority (h : s.All P) (ht : P t) : (s.enqueuePriority t).All P := by
  intro u hu
  rw [enqueuePriority_eq] at hu
  rcases List.mem_append.1 hu with hu | hu
  · rcases Lane.mem_offer hu with hu | rfl
    · exact h u (List.mem_append_left _ hu)
    · exact ht
  · exact h u (List.mem_append_right _ hu)

theorem All.dequeue (h : s.All P) (hd : s.dequeue = some (t, s')) : P t ∧ s'.All P := by
  rcases dequeue_cases hd with ⟨rest, hp, rfl⟩ | ⟨rest, hp, hq, rfl⟩
  · refine ⟨h t (by simp [hp]), fun u hu => h u ?_⟩
    rw [hp]
    exact List.mem_cons_of_mem t hu
  · refine ⟨h t (by simp [hq]), fun u hu => h u ?_⟩
    rw [hp] at hu ⊢
    rw [hq]
    exact List.mem_cons_of_mem t hu

end All

section Weight

variable {M : Type*} [AddCommMonoid M] (f : T → M)

/-- What the entries of both lanes weigh together. -/
def weight (s : SafeQueue T) : M := Lane.weight f s.qPriority + Lane.weight f s.q

variable {f}

theorem weight_enqueue (s : SafeQueue T) (t : T) :
    s.q.length < QUEUE_MAX ∧ (s.enqueue t).weight f = s.weight f + f t ∨
      QUEUE_MAX ≤ s.q.length ∧ (s.enqueue t).weight f = s.weight f := by
  rw [enqueue_eq]
  unfold weight
  rcases Lane.weight_offer f QUEUE_MAX s.q t with ⟨h, hw⟩ | ⟨h, hw⟩
  · exact .inl ⟨h, by rw [hw, add_assoc]⟩
  · exact .inr ⟨h, by rw [hw]⟩

theorem weight_enqueuePriority (s : SafeQueue T) (t : T) :
    s.qPriority.length < QUEUE_MAX ∧ (s.enqueuePriority t).weight f = s.weight f + f t ∨
      QUEUE_MAX ≤ s.qPriority.length ∧ (s.enqueuePriority t).weight f = s.weight f := by
  rw [enqueuePriority_eq]
  unfold weight
  rcases Lane.weight_offer f QUEUE_MAX s.qPriority t with ⟨h, hw⟩ | ⟨h, hw⟩
  · exact .inl ⟨h, by rw [hw, add_right_comm]⟩
  · exact .inr ⟨h, by rw [hw]⟩

theorem weight_dequeue (h : s.dequeue = some (t, s')) : s.weight f = f t + s'.weight f := by
  unfold weight
  rcases dequeue_cases h with ⟨rest, hp, rfl⟩ | ⟨rest, hp, hq, rfl⟩
  · rw [hp, Lane.weight_cons, add_assoc]
  · rw [hp, hq, Lane.weight_cons, add_left_comm]

end Weight

/-- `dequeue` waits exactly on two empty lanes. -/
theorem dequeue_eq_none_iff : s.dequeue = none ↔ s.empty = true := by
  cases s with
  | mk q qPriority => cases qPriority <;> cases q <;> simp [dequeue, empty]

end SafeQueue

end UsbProxy
