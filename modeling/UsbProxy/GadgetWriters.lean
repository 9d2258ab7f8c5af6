import UsbProxy.GadgetSend
import UsbProxy.Library.Runs

/-!
# The IN endpoints of the gadget proxy and their writers

Nothing in `HostProxy_GadgetFS` says that the next `send_data` comes after the last write: that is the
`writing` flag of the endpoint's relay writer.  The system here is the proxy with its writers and the
kernel that completes writes in between, up to the time `disconnectEps` is called on another thread: that
takes an endpoint away under whatever its writer is doing.  A writer closes its endpoint itself when a
write ends in a shutdown.
-/

namespace UsbProxy

namespace GadgetSend

open Blocks
open GadgetReceive (ESHUTDOWN)

/-- The proxy and the relay writers of its IN endpoints, by endpoint number; `handed` are the packets a
writer has handed over. -/
structure Writers where
  host : Host
  writing : Byte → Bool
  handed : Byte → List (List Byte)

inductive Move
  | send (endpoint : Byte) (dataptr : List Byte) (rc : Submission)
  | wait (endpoint : Byte) (c : Wait)
  | complete (n : Byte) (r : Completion)

namespace Writers

def opened (eps : List Byte) : Writers where
  host := .opened eps
  writing _ := false
  handed _ := []

/-- A writer sends when it is not `writing` and waits when it is; it is one of an IN endpoint. -/
def step (s : Writers) : Move → Option Writers
  | .send endpoint dataptr rc =>
    let n := endpoint &&& 0x0f
    if endpoint &&& 0x80 = 0 ∨ s.writing n = true then none
    else some {
      host := s.host.sendData endpoint dataptr rc
      writing := Function.update s.writing n true
      handed := Function.update s.handed n (s.handed n ++ [dataptr]) }
  | .wait endpoint c =>
    let n := endpoint &&& 0x0f
    if endpoint &&& 0x80 = 0 ∨ s.writing n = false then none
    else
      let (host, done) := s.host.sendWaitComplete endpoint c
      some { s with host, writing := Function.update s.writing n !done }
  | .complete n r => (s.host.complete n r).map fun host => { s with host }

end Writers

/-! ## An endpoint and its writer -/

namespace Host

section Fits

variable {h t : Host} {m n : Byte} {writing : Bool} {handed : List (List Byte)}

/-- An endpoint against its writer: a write in progress is one the writer waits for, with its copy behind
the pointer; and what the kernel has written or is about to is some of what was handed over, in order. -/
structure Fits (h : Host) (n : Byte) (writing : Bool) (handed : List (List Byte)) : Prop where
  owned : ∀ buf b, h.slots n = some ⟨buf, .inProgress b⟩ → buf = some b ∧ h.active n = true ∧
    writing = true
  taken : (h.taken n).Sublist handed

/-- The copy in progress is still there, and so is what was taken. -/
theorem taken_eq (howned : ∀ buf b, h.slots n = some ⟨buf, .inProgress b⟩ → buf = some b)
    (hslots : t.slots n = h.slots n) (htransfers : t.transfers n = h.transfers n)
    (hcontents : ∀ b, h.owner n = some b → t.heap.contents b = h.heap.contents b) :
    t.taken n = h.taken n := by
  have hp : t.progress n = h.progress n := by
    unfold progress
    rw [hslots]
  unfold taken
  rw [htransfers, hp]
  cases hb : h.progress n with
  | none => rfl
  | some b =>
    obtain ⟨buf, hslot⟩ := progress_of_slot hb
    obtain rfl := howned buf b hslot
    rw [Option.bind_some, Option.bind_some, hcontents b (owner_of_slot hslot)]

theorem Fits.within (hf : Fits h m writing handed) (hw : Within n h t) (hm : m ≠ n) :
    Fits t m writing handed := by
  have htaken : t.taken m = h.taken m :=
    taken_eq (fun buf b hslot => (hf.owned buf b hslot).1) (hw.slots m hm) (hw.transfers m hm)
      (hw.contents m hm)
  refine ⟨fun buf b hslot => ?_, htaken ▸ hf.taken⟩
  rw [hw.slots m hm] at hslot
  rw [hw.active m hm]
  exact hf.owned buf b hslot

theorem fits_of_progress_none (hp : t.progress n = none) (htaken : (t.taken n).Sublist handed) :
    Fits t n writing handed :=
  ⟨fun _ b hslot => absurd rfl (progress_eq_none_iff.1 hp _ b hslot), htaken⟩

end Fits

end Host

namespace Writers

open Host

/-- The memory is in order, and every endpoint fits its writer. -/
structure Sound (s : Writers) : Prop where
  balanced : s.host.Balanced
  faults : s.host.faults = []
  fits : ∀ n, Fits s.host n (s.writing n) (s.handed n)

variable {s t : Writers} {m : Move} {n : Byte}

theorem sound_opened (eps : List Byte) : Sound (opened eps) := by
  have howner : (Host.opened eps).owner = fun _ => none := by
    funext n
    unfold Host.owner Host.opened
    dsimp only
    split_ifs <;> rfl
  have hp : ∀ n, (Host.opened eps).progress n = none := by
    intro n
    refine progress_eq_none_iff.2 fun aio b hslot hreq => ?_
    unfold Host.opened at hslot
    dsimp only at hslot
    split_ifs at hslot
    obtain rfl := Option.some.inj hslot
    cases hreq
  refine ⟨?_, rfl, fun n => fits_of_progress_none (hp n) ?_⟩
  · show Ledger _ (Host.opened eps).owner _
    rw [howner]
    exact .empty
  · show ((Host.opened eps).taken n).Sublist []
    rw [taken_of_progress_none (hp n)]
    exact List.Sublist.refl []

theorem Sound.of_within (hs : s.Sound) (hw : Within n s.host t.host)
    (hwriting : ∀ m, m ≠ n → t.writing m = s.writing m)
    (hhanded : ∀ m, m ≠ n → t.handed m = s.handed m)
    (hfits : Fits t.host n (t.writing n) (t.handed n)) : t.Sound := by
  refine ⟨hw.balanced, hw.faults.trans hs.faults, fun m => ?_⟩
  by_cases hm : m = n
  · exact hm ▸ hfits
  · rw [hwriting m hm, hhanded m hm]
    exact (hs.fits m).within hw hm

theorem Sound.idle (hs : s.Sound) (h : s.writing n = false) : s.host.progress n = none := by
  refine progress_eq_none_iff.2 fun aio b hslot hreq => ?_
  obtain ⟨buf, request⟩ := aio
  obtain rfl : request = .inProgress b := hreq
  have := ((hs.fits n).owned buf b hslot).2.2
  rw [h] at this
  cases this

/-! ## One step -/

section Step

variable {endpoint : Byte} {dataptr : List Byte} {rc : Submission} {c : Wait}

theorem ne_zero_of_in (hin : endpoint &&& 0x80 ≠ 0) : endpoint ≠ 0 := by
  rintro rfl
  exact hin rfl

theorem sendData_in (h : Host) (hin : endpoint &&& 0x80 ≠ 0) :
    h.sendData endpoint dataptr rc = h.sendNumber (endpoint &&& 0x0f) dataptr rc :=
  if_neg (not_or.2 ⟨ne_zero_of_in hin, hin⟩)

theorem sendWaitComplete_in (h : Host) (hin : endpoint &&& 0x80 ≠ 0) :
    h.sendWaitComplete endpoint c = h.waitNumber (endpoint &&& 0x0f) c := by
  unfold sendWaitComplete
  rw [if_neg (ne_zero_of_in hin), if_neg hin]

theorem step_send (h : s.step (.send endpoint dataptr rc) = some t) :
    s.writing (endpoint &&& 0x0f) = false ∧ t = {
      host := s.host.sendNumber (endpoint &&& 0x0f) dataptr rc
      writing := Function.update s.writing (endpoint &&& 0x0f) true
      handed := Function.update s.handed (endpoint &&& 0x0f)
        (s.handed (endpoint &&& 0x0f) ++ [dataptr]) } := by
  simp only [step] at h
  split_ifs at h with hguard
  rw [not_or] at hguard
  rw [sendData_in _ hguard.1] at h
  exact ⟨by simpa using hguard.2, (Option.some.inj h).symm⟩

theorem step_wait (h : s.step (.wait endpoint c) = some t) :
    s.writing (endpoint &&& 0x0f) = true ∧ t = { s with
      host := (s.host.waitNumber (endpoint &&& 0x0f) c).1
      writing := Function.update s.writing (endpoint &&& 0x0f)
        !(s.host.waitNumber (endpoint &&& 0x0f) c).2 } := by
  simp only [step] at h
  split_ifs at h with hguard
  rw [not_or] at hguard
  rw [sendWaitComplete_in _ hguard.1] at h
  exact ⟨by simpa using hguard.2, (Option.some.inj h).symm⟩

theorem step_complete {r : Completion} (h : s.step (.complete n r) = some t) :
    ∃ buf b, s.host.slots n = some ⟨buf, .inProgress b⟩ ∧
      ∃ host, s.host.complete n r = some host ∧ t = { s with host } := by
  simp only [step, Option.map_eq_some_iff] at h
  obtain ⟨host, hhost, rfl⟩ := h
  have hslot : ∃ buf b, s.host.slots n = some ⟨buf, .inProgress b⟩ := by
    unfold complete at hhost
    split at hhost
    next buf b hslot => exact ⟨buf, b, hslot⟩
    next => cases hhost
  obtain ⟨buf, b, hslot⟩ := hslot
  exact ⟨buf, b, hslot, host, hhost, rfl⟩

theorem sendNumber_spec {h : Host} (hb : h.Balanced) (hp : h.progress n = none) (dataptr : List Byte)
    (rc : Submission) :
    Within n h (h.sendNumber n dataptr rc) ∧
      ((h.sendNumber n dataptr rc).taken n = h.taken n ∧
          (h.sendNumber n dataptr rc).progress n = none ∨
        (h.sendNumber n dataptr rc).taken n = h.taken n ++ [dataptr] ∧
          (h.sendNumber n dataptr rc).active n = true ∧
          ∀ buf b, (h.sendNumber n dataptr rc).slots n = some ⟨buf, .inProgress b⟩ →
            buf = some b) := by
  cases hslot : h.slots n with
  | none =>
    rw [sendNumber_closed hslot]
    exact ⟨.refl hb, .inl ⟨rfl, hp⟩⟩
  | some aio =>
    cases rc with
    | accepted =>
      obtain ⟨hw, hslot', hactive, htaken, -⟩ := sendNumber_accepted dataptr hb hslot hp
      refine ⟨hw, .inr ⟨htaken, hactive, fun buf b hslot'' => ?_⟩⟩
      rw [hslot'] at hslot''
      cases Option.some.inj hslot''
      rfl
    | refused errno =>
      obtain ⟨hw, hpn, htaken, -, -⟩ :=
        sendNumber_refused dataptr errno hb hslot hp
      exact ⟨hw, .inl ⟨htaken, hpn⟩⟩

theorem Sound.send (hs : s.Sound) (h : s.step (.send endpoint dataptr rc) = some t) : t.Sound := by
  obtain ⟨hidle, rfl⟩ := step_send h
  generalize endpoint &&& 0x0f = n at *
  have hp := hs.idle hidle
  obtain ⟨hw, hcase⟩ := sendNumber_spec hs.balanced hp dataptr rc
  refine hs.of_within (n := n) hw (fun m hm => Function.update_of_ne hm ..)
    (fun m hm => Function.update_of_ne hm ..) ?_
  dsimp only
  rw [Function.update_self, Function.update_self]
  rcases hcase with ⟨htaken, hpn⟩ | ⟨htaken, hactive, howned⟩
  · apply fits_of_progress_none hpn
    rw [htaken]
    exact (hs.fits n).taken.trans (List.sublist_append_left _ _)
  · refine ⟨fun buf b hslot => ⟨howned buf b hslot, hactive, rfl⟩, ?_⟩
    rw [htaken]
    exact (hs.fits n).taken.append (List.Sublist.refl _)

/-- The calls of `send_wait_complete` in a run. -/
theorem Sound.waited (hs : s.Sound) (n : Byte) (c : Wait) :
    Waited n c s.host (s.host.waitNumber n c).1 (s.host.waitNumber n c).2 :=
  waitNumber_spec hs.balanced (fun buf b hslot =>
    let ⟨howned, hactive, _⟩ := (hs.fits n).owned buf b hslot; ⟨howned, hactive⟩) c

theorem Sound.wait (hs : s.Sound) (h : s.step (.wait endpoint c) = some t) : t.Sound := by
  obtain ⟨-, rfl⟩ := step_wait h
  generalize endpoint &&& 0x0f = n at *
  have hwaited := hs.waited n c
  generalize s.host.waitNumber n c = r at hwaited
  obtain ⟨host, done⟩ := r
  refine hs.of_within (n := n) hwaited.within (fun m hm => Function.update_of_ne hm ..)
    (fun _ _ => rfl) ?_
  dsimp only at hwaited ⊢
  rw [Function.update_self]
  by_cases hp : host.progress n = none
  · exact fits_of_progress_none hp (hwaited.taken.trans (hs.fits n).taken)
  · obtain ⟨rfl, rfl⟩ := hwaited.busy hp
    refine ⟨fun buf b hslot => ?_, (hs.fits n).taken⟩
    obtain ⟨howned, hactive, -⟩ := (hs.fits n).owned buf b hslot
    exact ⟨howned, hactive, rfl⟩

theorem Sound.complete {r : Completion} (hs : s.Sound) (h : s.step (.complete n r) = some t) :
    t.Sound := by
  obtain ⟨buf, b, hslot, host, hhost, rfl⟩ := step_complete h
  obtain ⟨rfl, -⟩ := (hs.fits n).owned buf b hslot
  obtain ⟨host', hhost', hw, hslot', -, -, htaken, -⟩ := complete_spec hs.balanced hslot r
  obtain rfl := Option.some.inj (hhost'.symm.trans hhost)
  refine hs.of_within (n := n) hw (fun _ _ => rfl) (fun _ _ => rfl) ?_
  apply fits_of_progress_none _ (htaken.trans (hs.fits n).taken)
  refine progress_eq_none_iff.2 fun aio c hslot'' hreq => ?_
  rw [hslot'] at hslot''
  obtain rfl := Option.some.inj hslot''
  cases hreq

theorem Sound.step (h : s.step m = some t) (hs : s.Sound) : t.Sound := by
  cases m with
  | send endpoint dataptr rc => exact hs.send h
  | wait endpoint c => exact hs.wait h
  | complete n r => exact hs.complete h

end Step

/-! ## Runs -/

theorem sound_of_run {eps : List Byte} {moves : List Move}
    (hrun : Runs.run step (opened eps) moves = some s) : s.Sound :=
  Runs.invariant Sound (fun _ _ _ h hs => hs.step h) hrun (sound_opened eps)

/-- **What the host is sent.**  In every run: no buffer is freed twice, read by the kernel after it was
freed or freed under it, no write is submitted while another is in progress on the endpoint; and the
buffers written on an endpoint, with the one being written, are packets its writer handed over, unchanged,
in order and none twice. -/
theorem sent_in_order (eps : List Byte) (moves : List Move) (s : Writers)
    (hrun : Runs.run step (opened eps) moves = some s) :
    s.host.faults = [] ∧ ∀ n, (s.host.taken n).Sublist (s.handed n) :=
  let hs := sound_of_run hrun
  ⟨hs.faults, fun n => (hs.fits n).taken⟩

/-- Two packets on one endpoint, of which the writer waits for the first before it sends the second,
while the write on another fails by a shutdown. -/
def twoPackets : List Move :=
  [.send 0x81 [1, 2] .accepted, .send 0x82 [7] .accepted, .complete 1 (.wrote 2),
    .wait 0x82 ⟨500, some (.failed ESHUTDOWN), false, false⟩, .wait 0x81 ⟨500, none, false, false⟩,
    .send 0x81 [3] .accepted, .wait 0x81 ⟨500, some (.wrote 1), false, false⟩]

theorem sent_in_order_twoPackets :
    ∃ s, Runs.run step (opened [1, 2]) twoPackets = some s ∧ s.handed 1 = [[1, 2], [3]] ∧
      s.host.slots 2 = none ∧ s.host.faults = [] ∧ (s.host.taken 1).Sublist (s.handed 1) := by
  obtain ⟨hfaults, htaken⟩ := sent_in_order [1, 2] twoPackets _ rfl
  exact ⟨_, rfl, rfl, rfl, hfaults, htaken 1⟩

/-- On endpoint `n` every write is accepted and completes without an error. -/
def Smooth (n : Byte) (_ : Writers) : Move → Prop
  | .send endpoint _ rc => endpoint &&& 0x0f = n → rc = .accepted
  | .wait endpoint c => endpoint &&& 0x0f = n → ∀ errno, c.during ≠ some (.failed errno)
  | .complete m r => m = n → ∀ errno, r ≠ .failed errno

instance (r : Completion) : Decidable (∀ errno, r ≠ .failed errno) :=
  match r with
  | .wrote _ => isTrue fun _ => Completion.noConfusion
  | .failed errno => isFalse fun h => h errno rfl

instance (c : Option Completion) : Decidable (∀ errno, c ≠ some (.failed errno)) :=
  match c with
  | none => isTrue fun _ h => nomatch h
  | some r => decidable_of_iff (∀ errno, r ≠ .failed errno) (by simp)

instance (n : Byte) (s : Writers) (m : Move) : Decidable (s.Smooth n m) :=
  match m with
  | .send .. | .wait .. | .complete .. => inferInstanceAs (Decidable (_ → _))

/-- The endpoint is open and has taken all that was handed over. -/
structure UpToDate (n : Byte) (s : Writers) : Prop where
  sound : s.Sound
  healthy : s.host.Healthy n
  taken : s.host.taken n = s.handed n

theorem UpToDate.of_within {k : Byte} (hu : UpToDate n s) (ht : t.Sound)
    (hw : Within k s.host t.host) (hn : n ≠ k) (hhanded : t.handed n = s.handed n) : UpToDate n t := by
  refine ⟨ht, ?_, ?_⟩
  · obtain ⟨aio, hslot, hne⟩ := hu.healthy
    exact ⟨aio, (hw.slots n hn).trans hslot, hne⟩
  · rw [hhanded, ← hu.taken]
    exact taken_eq (fun buf b hslot => ((hu.sound.fits n).owned buf b hslot).1) (hw.slots n hn)
      (hw.transfers n hn) (hw.contents n hn)

theorem UpToDate.step (h : s.step m = some t) (hP : s.Smooth n m) (hu : UpToDate n s) :
    UpToDate n t := by
  have ht := hu.sound.step h
  cases m with
  | send endpoint dataptr rc =>
    obtain ⟨hidle, rfl⟩ := step_send h
    have hp := hu.sound.idle hidle
    by_cases hn : endpoint &&& 0x0f = n
    · obtain rfl : rc = .accepted := hP hn
      rw [hn] at hp ht ⊢
      obtain ⟨aio, hslot, -⟩ := hu.healthy
      obtain ⟨-, hslot', -, htaken, -⟩ := sendNumber_accepted dataptr hu.sound.balanced
        hslot hp
      refine ⟨ht, ⟨_, hslot', fun errno => Request.noConfusion⟩, ?_⟩
      dsimp only
      rw [htaken, hu.taken, Function.update_self]
    · have hw := (sendNumber_spec hu.sound.balanced hp dataptr rc).1
      exact hu.of_within ht hw (Ne.symm hn) (Function.update_of_ne (Ne.symm hn) ..)
  | wait endpoint c =>
    obtain ⟨-, rfl⟩ := step_wait h
    have hwaited := hu.sound.waited (endpoint &&& 0x0f) c
    by_cases hn : endpoint &&& 0x0f = n
    · have hfine := hP hn
      rw [hn] at hwaited ht ⊢
      exact ⟨ht, hwaited.healthy hfine hu.healthy, (hwaited.exact hfine).trans hu.taken⟩
    · exact hu.of_within ht hwaited.within (Ne.symm hn) rfl
  | complete k r =>
    obtain ⟨buf, b, hslot, host, hhost, rfl⟩ := step_complete h
    obtain ⟨rfl, -⟩ := (hu.sound.fits k).owned buf b hslot
    obtain ⟨host', hhost', hw, hslot', -, -, -, hexact⟩ := complete_spec hu.sound.balanced hslot r
    obtain rfl := Option.some.inj (hhost'.symm.trans hhost)
    by_cases hn : k = n
    · subst hn
      cases r with
      | failed errno => exact absurd rfl (hP rfl errno)
      | wrote rc =>
        refine ⟨ht, ⟨_, hslot', fun errno herr => ?_⟩, (hexact ⟨rc, rfl⟩).trans hu.taken⟩
        cases herr
    · exact hu.of_within ht hw (Ne.symm hn) rfl

theorem upToDate_opened {eps : List Byte} (hn : n ∈ eps) : UpToDate n (opened eps) := by
  have hslot : (Host.opened eps).slots n = some ⟨none, .idle⟩ := if_pos hn
  refine ⟨sound_opened eps, ⟨_, hslot, fun errno => Request.noConfusion⟩, ?_⟩
  apply taken_of_progress_none
  unfold progress
  rw [show (opened eps).host.slots n = _ from hslot]

/-- **Every packet arrives.**  On an endpoint that was opened, in every run in which its writes are
accepted and none ends with an error, whatever happens on the others: the buffers of the writes that are
complete or in progress are exactly what was handed over, and between two packets all are complete.  The
count a write completes with is not looked at, as in the source. -/
theorem sent_all (eps : List Byte) (n : Byte) (moves : List Move) (s : Writers) (hn : n ∈ eps)
    (hrun : Runs.run step (opened eps) moves = some s)
    (hP : Runs.Along step (Smooth n) (opened eps) moves) :
    s.host.taken n = s.handed n ∧
      (s.writing n = false → (s.host.transfers n).map Prod.fst = s.handed n) := by
  have hu : UpToDate n s :=
    Runs.invariant_of_along (UpToDate n) (fun _ _ _ h hP hu => hu.step h hP) hP hrun
      (upToDate_opened hn)
  refine ⟨hu.taken, fun hidle => ?_⟩
  rw [← hu.taken, taken_of_progress_none (hu.sound.idle hidle)]

theorem sent_all_twoPackets :
    ∃ s, Runs.run step (opened [1, 2]) twoPackets = some s ∧
      s.host.taken 1 = s.handed 1 ∧ (s.host.transfers 1).map Prod.fst = [[1, 2], [3]] := by
  have hP : Runs.Along step (Smooth 1) (opened [1, 2]) twoPackets := by decide
  obtain ⟨htaken, htransfers⟩ := sent_all [1, 2] 1 twoPackets _ (by decide) rfl hP
  exact ⟨_, rfl, htaken, htransfers rfl⟩

/-- No write is refused but by a shutdown. -/
def Unrefused (_ : Writers) : Move → Prop
  | .send _ _ (.refused errno) => errno = ESHUTDOWN
  | _ => True

/-- No copy is lost, and there is one only behind the pointer of an endpoint whose write is waited for. -/
structure Tidy (s : Writers) : Prop where
  sound : s.Sound
  lost : s.host.lost = []
  idle : ∀ n, s.writing n = false → s.host.owner n = none
  active : ∀ n, s.host.owner n ≠ none → s.host.active n = true

theorem Tidy.of_within (htidy : s.Tidy) (ht : t.Sound) (hw : Within n s.host t.host)
    (hlost : t.host.lost = []) (hwriting : ∀ m, m ≠ n → t.writing m = s.writing m)
    (hidle : t.writing n = false → t.host.owner n = none)
    (hactive : t.host.owner n ≠ none → t.host.active n = true) : t.Tidy := by
  refine ⟨ht, hlost, fun m hm => ?_, fun m hm => ?_⟩
  · by_cases hmn : m = n
    · subst hmn
      exact hidle hm
    · rw [hw.owner_eq hmn]
      rw [hwriting m hmn] at hm
      exact htidy.idle m hm
  · by_cases hmn : m = n
    · subst hmn
      exact hactive hm
    · rw [hw.owner_eq hmn] at hm
      rw [hw.active m hmn]
      exact htidy.active m hm

theorem Tidy.send {endpoint : Byte} {dataptr : List Byte} {rc : Submission} (htidy : s.Tidy)
    (h : s.step (.send endpoint dataptr rc) = some t)
    (hrc : ∀ errno, rc = .refused errno → errno = ESHUTDOWN) (ht : t.Sound) : t.Tidy := by
  obtain ⟨hidle, rfl⟩ := step_send h
  generalize endpoint &&& 0x0f = n at *
  have hp := htidy.sound.idle hidle
  have hb := htidy.sound.balanced
  have hw := (sendNumber_spec hb hp dataptr rc).1
  have hwriting : ¬ Function.update s.writing n true n = false := by
    rw [Function.update_self]
    exact Bool.noConfusion
  have hnone : (s.host.owner n).toList = [] := by rw [htidy.idle n hidle]; rfl
  have hspec : (s.host.sendNumber n dataptr rc).lost = [] ∧
      ((s.host.sendNumber n dataptr rc).owner n ≠ none →
        (s.host.sendNumber n dataptr rc).active n = true) := by
    cases hslot : s.host.slots n with
    | none =>
      rw [sendNumber_closed hslot]
      exact ⟨htidy.lost, htidy.active n⟩
    | some aio =>
      cases rc with
      | accepted =>
        obtain ⟨-, -, hactive, -, hlost⟩ := sendNumber_accepted dataptr hb hslot hp
        rw [hnone, htidy.lost] at hlost
        exact ⟨hlost, fun _ => hactive⟩
      | refused errno =>
        obtain ⟨-, -, -, hclosed, hlost⟩ :=
          sendNumber_refused dataptr errno hb hslot hp
        rw [hnone, htidy.lost] at hlost
        exact ⟨hlost, fun hne => absurd (owner_of_closed (hclosed (hrc errno rfl))) hne⟩
  exact htidy.of_within (n := n) ht hw hspec.1 (fun m hm => Function.update_of_ne hm ..)
    (fun hf => absurd hf hwriting) hspec.2

theorem Tidy.wait {endpoint : Byte} {c : Wait} (htidy : s.Tidy)
    (h : s.step (.wait endpoint c) = some t) (ht : t.Sound) : t.Tidy := by
  obtain ⟨-, rfl⟩ := step_wait h
  generalize endpoint &&& 0x0f = n at *
  have hwaited := htidy.sound.waited n c
  generalize s.host.waitNumber n c = r at hwaited ht ⊢
  obtain ⟨host, done⟩ := r
  dsimp only at hwaited ht ⊢
  -- With the flag down the call changed nothing and there was no copy; with it up a call that is done
  -- has freed it.
  have hnone : s.host.active n = false → host.owner n = none := by
    intro ha
    rw [hwaited.idle ha]
    by_contra hne
    have := htidy.active n hne
    rw [ha] at this
    cases this
  have hdone : done = true → host.owner n = none := by
    intro hd
    cases ha : s.host.active n with
    | false => exact hnone ha
    | true => exact hwaited.freed hd ha
  refine htidy.of_within (n := n) ht hwaited.within (hwaited.lost.trans htidy.lost)
    (fun m hm => Function.update_of_ne hm ..) (fun hf => hdone ?_) fun hne => ?_
  · dsimp only at hf
    rw [Function.update_self] at hf
    simpa using hf
  · dsimp only at hne ⊢
    cases hd : done with
    | true => exact absurd (hdone hd) hne
    | false =>
      rw [hwaited.waiting hd]
      by_contra ha
      exact hne (hnone (by simpa using ha))

theorem Tidy.complete {r : Completion} (htidy : s.Tidy) (h : s.step (.complete n r) = some t)
    (ht : t.Sound) : t.Tidy := by
  obtain ⟨buf, b, hslot, host, hhost, rfl⟩ := step_complete h
  obtain ⟨rfl, -⟩ := (htidy.sound.fits n).owned buf b hslot
  obtain ⟨host', hhost', hw, hslot', hactive, hlost, -, -⟩ :=
    complete_spec htidy.sound.balanced hslot r
  obtain rfl := Option.some.inj (hhost'.symm.trans hhost)
  have howner : host'.owner n = s.host.owner n :=
    (owner_of_slot hslot').trans (owner_of_slot hslot).symm
  refine htidy.of_within (n := n) ht hw (hlost.trans htidy.lost) (fun _ _ => rfl) (fun hf => ?_)
    fun hne => ?_
  · exact howner.trans (htidy.idle n hf)
  · dsimp only at hne ⊢
    rw [hactive]
    exact htidy.active n (howner ▸ hne)

theorem Tidy.step (h : s.step m = some t) (hP : s.Unrefused m) (htidy : s.Tidy) : t.Tidy := by
  have ht := htidy.sound.step h
  cases m with
  | send endpoint dataptr rc =>
    refine htidy.send h (fun errno hrc => ?_) ht
    subst hrc
    exact hP
  | wait endpoint c => exact htidy.wait h ht
  | complete n r => exact htidy.complete h ht

theorem tidy_opened (eps : List Byte) : Tidy (opened eps) := by
  have howner : ∀ n, (opened eps).host.owner n = none := by
    intro n
    show (Host.opened eps).owner n = none
    unfold Host.owner Host.opened
    dsimp only
    split_ifs <;> rfl
  exact ⟨sound_opened eps, rfl, fun n _ => howner n, fun n hne => absurd (howner n) hne⟩

/-- **The copies are freed.**  In every run in which no write is refused but by a shutdown: no copy is lost,
those not freed yet are each behind the pointer of one endpoint, and when no writer waits for a write every
copy ever made has been freed. -/
theorem copies_freed (eps : List Byte) (moves : List Move) (s : Writers)
    (hrun : Runs.run step (opened eps) moves = some s)
    (hP : Runs.Along step Unrefused (opened eps) moves) :
    s.host.lost = [] ∧ (∀ b, s.host.heap.Live b ↔ ∃ n, s.host.owner n = some b) ∧
      ((∀ n, s.writing n = false) → ∀ b, ¬ s.host.heap.Live b) := by
  have htidy : s.Tidy :=
    Runs.invariant_of_along Tidy (fun _ _ _ h hP ht => ht.step h hP) hP hrun (tidy_opened eps)
  have hb : Ledger s.host.heap s.host.owner [] := htidy.lost ▸ htidy.sound.balanced
  refine ⟨htidy.lost, fun b => ?_, fun hidle => hb.not_live fun n => htidy.idle n (hidle n)⟩
  rw [hb.live_iff]
  exact or_iff_left List.not_mem_nil

/-- The copy of a refused write is behind the pointer until the next packet takes its place. -/
example : (Runs.run step (opened [1]) [.send 0x81 [1] (.refused 11),
    .wait 0x81 ⟨500, none, false, false⟩, .send 0x81 [2] .accepted]).map (fun s => s.host.lost) =
      some [0] := rfl

/-- A write that fails by a shutdown closes the endpoint, another completes; both copies are freed. -/
def shutdown : List Move :=
  [.send 0x81 [1, 2] .accepted, .send 0x82 [7] .accepted,
    .wait 0x81 ⟨500, some (.failed ESHUTDOWN), false, false⟩, .complete 2 (.wrote 1),
    .wait 0x82 ⟨500, none, false, false⟩]

theorem copies_freed_shutdown :
    ∃ s, Runs.run step (opened [1, 2]) shutdown = some s ∧ s.host.slots 1 = none ∧
      s.host.heap.next = 2 ∧ ∀ b, ¬ s.host.heap.Live b := by
  have hP : Runs.Along step Unrefused (opened [1, 2]) shutdown := by
    simp [Runs.Along, shutdown, Unrefused]
  refine ⟨_, rfl, rfl, rfl, (copies_freed [1, 2] shutdown _ rfl hP).2.2 fun n => ?_⟩
  simp only [Function.update_apply]
  split_ifs <;> rfl

end Writers

end GadgetSend

end UsbProxy
