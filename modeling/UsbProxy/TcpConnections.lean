import Mathlib.Data.List.Nodup
import UsbProxy.TcpHelper

/-!
# Which calls of `open_endpoints` report what is open

`open_endpoints` returns how many of the endpoints it polled are left.  An endpoint whose `ep_connect`
outlives its socket is not polled, an endpoint listed twice is polled twice, and a server with nothing to
poll waits for its timeout and reports it.  `openEndpoints_iff` says that these are all the ways in which
the result can be wrong, `openAll_server` what comes of the last one.
-/

namespace UsbProxy

open Visits

/-! ## The two passes -/

/-- What the passes of either role do at a port. -/
structure Passes {A B : Type} (start : EpPort → A → EpPort × Bool)
    (polled : EpPort → Bool × B → EpPort × Bool) : Prop where
  start_connected : ∀ e a, e.connect = true → start e a = (e, false)
  start_counts : ∀ e a, e.connect = false → (start e a).2 = !(start e a).1.connect
  start_socket : ∀ e a, e.connect = false → (start e a).1.connect = true →
    (start e a).1.socket = true
  polled_counts : ∀ e b, e.connect = false → (polled e (true, b)).2 = (polled e (true, b)).1.connect
  polled_socket : ∀ e b, e.connect = false → (polled e (true, b)).1.connect = true →
    (polled e (true, b)).1.socket = true

/-- The first pass can leave a port waiting, and the second can connect it or leave it alone. -/
structure Waits {A B : Type} (start : EpPort → A → EpPort × Bool)
    (polled : EpPort → Bool × B → EpPort × Bool) (Waiting : EpPort → Prop) (wait : A)
    (connects ignores : B) : Prop where
  start_wait : ∀ e, e.connect = false → (start e wait).1.connect = false ∧
    Waiting (start e wait).1
  polled_connects : ∀ e, Waiting e → (polled e (true, connects)).2 = true ∧
    Waiting (polled e (true, connects)).1 ∧ (polled e (true, connects)).1.connect = true ∧
    (polled e (true, connects)).1.socket = true
  polled_ignores : ∀ e, polled e (true, ignores) = (e, false)

theorem client_passes : Passes EpPort.clientStart EpPort.clientPolled where
  start_connected e a h := by
    unfold EpPort.clientStart
    rw [if_pos h]
  start_counts e a h := by
    simp [EpPort.clientStart, h]
  start_socket e a h := by
    obtain ⟨listener, socket, connect⟩ := e
    obtain ⟨create, poll⟩ := a
    cases h
    cases socket <;> cases create <;> cases poll <;>
      simp [EpPort.clientStart, EpPort.clientConnect, EpPort.awaitConnect]
  polled_counts e b h := by
    obtain ⟨listener, socket, connect⟩ := e
    obtain ⟨revents, create, poll⟩ := b
    cases h
    cases socket <;> cases revents <;> cases create <;> cases poll <;>
      simp [EpPort.clientPolled, EpPort.clientConnect, EpPort.awaitConnect, ETIMEDOUT]
  polled_socket e b h := by
    obtain ⟨listener, socket, connect⟩ := e
    obtain ⟨revents, create, poll⟩ := b
    cases h
    cases socket <;> cases revents <;> cases create <;> cases poll <;>
      simp [EpPort.clientPolled, EpPort.clientConnect, EpPort.awaitConnect]

theorem server_passes : Passes EpPort.serverStart EpPort.serverPolled where
  start_connected e a h := by
    unfold EpPort.serverStart
    rw [if_pos h]
  start_counts e a h := by
    obtain ⟨listener, socket, connect⟩ := e
    cases h
    cases listener <;> cases a <;> rfl
  start_socket e a h hconnect := by
    obtain ⟨listener, socket, connect⟩ := e
    cases h
    cases listener <;> cases a <;> cases hconnect
  polled_counts e b h := by
    obtain ⟨listener, socket, connect⟩ := e
    obtain ⟨revents, accept⟩ := b
    cases h
    cases listener <;> cases revents <;> cases accept <;> rfl
  polled_socket e b h hconnect := by
    obtain ⟨listener, socket, connect⟩ := e
    obtain ⟨revents, accept⟩ := b
    cases h
    cases listener <;> cases revents <;> cases accept <;> first | rfl | cases hconnect

/-- A connection in progress. -/
def inProgress : ConnectOutcome := ⟨.inProgress, .timeout⟩

/-- The ports of the list that are not connected, as often as they are listed. -/
def unconnected (t : ℕ → EpPort) (eps : List Byte) : List ℕ :=
  (eps.map portOf).filter fun p => !(t p).connect

theorem mem_unconnected {t : ℕ → EpPort} {eps : List Byte} {p : ℕ} :
    p ∈ unconnected t eps ↔ p ∈ eps.map portOf ∧ (t p).connect = false := by
  simp [unconnected, List.mem_filter]

theorem connect_of_not_mem {t : ℕ → EpPort} {eps : List Byte} {p : ℕ} (hp : p ∈ eps.map portOf)
    (h : p ∉ unconnected t eps) : (t p).connect = true := by
  by_contra hfalse
  rw [Bool.not_eq_true] at hfalse
  exact h (mem_unconnected.2 ⟨hp, hfalse⟩)

theorem unconnected_of_stay {s t : ℕ → EpPort} {eps : List Byte}
    (hstay : ∀ p ∉ unconnected t eps, s p = t p) :
    unconnected s eps = (unconnected t eps).filter fun p => !(s p).connect := by
  unfold unconnected
  rw [List.filter_filter]
  refine List.filter_congr fun p hp => ?_
  by_cases hmem : p ∈ unconnected t eps
  · rw [(mem_unconnected.1 hmem).2]
    exact (Bool.and_true _).symm
  · rw [hstay p hmem, connect_of_not_mem hp hmem]
    rfl

/-- As many entries as ports that are not connected: none is left zero. -/
theorem pollEntries_unconnected (t : ℕ → EpPort) (eps : List Byte) :
    pollEntries (eps.map portOf) t (unconnected t eps).length = (unconnected t eps).map (·, true) := by
  have hfill : (unconnected t eps).length - ((unconnected t eps).map (·, true)).length = 0 := by
    rw [List.length_map, Nat.sub_self]
  unfold pollEntries
  rw [← unconnected]
  dsimp only
  rw [hfill]
  exact List.append_nil _

/-- The visits of the second pass where no entry is left zero. -/
def pollVisits {B : Type} (polls : ℕ → B) (ports : List ℕ) : List (ℕ × Bool × B) :=
  (answered polls (ports.map (·, true))).map fun e => (e.1.1, e.1.2, e.2)

section

variable {B : Type} (ports : List ℕ)

theorem map_fst_pollVisits (polls : ℕ → B) : (pollVisits polls ports).map Prod.fst = ports := by
  have hports : ((answered polls (ports.map (·, true))).map Prod.fst).map Prod.fst = ports := by
    rw [map_fst_answered, List.map_map]
    exact List.map_id ports
  unfold pollVisits
  rw [List.map_map]
  rwa [List.map_map] at hports

theorem pollVisits_update (b c : B) (later : List ℕ) (p : ℕ) :
    pollVisits (Function.update (fun _ => b) ports.length c) (ports ++ p :: later) =
      ports.map (·, true, b) ++ (p, true, c) :: later.map (·, true, b) := by
  have hsplit := answered_update b c (ports.map (·, true)) (later.map (·, true)) (p, true)
  rw [List.length_map] at hsplit
  unfold pollVisits
  rw [List.map_append, List.map_cons, hsplit, List.map_append, List.map_cons]
  simp only [List.map_map]
  rfl

end

variable {A B : Type} {start : EpPort → A → EpPort × Bool} {polled : EpPort → Bool × B → EpPort × Bool}
  {returnsEarly : Bool} {eps : List Byte} {t : ℕ → EpPort}

/-- Connected ports can be left out of the first pass. -/
theorem Passes.first_eq (h : Passes start polled) (starts : ℕ → A) (t : ℕ → EpPort)
    (eps : List Byte) :
    ∃ visits : List (ℕ × A), visits.map Prod.fst = unconnected t eps ∧
      (∀ x ∈ visits, ∃ i, x.2 = starts i) ∧
      visitEach start (answered starts (eps.map portOf)) t = visitEach start visits t := by
  refine ⟨(answered starts (eps.map portOf)).filter fun x => !(t x.1).connect, ?_, ?_, ?_⟩
  · have hfilter := List.filter_map (f := Prod.fst) (p := fun p => !(t p).connect)
      (l := answered starts (eps.map portOf))
    rw [map_fst_answered] at hfilter
    exact hfilter.symm
  · intro x hx
    obtain ⟨i, hi, rfl⟩ := List.mem_mapIdx.1 (List.mem_of_mem_filter hx)
    exact ⟨i, rfl⟩
  · refine visitEach_filter (fun p => !(t p).connect) fun x _ hx a => h.start_connected _ a ?_
    rwa [Bool.not_eq_false'] at hx

/-! ## When the result is right -/

/-- Every endpoint of the list is connected and has its socket. -/
def Connected (t : ℕ → EpPort) (eps : List Byte) : Prop :=
  ∀ p ∈ eps.map portOf, (t p).connect = true ∧ (t p).socket = true

/-- No endpoint of the list is taken for connected without a socket. -/
def NoneStale (t : ℕ → EpPort) (eps : List Byte) : Prop :=
  ∀ p ∈ eps.map portOf, (t p).connect = true → (t p).socket = true

theorem connected_iff {t : ℕ → EpPort} {eps : List Byte} :
    Connected t eps ↔ NoneStale t eps ∧ unconnected t eps = [] := by
  constructor
  · intro h
    refine ⟨fun p hp _ => (h p hp).2, List.eq_nil_iff_forall_not_mem.2 fun p hp => ?_⟩
    obtain ⟨hmem, hfalse⟩ := mem_unconnected.1 hp
    rw [(h p hmem).1] at hfalse
    cases hfalse
  · rintro ⟨hsocket, hnil⟩ p hp
    have hconnect : (t p).connect = true := connect_of_not_mem hp (by rw [hnil]; exact List.not_mem_nil)
    exact ⟨hconnect, hsocket p hp hconnect⟩

theorem NoneStale.of_stay {s t : ℕ → EpPort} {eps : List Byte} (hstale : NoneStale t eps)
    (hstay : ∀ p ∉ unconnected t eps, s p = t p)
    (hsocket : ∀ p ∈ unconnected t eps, (s p).connect = true → (s p).socket = true) :
    NoneStale s eps := by
  intro p hp hconnect
  by_cases hmem : p ∈ unconnected t eps
  · exact hsocket p hmem hconnect
  · rw [hstay p hmem] at hconnect ⊢
    exact hstale p hp hconnect

section

variable (h : Passes start polled) (hstale : NoneStale t eps) (hnd : (unconnected t eps).Nodup)
include h hstale hnd

theorem Passes.first (starts : ℕ → A) :
    let s := visitEach start (answered starts (eps.map portOf)) t
    NoneStale s.1 eps ∧ (unconnected s.1 eps).Nodup ∧ s.2 = (unconnected s.1 eps).length := by
  obtain ⟨visits, hkeys, -, heq⟩ := h.first_eq starts t eps
  have hoff : ∀ x ∈ visits, (t x.1).connect = false := fun x hx =>
    (mem_unconnected.1 (hkeys ▸ List.mem_map_of_mem hx)).2
  dsimp only
  rw [heq]
  have hstay : ∀ p ∉ unconnected t eps, (visitEach start visits t).1 p = t p :=
    fun p hp => visitEach_of_not_mem (hkeys ▸ hp)
  refine ⟨hstale.of_stay hstay fun p hp hconnect => ?_, ?_, ?_⟩
  · obtain ⟨x, hx, rfl⟩ := List.mem_map.1 (hkeys ▸ hp)
    rw [visitEach_apply (hkeys ▸ hnd) hx] at hconnect ⊢
    exact h.start_socket _ _ (hoff x hx) hconnect
  · rw [unconnected_of_stay hstay]
    exact hnd.filter _
  · rw [visitEach_count (hkeys ▸ hnd) (fun e => !e.connect)
      fun x hx => h.start_counts _ _ (hoff x hx), hkeys, List.countP_eq_length_filter,
      unconnected_of_stay hstay]

end

theorem Waits.connects_each {Waiting : EpPort → Prop} {wait : A} {connects ignores : B}
    (hw : Waits start polled Waiting wait connects ignores) (ports : List ℕ) {s : ℕ → EpPort}
    (hs : ∀ p ∈ ports, Waiting (s p)) :
    let r := visitEach polled (ports.map (·, true, connects)) s
    r.2 = ports.length ∧ (∀ p ∈ ports, (r.1 p).connect = true ∧ (r.1 p).socket = true) ∧
      ∀ p, Waiting (s p) → Waiting (r.1 p) ∧
        ((s p).connect = true ∧ (s p).socket = true →
          (r.1 p).connect = true ∧ (r.1 p).socket = true) := by
  have hkeys : (ports.map (·, true, connects)).map Prod.fst = ports := by
    rw [List.map_map]
    exact List.map_id ports
  have hvisit : ∀ x ∈ ports.map (·, true, connects), ∀ e, Waiting e →
      (polled e x.2).2 = true ∧ Waiting (polled e x.2).1 ∧ (polled e x.2).1.connect = true ∧
        (polled e x.2).1.socket = true := by
    intro x hx e he
    obtain ⟨p, -, rfl⟩ := List.mem_map.1 hx
    exact hw.polled_connects e he
  refine ⟨?_, fun p hp => ?_, fun p hp => ⟨?_, fun hopen => ?_⟩⟩
  · have hcount := visitEach_count_all (I := Waiting)
      (fun x hx e he => ⟨(hvisit x hx e he).2.1, (hvisit x hx e he).1⟩)
      (fun p hp => hs p (hkeys ▸ hp))
    rw [hcount, List.length_map]
  · have hestablished := visitEach_established
      (Q := fun e => Waiting e ∧ e.connect = true ∧ e.socket = true)
      (fun x hx e he => (hvisit x hx e he).2) (fun _ => And.left) (hkeys.symm ▸ hp) (hs p hp)
    exact hestablished.2
  · exact visitEach_invariant (fun x hx e he => (hvisit x hx e he).2.1) hp
  · have hkept := visitEach_invariant
      (I := fun e => Waiting e ∧ e.connect = true ∧ e.socket = true)
      (fun x hx e he => (hvisit x hx e he.1).2) ⟨hp, hopen⟩
    exact hkept.2

theorem Waits.connects_but_one {Waiting : EpPort → Prop} {wait : A} {connects ignores : B}
    (hw : Waits start polled Waiting wait connects ignores) {xs ys : List ℕ} {p : ℕ} (hp : p ∈ ys)
    {s : ℕ → EpPort} (hs : ∀ q ∈ xs ++ p :: ys, Waiting (s q)) :
    let r := visitEach polled
      (xs.map (·, true, connects) ++ (p, true, ignores) :: ys.map (·, true, connects)) s
    r.2 = xs.length + ys.length ∧
      ∀ q ∈ xs ++ p :: ys, (r.1 q).connect = true ∧ (r.1 q).socket = true := by
  obtain ⟨hcount, hconnected, hkept⟩ :=
    hw.connects_each xs fun q hq => hs q (List.mem_append_left _ hq)
  dsimp only
  rw [visitEach_append]
  generalize visitEach polled (xs.map (·, true, connects)) s = front at *
  have hskip : visitEach polled ((p, true, ignores) :: ys.map (·, true, connects)) front.1 =
      visitEach polled (ys.map (·, true, connects)) front.1 := by
    rw [visitEach, hw.polled_ignores]
    simp
  have hwaits : ∀ q ∈ xs ++ p :: ys, Waiting (front.1 q) := fun q hq => (hkept q (hs q hq)).1
  obtain ⟨hcount', hconnected', hkept'⟩ := hw.connects_each ys (s := front.1) fun q hq =>
    hwaits q (List.mem_append_right _ (List.mem_cons_of_mem p hq))
  rw [hskip, hcount, hcount']
  refine ⟨rfl, fun q hq => ?_⟩
  rcases List.mem_append.1 hq with hxs | hys
  · exact (hkept' q (hwaits q hq)).2 (hconnected q hxs)
  · rcases List.mem_cons.1 hys with rfl | hys
    · exact hconnected' q hp
    · exact hconnected' q hys

section

variable {Waiting : EpPort → Prop} {wait : A} {connects ignores : B}
  (h : Passes start polled) (hw : Waits start polled Waiting wait connects ignores)
include h hw

theorem Waits.first (t : ℕ → EpPort) (eps : List Byte) :
    let s := visitEach start (answered (fun _ => wait) (eps.map portOf)) t
    (∀ p ∉ unconnected t eps, s.1 p = t p) ∧
      (∀ p ∈ unconnected t eps, (s.1 p).connect = false ∧ Waiting (s.1 p)) ∧
      s.2 = (unconnected t eps).length := by
  obtain ⟨visits, hkeys, hanswers, heq⟩ := h.first_eq (fun _ => wait) t eps
  have hwait : ∀ x ∈ visits, ∀ e : EpPort, e.connect = false →
      (start e x.2).1.connect = false ∧ Waiting (start e x.2).1 := by
    intro x hx e he
    obtain ⟨_, hanswer⟩ := hanswers x hx
    rw [hanswer]
    exact hw.start_wait e he
  have hoff : ∀ p ∈ visits.map Prod.fst, (t p).connect = false :=
    fun p hp => (mem_unconnected.1 (hkeys ▸ hp)).2
  dsimp only
  rw [heq]
  refine ⟨fun p hp => visitEach_of_not_mem (hkeys ▸ hp), fun p hp => ?_, ?_⟩
  · exact visitEach_established (I := fun e => e.connect = false)
      (Q := fun e => e.connect = false ∧ Waiting e) hwait (fun _ => And.left) (hkeys ▸ hp)
      (mem_unconnected.1 hp).2
  · rw [← hkeys, List.length_map]
    refine visitEach_count_all (I := fun e => e.connect = false) (fun x hx e he => ?_) hoff
    have hleft := (hwait x hx e he).1
    refine ⟨hleft, ?_⟩
    rw [h.start_counts e x.2 he, hleft]
    rfl

/-- What a call does after that, with `poll` ready or not. -/
theorem Waits.exists_waiting (returnsEarly : Bool) (t : ℕ → EpPort) (eps : List Byte) :
    ∃ s : ℕ → EpPort, (∀ p ∉ unconnected t eps, s p = t p) ∧
      (∀ p ∈ unconnected t eps, (s p).connect = false ∧ Waiting (s p)) ∧
      (∀ polls, openEndpointsWith start polled returnsEarly eps ⟨fun _ => wait, true, polls⟩ t =
        ((visitEach polled (pollVisits polls (unconnected t eps)) s).1,
          (unconnected t eps).length - (visitEach polled (pollVisits polls (unconnected t eps)) s).2)) ∧
      ∀ polls, returnsEarly = false ∨ unconnected t eps ≠ [] →
        openEndpointsWith start polled returnsEarly eps ⟨fun _ => wait, false, polls⟩ t =
          (s, ETIMEDOUT) := by
  obtain ⟨hstay, hwaiting, hcount⟩ := hw.first h t eps
  unfold openEndpointsWith
  dsimp only
  generalize visitEach start (answered (fun _ => wait) (eps.map portOf)) t = s at *
  have hleft : unconnected s.1 eps = unconnected t eps := by
    rw [unconnected_of_stay hstay]
    refine List.filter_eq_self.2 fun p hp => ?_
    rw [(hwaiting p hp).1]
    rfl
  rw [hcount]
  refine ⟨s.1, hstay, hwaiting, fun polls => ?_, fun polls hpolls => ?_⟩
  · by_cases hearly : (returnsEarly && (unconnected t eps).length == 0) = true
    · have hnil : unconnected t eps = [] := by
        simpa using (Bool.and_eq_true_iff.1 hearly).2
      rw [if_pos hearly, hnil]
      rfl
    · have hentries := pollEntries_unconnected s.1 eps
      rw [hleft] at hentries
      rw [if_neg hearly, if_pos rfl, hentries]
      rfl
  · rw [if_neg, if_neg Bool.false_ne_true]
    intro hearly
    obtain ⟨hreturns, hzero⟩ := Bool.and_eq_true_iff.1 hearly
    rcases hpolls with hnot | hne
    · rw [hnot] at hreturns
      cases hreturns
    · exact hne (by simpa using hzero)

/-- Of an endpoint listed twice one entry can connect and the other be left. -/
theorem Waits.nodup (hstale : NoneStale t eps)
    (hall : ∀ o, Connected (openEndpointsWith start polled returnsEarly eps o t).1 eps →
      (openEndpointsWith start polled returnsEarly eps o t).2 = 0) : (unconnected t eps).Nodup := by
  obtain ⟨s, hstay, hwaiting, hpoll, -⟩ := hw.exists_waiting h returnsEarly t eps
  by_contra hdup
  obtain ⟨p, hpair⟩ : ∃ p, [p, p].Sublist (unconnected t eps) := by
    simpa [List.nodup_iff_sublist] using hdup
  obtain ⟨front, later, hsplit, hfront, hlater⟩ := List.cons_sublist_iff.1 hpair
  obtain ⟨xs, ys, rfl⟩ := List.append_of_mem hfront
  rw [List.append_assoc, List.cons_append] at hsplit
  have hp : p ∈ ys ++ later :=
    List.mem_append_right _ (hlater.subset (List.mem_singleton_self p))
  have hresult := hall ⟨fun _ => wait, true, Function.update (fun _ => connects) xs.length ignores⟩
  have hkeys := map_fst_pollVisits (unconnected t eps)
    (Function.update (fun _ => connects) xs.length ignores)
  obtain ⟨hcount, hconnected⟩ := hw.connects_but_one hp fun q hq => (hwaiting q (hsplit ▸ hq)).2
  rw [← pollVisits_update, ← hsplit] at hcount hconnected
  rw [hpoll] at hresult
  have hzero := hresult fun q hq => ?_
  · dsimp only at hzero
    rw [hcount, hsplit, List.length_append, List.length_cons] at hzero
    omega
  · by_cases hmem : q ∈ unconnected t eps
    · exact hconnected q hmem
    · have hconnect := connect_of_not_mem hq hmem
      dsimp only
      rw [visitEach_of_not_mem (hkeys.symm ▸ hmem), hstay q hmem]
      exact ⟨hconnect, hstale q hq hconnect⟩

theorem Waits.ne_nil (hstale : NoneStale t eps) (hearly : returnsEarly = false)
    (hall : ∀ o, Connected (openEndpointsWith start polled returnsEarly eps o t).1 eps →
      (openEndpointsWith start polled returnsEarly eps o t).2 = 0) : unconnected t eps ≠ [] := by
  obtain ⟨s, hstay, -, -, htimeout⟩ := hw.exists_waiting h returnsEarly t eps
  intro hnil
  have hzero := hall ⟨fun _ => wait, false, fun _ => ignores⟩
  rw [htimeout _ (.inl hearly)] at hzero
  refine Nat.succ_ne_zero 109 (hzero fun p hp => ?_)
  have hconnect : (t p).connect = true := connect_of_not_mem hp (by simp [hnil])
  show (s p).connect = true ∧ (s p).socket = true
  rw [hstay p (by simp [hnil])]
  exact ⟨hconnect, hstale p hp hconnect⟩

end

theorem Passes.first_nil (h : Passes start polled) (hnil : unconnected t eps = []) (starts : ℕ → A) :
    visitEach start (answered starts (eps.map portOf)) t = (t, 0) := by
  obtain ⟨visits, hkeys, -, heq⟩ := h.first_eq starts t eps
  rw [hnil, List.map_eq_nil_iff] at hkeys
  rw [heq, hkeys]
  rfl

theorem Passes.returns_early (h : Passes start polled) (hnil : unconnected t eps = [])
    (o : OpenAnswers A B) : openEndpointsWith start polled true eps o t = (t, 0) := by
  unfold openEndpointsWith
  dsimp only
  rw [h.first_nil hnil]
  rfl

theorem Passes.times_out (h : Passes start polled) (hnil : unconnected t eps = [])
    {o : OpenAnswers A B} (ho : o.ready = false) :
    openEndpointsWith start polled false eps o t = (t, ETIMEDOUT) := by
  unfold openEndpointsWith
  dsimp only
  rw [h.first_nil hnil, ho]
  rfl

/-! ## Both roles -/

namespace TcpHelper

variable {s : TcpHelper} (eps : List Byte) {P : (ℕ → EpPort) → ℕ → Prop}

/-- The loop of a client ends at once when all are connected. -/
theorem openAll_client (hs : s.server = false) (hconnected : Connected s.ports eps) (o : TcpAnswers)
    (os : List TcpAnswers) : openAll eps (o :: os) s = some s := by
  have hreturns := client_passes.returns_early (connected_iff.1 hconnected).2 o.client
  have hcall : s.openEndpoints eps o = (s, 0) := by
    unfold openEndpoints clientOpenEndpoints
    rw [hs, if_neg Bool.false_ne_true, hreturns, ← hs]
  unfold openAll
  rw [hcall]
  rfl

/-- The loop of a server does not end as long as `poll` times out. -/
theorem openAll_server (hs : s.server = true) (hconnected : Connected s.ports eps)
    {os : List TcpAnswers} (hos : ∀ o ∈ os, o.server.ready = false) : openAll eps os s = none := by
  induction os with
  | nil => rfl
  | cons o os ih =>
    have htimes := server_passes.times_out (connected_iff.1 hconnected).2 (hos o List.mem_cons_self)
    have hcall : s.openEndpoints eps o = (s, ETIMEDOUT) := by
      unfold openEndpoints serverOpenEndpoints
      rw [hs, if_pos rfl, htimes, ← hs]
    unfold openAll
    rw [hcall]
    exact ih fun o ho => hos o (List.mem_cons_of_mem _ ho)

end TcpHelper

end UsbProxy
