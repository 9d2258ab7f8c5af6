import Mathlib.Algebra.BigOperators.Ring.List
import Mathlib.Algebra.Order.Ring.Nat
import UsbProxy.InboundRelay
import UsbProxy.Library.Credits
import UsbProxy.LibusbTransfer

/-!
# `DeviceProxy_LibUSB::receive_data`

Every IN endpoint has a reader of its own, and all of them call the one proxy.  A call that finds `rxAttempt` 0
sleeps for `nice` milliseconds and returns nothing; any other one makes a transfer and waits for it.  The
readers share `rxAttempt`, so a call is modelled in two moves: up to its wait, and behind it.

`nice_throttles` says what the sleeping is good for, `device_to_host` what of the transfers the host is sent.
-/

namespace UsbProxy

open Thinning GadgetSend Credits

/-- What an endpoint's descriptor says to the reader. -/
structure ReadEndpoint where
  attributes : Byte
  maxPacketSize : UInt16

def ReadEndpoint.xfertype (ep : ReadEndpoint) : Byte := ep.attributes &&& USB_ENDPOINT_XFERTYPE_MASK

/-- What a transfer comes to, with the bytes it has brought. -/
structure Receipt where
  rc : LibusbError
  data : List Byte

/-- Where a reader's call of `receive_data` is. -/
inductive ReceivePhase
  | idle
  | sleeping
  | transferring
  deriving DecidableEq, Repr

/-- `*dataptr` and `*length` behind a call. -/
abbrev ReceiveAnswer : Type := Option (List Byte) × ℤ

structure LibusbReceiver where
  proxy : DeviceProxyLibUSB
  nice : ℕ
  rxAttempt : ℕ
  phase : Byte → ReceivePhase

/-- The moves of the readers, by their endpoints, and of the other callers. -/
inductive ReceiverMove
  | call (endpoint : Byte)
  | wake (endpoint : Byte)
  | finish (endpoint : Byte) (o : Receipt)
  | setNice (nice : ℕ)
  /-- The interfaces are set, claimed and released. -/
  | interfaces (proxy : DeviceProxyLibUSB)

namespace LibusbReceiver

def new (proxy : DeviceProxyLibUSB) (nice : ℕ) : LibusbReceiver where
  proxy := proxy
  nice := nice
  rxAttempt := 0
  phase := fun _ => .idle

def put (r : LibusbReceiver) (endpoint : Byte) (phase : ReceivePhase) : LibusbReceiver :=
  { r with phase := Function.update r.phase endpoint phase }

/-- `receive_data` up to its wait, or with what it returns without one.  A control and an isochronous endpoint
are only complained about; `rc` is then still a success, so that `rxAttempt` is set back. -/
def enter (r : LibusbReceiver) (endpoint : Byte) (ep : ReadEndpoint) :
    LibusbReceiver × Option ReceiveAnswer :=
  if !r.proxy.endpointInterfaceClaimed endpoint then (r, some (none, 0))
  else if ep.xfertype = USB_ENDPOINT_XFER_BULK then
    if r.rxAttempt = 0 ∧ r.nice ≠ 0 then (r.put endpoint .sleeping, none)
    else (r.put endpoint .transferring, none)
  else if ep.xfertype = USB_ENDPOINT_XFER_INT then (r.put endpoint .transferring, none)
  else ({ r with rxAttempt := 0 }, some (none, 0))

/-- Behind `sleep_for`. -/
def awake (r : LibusbReceiver) (endpoint : Byte) : LibusbReceiver :=
  { r.put endpoint .idle with rxAttempt := r.rxAttempt + 1 }

/-- Behind the transfer. -/
def finish (r : LibusbReceiver) (endpoint : Byte) (ep : ReadEndpoint) (o : Receipt) :
    LibusbReceiver × ReceiveAnswer :=
  let rxAttempt := if ep.xfertype = USB_ENDPOINT_XFER_BULK then r.rxAttempt + 1 else r.rxAttempt
  if o.rc ≠ .success then
    ({ r.put endpoint .idle with rxAttempt := if rxAttempt > MAX_ATTEMPTS then 0 else rxAttempt },
      (none, 0))
  else ({ r.put endpoint .idle with rxAttempt := 0 }, (some o.data, o.data.length))

/-- A move with what the call returned in it, if it did. -/
def step (eps : Byte → ReadEndpoint) (r : LibusbReceiver) :
    ReceiverMove → Option (LibusbReceiver × Option ReceiveAnswer)
  | .call endpoint =>
    if r.phase endpoint = .idle then some (r.enter endpoint (eps endpoint)) else none
  | .wake endpoint =>
    if r.phase endpoint = .sleeping then some (r.awake endpoint, some (none, 0)) else none
  | .finish endpoint o =>
    if r.phase endpoint = .transferring ∧ o.data.length ≤ (eps endpoint).maxPacketSize.toNat then
      let (r, answer) := r.finish endpoint (eps endpoint) o
      some (r, some answer)
    else none
  | .setNice nice => some ({ r with nice }, none)
  | .interfaces proxy => some ({ r with proxy }, none)

/-- The readers by themselves. -/
def go (eps : Byte → ReadEndpoint) (r : LibusbReceiver) (m : ReceiverMove) : Option LibusbReceiver :=
  (r.step eps m).map Prod.fst

/-! ## Throttling -/

def attempts (b : Byte) : ReceiverMove → ℕ
  | .finish endpoint _ => if endpoint = b then 1 else 0
  | _ => 0

def successes (b : Byte) : ReceiverMove → ℕ
  | .finish endpoint o => if endpoint = b ∧ o.rc = .success then 1 else 0
  | _ => 0

def sleeps (b : Byte) : ReceiverMove → ℕ
  | .wake endpoint => if endpoint = b then 1 else 0
  | _ => 0

/-- No call of another endpoint. -/
def Alone (b : Byte) : ReceiverMove → Prop
  | .call endpoint | .wake endpoint | .finish endpoint _ => endpoint = b
  | _ => True

instance (b : Byte) (m : ReceiverMove) : Decidable (Alone b m) := by
  unfold Alone
  split <;> infer_instance

/-- The transfer that the last sleep is still good for. -/
def credit (b : Byte) (r : LibusbReceiver) : ℕ :=
  if r.rxAttempt ≠ 0 ∨ r.phase b = .transferring then 1 else 0

/-- The transfers that it is good for if nobody else comes in between. -/
def allowance (r : LibusbReceiver) : ℕ := if r.rxAttempt = 0 then 0 else MAX_ATTEMPTS + 1 - r.rxAttempt

variable {eps : Byte → ReadEndpoint} {r r' : LibusbReceiver} {m : ReceiverMove} {b : Byte}
  {answer : Option ReceiveAnswer}

/-- Where `enter` leads on a bulk endpoint with `nice` set. -/
theorem enter_bulk (hbulk : (eps b).xfertype = USB_ENDPOINT_XFER_BULK) (hnice : r.nice ≠ 0)
    (h : (r.enter b (eps b)).1 = r') : r' = r ∨
      (r.rxAttempt = 0 ∧ r' = r.put b .sleeping) ∨ (r.rxAttempt ≠ 0 ∧ r' = r.put b .transferring) := by
  unfold enter at h
  rw [if_pos hbulk] at h
  split_ifs at h with hclaimed hattempt
  · exact .inl h.symm
  · exact .inr (.inl ⟨hattempt.1, h.symm⟩)
  · exact .inr (.inr ⟨fun hzero => hattempt ⟨hzero, hnice⟩, h.symm⟩)

theorem enter_other {e : Byte} (hbulk : (eps e).xfertype ≠ USB_ENDPOINT_XFER_BULK)
    (h : (r.enter e (eps e)).1 = r') :
    r' = r ∨ r' = r.put e .transferring ∨ r' = { r with rxAttempt := 0 } := by
  unfold enter at h
  rw [if_neg hbulk] at h
  split_ifs at h
  · exact .inl h.symm
  · exact .inr (.inl h.symm)
  · exact .inr (.inr h.symm)

theorem go_cases (h : go eps r m = some r') : match m with
    | .call e => r.phase e = .idle ∧ (r.enter e (eps e)).1 = r'
    | .wake e => r.phase e = .sleeping ∧ r' = r.awake e
    | .finish e o => r.phase e = .transferring ∧ r' = (r.finish e (eps e) o).1
    | .setNice nice => r' = { r with nice }
    | .interfaces proxy => r' = { r with proxy } := by
  obtain ⟨⟨r₁, answer⟩, hstep, rfl⟩ := Option.map_eq_some_iff.1 h
  cases m with
  | call e =>
    simp only [step] at hstep
    split_ifs at hstep with hphase
    exact ⟨hphase, congrArg Prod.fst (Option.some.inj hstep)⟩
  | wake e =>
    simp only [step] at hstep
    split_ifs at hstep with hphase
    exact ⟨hphase, (congrArg Prod.fst (Option.some.inj hstep)).symm⟩
  | finish e o =>
    simp only [step] at hstep
    split_ifs at hstep with hphase
    exact ⟨hphase.1, (congrArg Prod.fst (Option.some.inj hstep)).symm⟩
  | setNice nice => exact (congrArg Prod.fst (Option.some.inj hstep)).symm
  | interfaces proxy => exact (congrArg Prod.fst (Option.some.inj hstep)).symm

section Finish

variable (r : LibusbReceiver) (e : Byte) (ep : ReadEndpoint) {o : Receipt}

theorem phase_finish (o : Receipt) : (r.finish e ep o).1.phase = Function.update r.phase e .idle := by
  unfold finish
  dsimp only
  split_ifs <;> rfl

theorem rxAttempt_success (h : o.rc = .success) : (r.finish e ep o).1.rxAttempt = 0 := by
  unfold finish
  dsimp only
  rw [if_neg (not_not.2 h)]

theorem rxAttempt_failure (hbulk : ep.xfertype = USB_ENDPOINT_XFER_BULK) (h : o.rc ≠ .success) :
    (r.finish e ep o).1.rxAttempt = if r.rxAttempt + 1 > MAX_ATTEMPTS then 0 else r.rxAttempt + 1 := by
  unfold finish
  dsimp only
  rw [if_pos h, if_pos hbulk]

theorem answer_success (h : o.rc = .success) :
    (r.finish e ep o).2 = (some o.data, (o.data.length : ℤ)) := by
  unfold finish
  dsimp only
  rw [if_neg (not_not.2 h)]

theorem answer_failure (h : o.rc ≠ .success) : (r.finish e ep o).2 = (none, 0) := by
  unfold finish
  dsimp only
  rw [if_pos h]

theorem rxAttempt_other (hbulk : ep.xfertype ≠ USB_ENDPOINT_XFER_BULK) (o : Receipt) :
    (r.finish e ep o).1.rxAttempt = r.rxAttempt ∨ (r.finish e ep o).1.rxAttempt = 0 := by
  unfold finish
  dsimp only
  rw [if_neg hbulk]
  split_ifs
  · exact .inr rfl
  · exact .inl rfl
  · exact .inr rfl

end Finish

theorem credit_le_one (b : Byte) (r : LibusbReceiver) : credit b r ≤ 1 := by
  unfold credit
  split_ifs
  · exact Nat.le_refl 1
  · exact Nat.zero_le 1

theorem credit_mono (hattempt : r'.rxAttempt = r.rxAttempt ∨ r'.rxAttempt = 0)
    (hphase : r'.phase b = r.phase b) : credit b r' ≤ credit b r := by
  unfold credit
  rw [hphase]
  rcases hattempt with heq | hzero
  · rw [heq]
  · rw [hzero]
    by_cases ht : r.phase b = .transferring <;> simp [ht]

/-- One endpoint at most sleeps, and then nothing has been tried since. -/
structure Paced (b : Byte) (r : LibusbReceiver) : Prop where
  fresh : r.phase b = .sleeping → r.rxAttempt = 0
  others : ∀ e, e ≠ b → r.phase e ≠ .sleeping

theorem Paced.put (h : Paced b r) {e : Byte} {phase : ReceivePhase} (hphase : phase ≠ .sleeping) :
    Paced b (r.put e phase) where
  fresh hb := by
    change Function.update r.phase e phase b = .sleeping at hb
    by_cases he : b = e
    · rw [he, Function.update_self] at hb
      exact absurd hb hphase
    · rw [Function.update_of_ne he] at hb
      exact h.fresh hb
  others e' he' := by
    change Function.update r.phase e phase e' ≠ .sleeping
    by_cases he : e' = e
    · rw [he, Function.update_self]
      exact hphase
    · rw [Function.update_of_ne he]
      exact h.others e' he'

theorem Paced.of_phase (h : Paced b r) (hphase : r'.phase = r.phase)
    (hattempt : r'.rxAttempt = r.rxAttempt ∨ r'.rxAttempt = 0) : Paced b r' where
  fresh hb := by
    rw [hphase] at hb
    exact hattempt.elim (fun heq => heq.trans (h.fresh hb)) id
  others e he := by
    rw [hphase]
    exact h.others e he

theorem Paced.of_idle (h : Paced b r) (hphase : r'.phase = Function.update r.phase b .idle) :
    Paced b r' where
  fresh hb := by
    rw [hphase, Function.update_self] at hb
    cases hb
  others e he := by
    rw [hphase, Function.update_of_ne he]
    exact h.others e he

theorem Paced.enter_own (hbulk : (eps b).xfertype = USB_ENDPOINT_XFER_BULK) (hnice : r.nice ≠ 0)
    (h : Paced b r) (henter : (r.enter b (eps b)).1 = r') : Paced b r' ∧ credit b r' ≤ credit b r := by
  rcases enter_bulk hbulk hnice henter with rfl | ⟨hzero, rfl⟩ | ⟨hne, rfl⟩
  · exact ⟨h, Nat.le_refl _⟩
  · refine ⟨⟨fun _ => hzero, fun e he => ?_⟩, ?_⟩
    · change Function.update r.phase b .sleeping e ≠ .sleeping
      rw [Function.update_of_ne he]
      exact h.others e he
    · have hnone : credit b (r.put b .sleeping) = 0 := by
        unfold credit LibusbReceiver.put
        simp [hzero]
      rw [hnone]
      exact Nat.zero_le _
  · have hone : credit b r = 1 := if_pos (.inl hne)
    rw [hone]
    exact ⟨h.put (by decide), credit_le_one _ _⟩

theorem Paced.enter_other {e : Byte} (hbulk : (eps e).xfertype ≠ USB_ENDPOINT_XFER_BULK) (he : e ≠ b)
    (h : Paced b r) (henter : (r.enter e (eps e)).1 = r') : Paced b r' ∧ credit b r' ≤ credit b r := by
  rcases LibusbReceiver.enter_other hbulk henter with rfl | rfl | rfl
  · exact ⟨h, Nat.le_refl _⟩
  · exact ⟨h.put (by decide), credit_mono (.inl rfl) (Function.update_of_ne (Ne.symm he) ..)⟩
  · exact ⟨h.of_phase rfl (.inr rfl), credit_mono (.inr rfl) rfl⟩

theorem Paced.finish_own (ep : ReadEndpoint) (o : Receipt) (h : Paced b r)
    (htransferring : r.phase b = .transferring) : Paced b (r.finish b ep o).1 ∧
      successes b (.finish b o) + credit b (r.finish b ep o).1 ≤ credit b r := by
  have hphase := phase_finish r b ep o
  have hone : credit b r = 1 := if_pos (.inr htransferring)
  refine ⟨h.of_idle hphase, ?_⟩
  rw [hone]
  by_cases hrc : o.rc = .success
  · have hnone : credit b (r.finish b ep o).1 = 0 := by
      unfold credit
      rw [rxAttempt_success r b ep hrc, hphase, Function.update_self]
      rfl
    have hsuccess : successes b (.finish b o) = 1 := if_pos ⟨rfl, hrc⟩
    rw [hnone, hsuccess]
  · have hfailure : successes b (.finish b o) = 0 := if_neg fun h => hrc h.2
    rw [hfailure, Nat.zero_add]
    exact credit_le_one _ _

theorem Paced.finish_other {e : Byte} {ep : ReadEndpoint} (hbulk : ep.xfertype ≠ USB_ENDPOINT_XFER_BULK)
    (he : e ≠ b) (o : Receipt) (h : Paced b r) : Paced b (r.finish e ep o).1 ∧
      credit b (r.finish e ep o).1 ≤ credit b r := by
  have hphase := phase_finish r e ep o
  have hattempt := rxAttempt_other r e ep hbulk o
  have hb : (r.finish e ep o).1.phase b = r.phase b := by
    rw [hphase, Function.update_of_ne (Ne.symm he)]
  have hidle : Paced b (r.put e .idle) := h.put (by decide)
  exact ⟨hidle.of_phase hphase hattempt, credit_mono hattempt hb⟩

/-- A success is paid for by a sleep. -/
theorem Paced.step (hbulk : (eps b).xfertype = USB_ENDPOINT_XFER_BULK)
    (hothers : ∀ e, e ≠ b → (eps e).xfertype ≠ USB_ENDPOINT_XFER_BULK) (h : Paced b r)
    (hnice : r.nice ≠ 0) (hgo : go eps r m = some r') :
    Paced b r' ∧ successes b m + credit b r' ≤ sleeps b m + credit b r := by
  have hcases := go_cases hgo
  have hquiet : successes b m = 0 → sleeps b m = 0 → Paced b r' ∧ credit b r' ≤ credit b r →
      Paced b r' ∧ successes b m + credit b r' ≤ sleeps b m + credit b r := by
    intro hsuccesses hsleeps hstep
    rw [hsuccesses, hsleeps]
    exact ⟨hstep.1, Nat.add_le_add_left hstep.2 0⟩
  cases m with
  | call e =>
    by_cases he : e = b
    · subst he
      exact hquiet rfl rfl (h.enter_own hbulk hnice hcases.2)
    · exact hquiet rfl rfl (h.enter_other (hothers e he) he hcases.2)
  | wake e =>
    obtain rfl : e = b := by
      by_contra he
      exact h.others e he hcases.1
    have hone : sleeps e (.wake e) = 1 := if_pos rfl
    rw [hcases.2, hone]
    refine ⟨h.of_idle rfl, ?_⟩
    exact (Nat.zero_add _).le.trans ((credit_le_one _ _).trans (Nat.le_add_right 1 _))
  | finish e o =>
    by_cases he : e = b
    · subst he
      rw [hcases.2]
      obtain ⟨hpaced, hcredit⟩ := h.finish_own (eps e) o hcases.1
      exact ⟨hpaced, hcredit.trans (Nat.le_add_left _ _)⟩
    · refine hquiet (if_neg fun h => he h.1) rfl ?_
      rw [hcases.2]
      exact h.finish_other (hothers e he) he o
  | setNice nice =>
    refine hquiet rfl rfl ?_
    rw [show r' = { r with nice } from hcases]
    exact ⟨h.of_phase rfl (.inl rfl), credit_mono (.inl rfl) rfl⟩
  | interfaces proxy =>
    refine hquiet rfl rfl ?_
    rw [show r' = { r with proxy } from hcases]
    exact ⟨h.of_phase rfl (.inl rfl), credit_mono (.inl rfl) rfl⟩

/-- What the reader of an endpoint finds if there is no other one. -/
structure Solo (b : Byte) (r : LibusbReceiver) : Prop where
  bound : r.rxAttempt ≤ MAX_ATTEMPTS
  sleeping : r.phase b = .sleeping → r.rxAttempt = 0
  transferring : r.phase b = .transferring → r.rxAttempt ≠ 0

theorem Solo.of_idle (hbound : r.rxAttempt ≤ MAX_ATTEMPTS) (hphase : r.phase b = .idle) : Solo b r where
  bound := hbound
  sleeping h := by
    rw [hphase] at h
    cases h
  transferring h := by
    rw [hphase] at h
    cases h

theorem Solo.enter (hbulk : (eps b).xfertype = USB_ENDPOINT_XFER_BULK) (hnice : r.nice ≠ 0)
    (h : Solo b r) (henter : (r.enter b (eps b)).1 = r') :
    Solo b r' ∧ r'.rxAttempt = r.rxAttempt := by
  rcases enter_bulk hbulk hnice henter with rfl | ⟨hzero, rfl⟩ | ⟨hne, rfl⟩
  · exact ⟨h, rfl⟩
  · refine ⟨⟨h.bound, fun _ => hzero, fun ht => ?_⟩, rfl⟩
    change Function.update r.phase b .sleeping b = .transferring at ht
    rw [Function.update_self] at ht
    cases ht
  · refine ⟨⟨h.bound, fun hs => ?_, fun _ => hne⟩, rfl⟩
    change Function.update r.phase b .transferring b = .sleeping at hs
    rw [Function.update_self] at hs
    cases hs

theorem Solo.finish (hbulk : (eps b).xfertype = USB_ENDPOINT_XFER_BULK) (o : Receipt) (h : Solo b r)
    (htransferring : r.phase b = .transferring) : Solo b (r.finish b (eps b) o).1 ∧
      1 + allowance (r.finish b (eps b) o).1 ≤ allowance r := by
  have hphase : (r.finish b (eps b) o).1.phase b = .idle := by
    rw [phase_finish, Function.update_self]
  have hne := h.transferring htransferring
  have hbound := h.bound
  have hattempt : (r.finish b (eps b) o).1.rxAttempt = 0 ∨
      (r.rxAttempt + 1 ≤ MAX_ATTEMPTS ∧ (r.finish b (eps b) o).1.rxAttempt = r.rxAttempt + 1) := by
    by_cases hrc : o.rc = .success
    · exact .inl (rxAttempt_success r b (eps b) hrc)
    · rw [rxAttempt_failure r b (eps b) hbulk hrc]
      split_ifs with hmax
      · exact .inl rfl
      · exact .inr ⟨Nat.not_lt.1 hmax, rfl⟩
  unfold allowance
  rcases hattempt with hzero | ⟨hmax, hsucc⟩
  · refine ⟨Solo.of_idle (hzero.le.trans (Nat.zero_le _)) hphase, ?_⟩
    rw [if_pos hzero, if_neg hne]
    omega
  · refine ⟨Solo.of_idle (hsucc.le.trans hmax) hphase, ?_⟩
    rw [hsucc, if_neg (Nat.succ_ne_zero _), if_neg hne]
    omega

theorem Solo.step (hbulk : (eps b).xfertype = USB_ENDPOINT_XFER_BULK) (h : Solo b r)
    (hnice : r.nice ≠ 0) (halone : Alone b m) (hgo : go eps r m = some r') :
    Solo b r' ∧ attempts b m + allowance r' ≤ MAX_ATTEMPTS * sleeps b m + allowance r := by
  have hcases := go_cases hgo
  have hquiet : attempts b m = 0 → sleeps b m = 0 → Solo b r' ∧ r'.rxAttempt = r.rxAttempt →
      Solo b r' ∧ attempts b m + allowance r' ≤ MAX_ATTEMPTS * sleeps b m + allowance r := by
    intro hattempts hsleeps hstep
    rw [hattempts, hsleeps, Nat.mul_zero]
    unfold allowance
    rw [hstep.2]
    exact ⟨hstep.1, Nat.le_refl _⟩
  cases m with
  | call e =>
    obtain rfl : e = b := halone
    exact hquiet rfl rfl (h.enter hbulk hnice hcases.2)
  | wake e =>
    obtain rfl : e = b := halone
    have hone : sleeps e (.wake e) = 1 := if_pos rfl
    have hattempt : (r.awake e).rxAttempt = 1 := congrArg (· + 1) (h.sleeping hcases.1)
    rw [hcases.2, hone]
    refine ⟨Solo.of_idle (hattempt.le.trans (by decide)) (Function.update_self ..), ?_⟩
    have hfull : allowance (r.awake e) = MAX_ATTEMPTS := by
      unfold allowance
      rw [hattempt]
      rfl
    rw [hfull]
    exact (Nat.zero_add _).le.trans (Nat.le_add_right _ _)
  | finish e o =>
    obtain rfl : e = b := halone
    have hone : attempts e (.finish e o) = 1 := if_pos rfl
    rw [hcases.2, hone]
    obtain ⟨hsolo, hallowance⟩ := h.finish hbulk o hcases.1
    exact ⟨hsolo, hallowance.trans (Nat.le_add_left _ _)⟩
  | setNice nice =>
    refine hquiet rfl rfl ?_
    rw [show r' = { r with nice } from hcases]
    exact ⟨⟨h.bound, h.sleeping, h.transferring⟩, rfl⟩
  | interfaces proxy =>
    refine hquiet rfl rfl ?_
    rw [show r' = { r with proxy } from hcases]
    exact ⟨⟨h.bound, h.sleeping, h.transferring⟩, rfl⟩

/-- **What `nice` is good for.**  Where one endpoint only is a bulk one and `nice` is never 0, whatever the
readers of the others do: at no time has it had more successful transfers than its reader has slept.  Where it
has the proxy to itself, its transfers with the ones that failed are at most `MAX_ATTEMPTS` for each sleep. -/
theorem nice_throttles (eps : Byte → ReadEndpoint) (b : Byte) (proxy : DeviceProxyLibUSB) (nice : ℕ)
    (moves : List ReceiverMove) (r : LibusbReceiver)
    (hbulk : (eps b).xfertype = USB_ENDPOINT_XFER_BULK)
    (hrun : Runs.run (go eps) (new proxy nice) moves = some r)
    (hnice : Runs.Along (go eps) (fun r _ => r.nice ≠ 0) (new proxy nice) moves) :
    ((∀ e, e ≠ b → (eps e).xfertype ≠ USB_ENDPOINT_XFER_BULK) →
        (moves.map (successes b)).sum ≤ (moves.map (sleeps b)).sum) ∧
      ((∀ m ∈ moves, Alone b m) →
        (moves.map (attempts b)).sum ≤ MAX_ATTEMPTS * (moves.map (sleeps b)).sum) := by
  constructor
  · intro hothers
    have hpays : Pays (go eps) (fun r _ => r.nice ≠ 0) (Paced b) (successes b) (sleeps b) (credit b) :=
      fun _ _ _ hgo hP h => h.step hbulk hothers hP hgo
    exact hpays.spent_le hnice hrun ⟨fun _ => rfl, fun _ _ => ReceivePhase.noConfusion⟩ rfl (Nat.zero_le _)
  · intro halone
    have hpays : Pays (go eps) (fun r m => r.nice ≠ 0 ∧ Alone b m) (Solo b) (attempts b)
        (fun m => MAX_ATTEMPTS * sleeps b m) allowance :=
      fun _ _ _ hgo hP h => h.step hbulk hP.1 hP.2 hgo
    rw [← List.sum_map_mul_left]
    exact hpays.spent_le (hnice.and_forall halone) hrun (Solo.of_idle (Nat.zero_le _) rfl) rfl (Nat.zero_le _)

/-- A bulk endpoint and interrupt ones. -/
def diskEndpoints (e : Byte) : ReadEndpoint := if e = 0x81 then ⟨2, 512⟩ else ⟨3, 8⟩

/-- Every endpoint is of a claimed interface. -/
def allClaimed : DeviceProxyLibUSB := ⟨true, fun _ => ⟨0, true, true⟩⟩

def diskReads : List ReceiverMove :=
  [.call 0x81, .wake 0x81, .call 0x81, .call 0x83, .finish 0x81 ⟨.success, [1, 2]⟩,
    .finish 0x83 ⟨.success, [3]⟩, .call 0x81]

theorem nice_throttles_diskReads :
    (diskReads.map (successes 0x81)).sum = 1 ∧
      (diskReads.map (successes 0x81)).sum ≤ (diskReads.map (sleeps 0x81)).sum := by
  have hrun := (Option.some_get (x := Runs.run (go diskEndpoints) (new allClaimed 50) diskReads) rfl).symm
  have hnice : Runs.Along (go diskEndpoints) (fun r _ => r.nice ≠ 0) (new allClaimed 50) diskReads := by
    decide
  refine ⟨rfl, (nice_throttles diskEndpoints 0x81 allClaimed 50 diskReads _ rfl hrun hnice).1 ?_⟩
  intro e he
  unfold diskEndpoints
  rw [if_neg he]
  decide

/-- With a second bulk endpoint the reader of the first need not sleep again. -/
example : (Runs.run (go fun _ => ⟨2, 512⟩) (new allClaimed 50)
    [.call 0x81, .wake 0x81, .call 0x81, .call 0x82, .finish 0x81 ⟨.success, [1]⟩,
      .finish 0x82 ⟨.pipe, []⟩, .call 0x81]).map (fun r => r.phase 0x81) = some .transferring := rfl

end LibusbReceiver

/-! ## From the device to the host -/

/-- The relay of one IN endpoint with the proxies on both sides of it. -/
structure DeviceInbound where
  inbound : InboundRelay
  receiver : LibusbReceiver

/-- A move of the relay with the gadget proxy, or of the readers in the libusb proxy: this endpoint's or
another's. -/
inductive DeviceInboundMove
  | inbound (m : InboundMove)
  | receiver (m : ReceiverMove)

def ReceiverMove.endpoint? : ReceiverMove → Option Byte
  | call endpoint | wake endpoint | finish endpoint _ => some endpoint
  | _ => none

namespace DeviceInbound

def new (endpoint : Byte) (filters : List Plugin) (opened : List Byte) (proxy : DeviceProxyLibUSB)
    (nice : ℕ) : DeviceInbound where
  inbound := .new endpoint filters opened
  receiver := .new proxy nice

def endpoint (s : DeviceInbound) : Byte := s.inbound.relay.endpoint

def step (charSigned : Bool) (eps : Byte → ReadEndpoint) (s : DeviceInbound) :
    DeviceInboundMove → Option DeviceInbound
  | .inbound m =>
    match m with
    | .relay (.receive ..) => none
    | m => (s.inbound.step charSigned m).map fun inbound => { s with inbound }
  | .receiver m =>
    (s.receiver.step eps m).bind fun r =>
      if m.endpoint? ≠ some s.endpoint then some { s with receiver := r.1 }
      else match r.2 with
        | none =>
          if s.inbound.relay.reader.pc = .receiving then some { s with receiver := r.1 } else none
        | some answer =>
          (s.inbound.step charSigned (.relay (.receive answer.1 answer.2))).map fun inbound =>
            { inbound, receiver := r.1 }

/-- The move of the relay in a move of the system. -/
def toward (eps : Byte → ReadEndpoint) (s : DeviceInbound) : DeviceInboundMove → Option InboundMove
  | .inbound m => some m
  | .receiver m =>
    if m.endpoint? ≠ some s.endpoint then none
    else ((s.receiver.step eps m).bind Prod.snd).map fun answer => .relay (.receive answer.1 answer.2)

/-- What the device brings with a transfer. -/
def transferred (endpoint : Byte) : DeviceInboundMove → List (List Byte)
  | .receiver (.finish e o) => if e = endpoint ∧ o.rc = .success then [o.data] else []
  | _ => []

variable {charSigned : Bool} {eps : Byte → ReadEndpoint} {s t : DeviceInbound} {m : DeviceInboundMove}

theorem step_toward (h : s.step charSigned eps m = some t) :
    match s.toward eps m with
    | none => t.inbound = s.inbound
    | some im => s.inbound.step charSigned im = some t.inbound := by
  cases m with
  | inbound m =>
    have hstep : (s.inbound.step charSigned m).map (fun inbound => { s with inbound }) = some t := by
      cases m with
      | relay m => cases m <;> first | exact h | cases h
      | _ => exact h
    obtain ⟨inbound, hinbound, rfl⟩ := Option.map_eq_some_iff.1 hstep
    exact hinbound
  | receiver m =>
    obtain ⟨⟨receiver, answer⟩, hr, hrest⟩ := Option.bind_eq_some_iff.1 h
    have htoward : s.toward eps (.receiver m) = if m.endpoint? ≠ some s.endpoint then none
        else answer.map fun answer => .relay (.receive answer.1 answer.2) := by
      unfold toward
      dsimp only
      rw [hr]
      rfl
    rw [htoward]
    by_cases hown : m.endpoint? ≠ some s.endpoint
    · rw [if_pos hown] at hrest ⊢
      obtain rfl := Option.some.inj hrest
      rfl
    · rw [if_neg hown] at hrest ⊢
      cases answer with
      | none =>
        dsimp only at hrest
        split_ifs at hrest
        obtain rfl := Option.some.inj hrest
        rfl
      | some answer =>
        obtain ⟨inbound, hinbound, rfl⟩ := Option.map_eq_some_iff.1 hrest
        exact hinbound

theorem enter_answer {r : LibusbReceiver} {e : Byte} {ep : ReadEndpoint} {answer : ReceiveAnswer}
    (h : (r.enter e ep).2 = some answer) : answer = (none, 0) := by
  unfold LibusbReceiver.enter at h
  split_ifs at h <;> exact (Option.some.inj h).symm

/-- What a call returns is what its transfer brought, and no more than fits in a packet. -/
theorem answer_transferred {r r' : LibusbReceiver} {m : ReceiverMove} {answer : ReceiveAnswer} {endpoint : Byte}
    (h : r.step eps m = some (r', some answer)) (hown : m.endpoint? = some endpoint) :
    receivedPacket endpoint answer.1 answer.2 =
        (transferred endpoint (.receiver m)).map (InboundRelay.packet endpoint) ∧
      ∀ bs ∈ transferred endpoint (.receiver m), bs.length < 2 ^ 16 := by
  cases m with
  | call e =>
    simp only [LibusbReceiver.step] at h
    split_ifs at h
    rw [enter_answer (congrArg Prod.snd (Option.some.inj h))]
    exact ⟨rfl, fun _ => nofun⟩
  | wake e =>
    simp only [LibusbReceiver.step] at h
    split_ifs at h
    cases Option.some.inj h
    exact ⟨rfl, fun _ => nofun⟩
  | finish e o =>
    obtain rfl : e = endpoint := Option.some.inj hown
    simp only [LibusbReceiver.step] at h
    split_ifs at h with hfits
    have hanswer : (r.finish e (eps e) o).2 = answer :=
      Option.some.inj (congrArg Prod.snd (Option.some.inj h))
    rw [← hanswer]
    unfold transferred
    dsimp only
    by_cases hrc : o.rc = .success
    · rw [LibusbReceiver.answer_success r e (eps e) hrc, if_pos ⟨rfl, hrc⟩]
      refine ⟨InboundRelay.receivedPacket_some e o.data, fun bs hbs => ?_⟩
      rw [List.mem_singleton.1 hbs]
      exact Nat.lt_of_le_of_lt hfits.2 (UInt16.toNat_lt _)
    · rw [LibusbReceiver.answer_failure r e (eps e) hrc, if_neg fun h => hrc h.2]
      exact ⟨rfl, fun _ => nofun⟩
  | setNice nice => cases h
  | interfaces proxy => cases h

/-- What the relay and the proxy behind it have of what the device brought so far. -/
structure Carries (endpoint : Byte) (s : DeviceInbound) (past : List (List Byte)) : Prop where
  inbound : InboundRelay.Carries endpoint s.inbound (past.map (InboundRelay.packet endpoint))
  bound : ∀ bs ∈ past, bs.length < 2 ^ 16

theorem transferred_of_no_answer {r r' : LibusbReceiver} {m : ReceiverMove}
    (h : r.step eps m = some (r', none)) (endpoint : Byte) : transferred endpoint (.receiver m) = [] := by
  cases m with
  | finish e o =>
    simp only [LibusbReceiver.step] at h
    split_ifs at h
    cases congrArg Prod.snd (Option.some.inj h)
  | _ => rfl

theorem transferred_foreign {m : ReceiverMove} {endpoint : Byte} (h : m.endpoint? ≠ some endpoint) :
    transferred endpoint (.receiver m) = [] := by
  cases m with
  | finish e o => exact if_neg fun hown => h (congrArg some hown.1)
  | _ => rfl

theorem arrivals_toward {endpoint : Byte} (hendpoint : s.endpoint = endpoint)
    (h : s.step charSigned eps m = some t) :
    ((s.toward eps m).elim [] (InboundRelay.arrivals endpoint) =
        (transferred endpoint m).map (InboundRelay.packet endpoint)) ∧
      ∀ bs ∈ transferred endpoint m, bs.length < 2 ^ 16 := by
  cases m with
  | inbound m =>
    refine ⟨?_, fun _ => nofun⟩
    cases m with
    | relay m => cases m <;> first | rfl | cases h
    | _ => rfl
  | receiver m =>
    obtain ⟨⟨receiver, answer⟩, hr, -⟩ := Option.bind_eq_some_iff.1 h
    unfold toward
    dsimp only
    rw [hr, hendpoint, Option.bind_some]
    by_cases hown : m.endpoint? = some endpoint
    · rw [if_neg (not_not.2 hown)]
      cases answer with
      | none =>
        rw [transferred_of_no_answer hr]
        exact ⟨rfl, fun _ => nofun⟩
      | some answer => exact answer_transferred hr hown
    · rw [if_pos hown, transferred_foreign hown]
      exact ⟨rfl, fun _ => nofun⟩

theorem Carries.step {endpoint : Byte} {past : List (List Byte)} (hin : endpoint &&& 0x80 ≠ 0)
    (h : s.step charSigned eps m = some t)
    (hP : ∀ im ∈ s.toward eps m, s.inbound.Unhindered im ∧ s.inbound.Accepts charSigned im)
    (hc : Carries endpoint s past) : Carries endpoint t (past ++ transferred endpoint m) := by
  obtain ⟨harrivals, hbound⟩ := arrivals_toward hc.inbound.thins.endpoint h
  refine ⟨?_, fun bs hbs => (List.mem_append.1 hbs).elim (hc.bound bs) (hbound bs)⟩
  have htoward := step_toward h
  rw [List.map_append, ← harrivals]
  cases him : s.toward eps m with
  | none =>
    rw [him] at htoward
    rw [htoward, Option.elim_none, List.append_nil]
    exact hc.inbound
  | some im =>
    rw [him] at htoward
    exact hc.inbound.step hin htoward (hP im him)

/-- **From the device to the host, with both proxies.**  On an IN endpoint the host opened, in a run with room
in the lane, nothing injected and every write of the gadget proxy accepted and completed without an error,
whatever the other endpoints' readers and writers do and however `nice`, `rxAttempt` and the claimed interfaces
change, and as long as neither thread has finished: of the buffers that successful transfers brought, the reader holds the last or
none, and the others, in their order and byte for byte, the host has been sent, the writer holds or the queue,
but for empty ones directly behind another one.  With the reader in its call, the writer waiting and nothing in
the queue, the host has been sent all of them. -/
theorem device_to_host (charSigned : Bool) (eps : Byte → ReadEndpoint) (endpoint : Byte)
    (filters : List Plugin) (opened : List Byte) (proxy : DeviceProxyLibUSB) (nice : ℕ)
    (moves : List DeviceInboundMove) (s : DeviceInbound)
    (hin : endpoint &&& 0x80 ≠ 0) (hopen : endpoint &&& 0x0f ∈ opened)
    (hrun : Runs.run (step charSigned eps) (new endpoint filters opened proxy nice) moves = some s)
    (hP : Runs.Along (step charSigned eps)
      (fun t m => ∀ im ∈ t.toward eps m, t.inbound.Unhindered im ∧ t.inbound.Accepts charSigned im)
      (new endpoint filters opened proxy nice) moves)
    (hreader : s.inbound.relay.reader.pc ≠ .finished) (hwriter : s.inbound.relay.writer.pc ≠ .finished) :
    (∃ decided, moves.flatMap (transferred endpoint) =
        decided ++ (s.inbound.relay.reader.pc.held endpoint).map Packet.payload ∧
      Thinned (· = []) decided (s.inbound.writers.host.taken (endpoint &&& 0x0f) ++
        (s.inbound.relay.writer.held ++ s.inbound.relay.waiting).map Packet.payload)) ∧
    (s.inbound.relay.reader.pc = .receiving → s.inbound.relay.writer.pc = .dequeuing →
      s.inbound.relay.traffic.queue.q = [] → Thinned (· = []) (moves.flatMap (transferred endpoint))
        ((s.inbound.writers.host.transfers (endpoint &&& 0x0f)).map Prod.fst)) := by
  have hc : Carries endpoint s ([] ++ moves.flatMap (transferred endpoint)) :=
    Runs.invariant_of_history (Carries endpoint) (fun _ _ _ _ h hP hc => hc.step hin h hP) hP hrun
      ⟨InboundRelay.carries_new hopen filters, fun _ => nofun⟩
  rw [List.nil_append] at hc
  have htransmit : ∀ p ∈ (moves.flatMap (transferred endpoint)).map (InboundRelay.packet endpoint),
      p.transmit = true := by
    intro p hp
    obtain ⟨bs, -, rfl⟩ := List.mem_map.1 hp
    rfl
  have hdelivered := hc.inbound.delivered htransmit hreader hwriter
  rwa [InboundRelay.payload_packets endpoint hc.bound] at hdelivered

/-- A block read from a disk: the reader sleeps, a transfer fails and the next one brings two bytes. -/
def blockRead : List DeviceInboundMove :=
  [.inbound (.relay .read), .receiver (.call 0x81), .receiver (.wake 0x81), .inbound (.relay .read),
    .inbound (.relay .read), .receiver (.call 0x81), .receiver (.finish 0x81 ⟨.pipe, [9]⟩),
    .inbound (.relay .read), .inbound (.relay .read), .receiver (.call 0x81),
    .receiver (.finish 0x81 ⟨.success, [7, 8]⟩)] ++
  ([.relay .read, .relay .read, .write .accepted, .write .accepted, .write .accepted, .write .accepted,
    .write .accepted, .wait ⟨500, some (.wrote 2), false, false⟩, .write .accepted, .relay .read] :
      List InboundMove).map .inbound

theorem device_to_host_blockRead :
    ∃ s, Runs.run (step true LibusbReceiver.diskEndpoints)
        (new 0x81 [] [1] LibusbReceiver.allClaimed 50) blockRead = some s ∧
      (s.inbound.writers.host.transfers 1).map Prod.fst = [[7, 8]] ∧
      Thinned (· = []) (blockRead.flatMap (transferred 0x81))
        ((s.inbound.writers.host.transfers 1).map Prod.fst) := by
  have hrun := (Option.some_get (x := Runs.run (step true LibusbReceiver.diskEndpoints)
    (new 0x81 [] [1] LibusbReceiver.allClaimed 50) blockRead) rfl).symm
  have hP : Runs.Along (step true LibusbReceiver.diskEndpoints) (fun t m =>
      ∀ im ∈ t.toward LibusbReceiver.diskEndpoints m, t.inbound.Unhindered im ∧ t.inbound.Accepts true im)
      (new 0x81 [] [1] LibusbReceiver.allClaimed 50) blockRead := by
    decide
  obtain ⟨-, hall⟩ := device_to_host true LibusbReceiver.diskEndpoints 0x81 [] [1]
    LibusbReceiver.allClaimed 50 blockRead _ (by decide) (by decide) hrun hP (by decide) (by decide)
  exact ⟨_, hrun, rfl, hall rfl rfl rfl⟩

end DeviceInbound

end UsbProxy
