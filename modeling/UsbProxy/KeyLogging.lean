import Mathlib.Data.List.GetD
import UsbProxy.Filters
import UsbProxy.Library.Runs

/-!
# What the key logger logs

`PacketFilter_KeyLogger` takes a key as held if its code stands anywhere in the report before, the
modifiers and the reserved byte included.  `logs_iff` says on which sequences of reports it logs exactly
the keys newly pressed.
-/

namespace UsbProxy

/-- A report of a keyboard in boot protocol: modifiers, a reserved byte, six key codes. -/
structure KeyReport where
  bytes : List Byte
  length_eq : bytes.length = 8

namespace KeyReport

def packet (r : KeyReport) : Packet := .new 0x81 (some r.bytes) 8

/-- The report of no keys. -/
def zero : KeyReport := ⟨List.replicate 8 0, rfl⟩

/-- Slots 2 to 7. -/
def keys (r : KeyReport) : List Byte := r.bytes.drop 2

/-- Slots 0 and 1. -/
def mods (r : KeyReport) : List Byte := r.bytes.take 2

end KeyReport

/-- An access to one of the maps of 0x66 entries. -/
inductive KeyMapRead
  | keyMap (i : ℕ)
  | shiftKeyMap (i : ℕ)
  deriving DecidableEq, Repr

def KeyMapRead.index : KeyMapRead → ℕ
  | keyMap i | shiftKeyMap i => i

/-- The entries `keyPressed` looks at, by which entries of `shiftKeyMap` are set. -/
def keyPressed (shiftKey : ℕ → Bool) (keyCode mods : Byte) : List KeyMapRead :=
  if keyCode ≠ 0 then
    if mods &&& 0x22 ≠ 0 then
      if shiftKey keyCode.toNat then [.shiftKeyMap keyCode.toNat]
      else [.shiftKeyMap keyCode.toNat, .keyMap keyCode.toNat]
    else [.keyMap keyCode.toNat]
  else []

namespace KeyLogger

/-- A key logger before the first report. -/
def new : KeyLogger := { lastReport := List.replicate 8 0, pressed := [] }

def step (charSigned : Bool) (k : KeyLogger) (r : KeyReport) : Option KeyLogger :=
  some (k.filterPacket charSigned r.packet)

/-- The calls of `keyPressed` for one report. -/
def calls (charSigned : Bool) (k : KeyLogger) (r : KeyReport) : List (Byte × Byte) :=
  (k.filterPacket charSigned r.packet).pressed.drop k.pressed.length

/-- Two reports, one behind the other, and the calls made for the second. -/
structure Logged where
  last : List Byte
  report : KeyReport
  calls : List (Byte × Byte)

def logged (charSigned : Bool) (k : KeyLogger) (r : KeyReport) : Logged :=
  { last := k.lastReport, report := r, calls := k.calls charSigned r }

/-- A call for every newly pressed key and no other key, and no access outside of the maps. -/
structure Logged.Exact (shiftKey : ℕ → Bool) (l : Logged) : Prop where
  keys : (l.calls.map Prod.fst).filter (fun c => c ≠ 0) =
    l.report.keys.filter fun c => c ≠ 0 ∧ c ∉ l.last.drop 2
  inside : ∀ call ∈ l.calls, ∀ read ∈ keyPressed shiftKey call.1 call.2, read.index < 0x66

/-- No key code outside of the maps, and no newly pressed one that is the modifiers or the reserved byte
of the report before. -/
def Distinct (last : List Byte) (report : KeyReport) : Prop :=
  ∀ c ∈ report.keys, c < 0x66 ∧ (c ≠ 0 → c ∉ last.drop 2 → c ∉ last.take 2)

variable {charSigned : Bool} {k : KeyLogger} {r : KeyReport} {shiftKey : ℕ → Bool} {c : Byte}

/-! ## One report -/

theorem map_byte (r : KeyReport) : (List.range 8).map r.packet.byte = r.bytes := by
  refine List.ext_getElem (by rw [List.length_map, List.length_range, r.length_eq]) fun i hi hi' => ?_
  rw [List.getElem_map, List.getElem_range]
  exact List.getD_eq_getElem _ _ hi'

theorem lastReport_filterPacket (charSigned : Bool) (k : KeyLogger) (r : KeyReport) :
    (k.filterPacket charSigned r.packet).lastReport = r.bytes :=
  map_byte r

theorem map_byte_keys (r : KeyReport) : (List.range' 2 6).map r.packet.byte = r.keys := by
  have hdrop : List.range' 2 6 = (List.range 8).drop 2 := rfl
  rw [hdrop, List.map_drop, map_byte]
  rfl

theorem charInt_eq_iff (hc : c < 0x80) (b : Byte) : (c.toNat : ℤ) = charInt charSigned b ↔ b = c := by
  have hlt : c.toNat < 128 := UInt8.lt_iff_toNat_lt.1 hc
  have hbyte := b.toNat_lt
  rw [← UInt8.toNat_inj]
  cases charSigned with
  | false =>
    show (c.toNat : ℤ) = b.toNat ↔ _
    omega
  | true =>
    rw [charInt_signed]
    split_ifs <;> omega

/-- A code below 0x80 is found where it stands, whether `char` is signed or not. -/
theorem found_iff (hlen : k.lastReport.length = 8) (hc : c < 0x80) :
    k.found charSigned c = true ↔ c ∈ k.lastReport := by
  have hmap : (List.range 8).map (k.lastReport.getD · 0) = k.lastReport := by
    refine List.ext_getElem (by rw [List.length_map, List.length_range, hlen]) fun i hi hi' => ?_
    rw [List.getElem_map, List.getElem_range]
    exact List.getD_eq_getElem _ _ hi'
  have hfound : ((List.range 8).map (k.lastReport.getD · 0)).any
      (fun b => (c.toNat : ℤ) == charInt charSigned b) = k.found charSigned c := by
    rw [List.any_map]
    rfl
  rw [← hfound, hmap, List.any_eq_true]
  simp only [beq_iff_eq, charInt_eq_iff hc, exists_eq_right]

theorem calls_eq (charSigned : Bool) (k : KeyLogger) (r : KeyReport) :
    (k.calls charSigned r).map Prod.fst =
      if (r.keys.filter fun c => !k.found charSigned c) = [] then [0]
      else r.keys.filter fun c => !k.found charSigned c := by
  unfold calls filterPacket
  dsimp only
  rw [List.drop_left, map_byte_keys]
  by_cases hnil : (r.keys.filter fun c => !k.found charSigned c) = []
  · rw [if_pos hnil, hnil]
    rfl
  · rw [if_neg hnil, if_neg (by rw [List.isEmpty_iff]; exact hnil), List.map_map]
    exact List.map_id _

theorem filter_calls (charSigned : Bool) (k : KeyLogger) (r : KeyReport) :
    ((k.calls charSigned r).map Prod.fst).filter (fun c => c ≠ 0) =
      r.keys.filter fun c => c ≠ 0 ∧ ¬ k.found charSigned c = true := by
  have hsplit : (r.keys.filter fun c => c ≠ 0 ∧ ¬ k.found charSigned c = true) =
      (r.keys.filter fun c => !k.found charSigned c).filter fun c => c ≠ 0 := by
    rw [List.filter_filter]
    refine List.filter_congr fun c _ => ?_
    simp
  rw [calls_eq, hsplit]
  split_ifs with hnil
  · rw [hnil]
    rfl
  · rfl

theorem keyPressed_inside_iff (shiftKey : ℕ → Bool) (keyCode mods : Byte) :
    (∀ read ∈ keyPressed shiftKey keyCode mods, read.index < 0x66) ↔ keyCode = 0 ∨ keyCode < 0x66 := by
  rw [UInt8.lt_iff_toNat_lt]
  unfold keyPressed
  by_cases h0 : keyCode = 0
  · simp [h0]
  · rw [if_pos h0, or_iff_right h0]
    split_ifs <;> simp [KeyMapRead.index]

theorem filter_eq_filter_iff {α : Type*} {p q : α → Bool} {l : List α} :
    l.filter p = l.filter q ↔ ∀ a ∈ l, p a = true ↔ q a = true := by
  constructor
  · intro h a ha
    have hp : a ∈ l.filter p ↔ p a = true := by rw [List.mem_filter, and_iff_right ha]
    have hq : a ∈ l.filter q ↔ q a = true := by rw [List.mem_filter, and_iff_right ha]
    rw [← hp, ← hq, h]
  · exact fun h => List.filter_congr fun a ha => Bool.eq_iff_iff.2 (h a ha)

/-- What an exact log says of a single code. -/
theorem exact_iff (shiftKey : ℕ → Bool) (charSigned : Bool) (k : KeyLogger) (r : KeyReport) :
    (k.logged charSigned r).Exact shiftKey ↔
      ∀ c ∈ r.keys, c ≠ 0 →
        (¬ k.found charSigned c = true ↔ c ∉ k.lastReport.drop 2) ∧
          (¬ k.found charSigned c = true → c < 0x66) := by
  have hkeys : ((k.calls charSigned r).map Prod.fst).filter (fun c => c ≠ 0) =
      (r.keys.filter fun c => c ≠ 0 ∧ c ∉ k.lastReport.drop 2) ↔
        ∀ c ∈ r.keys, c ≠ 0 → (¬ k.found charSigned c = true ↔ c ∉ k.lastReport.drop 2) := by
    rw [filter_calls, filter_eq_filter_iff]
    refine forall₂_congr fun c _ => ?_
    simp only [decide_eq_true_eq, and_congr_right_iff]
  have hinside : (∀ call ∈ k.calls charSigned r, ∀ read ∈ keyPressed shiftKey call.1 call.2,
      read.index < 0x66) ↔ ∀ c ∈ r.keys, c ≠ 0 → ¬ k.found charSigned c = true → c < 0x66 := by
    have hcodes : (∀ call ∈ k.calls charSigned r, call.1 = 0 ∨ call.1 < 0x66) ↔
        ∀ c ∈ ((k.calls charSigned r).map Prod.fst).filter (fun c => c ≠ 0), c < 0x66 := by
      simp only [List.mem_filter, decide_eq_true_eq, and_imp, List.forall_mem_map, or_iff_not_imp_left]
    simp only [keyPressed_inside_iff]
    rw [hcodes, filter_calls]
    simp only [List.mem_filter, decide_eq_true_eq, and_imp]
  constructor
  · rintro ⟨h, h'⟩ c hc h0
    exact ⟨hkeys.1 h c hc h0, hinside.1 h' c hc h0⟩
  · intro h
    exact ⟨hkeys.2 fun c hc h0 => (h c hc h0).1, hinside.2 fun c hc h0 => (h c hc h0).2⟩

/-! ## A run -/

/-- The report before had no code outside of the maps. -/
structure InMaps (k : KeyLogger) : Prop where
  length_eq : k.lastReport.length = 8
  keys : ∀ c ∈ k.lastReport.drop 2, c < 0x66

theorem lt_of_lt_maps (h : c < 0x66) : c < 0x80 :=
  UInt8.lt_trans h (by decide)

theorem exact_iff_distinct (h : k.InMaps) :
    (k.logged charSigned r).Exact shiftKey ↔ Distinct k.lastReport r := by
  rw [exact_iff]
  refine forall₂_congr fun c _ => ?_
  have hparts : c ∈ k.lastReport ↔ c ∈ k.lastReport.take 2 ∨ c ∈ k.lastReport.drop 2 := by
    rw [← List.mem_append, List.take_append_drop]
  constructor
  · intro hc
    by_cases h0 : c = 0
    · exact ⟨by rw [h0]; decide, fun hne => absurd h0 hne⟩
    · obtain ⟨hnew, hin⟩ := hc h0
      have hlt : c < 0x66 := by
        by_cases hheld : c ∈ k.lastReport.drop 2
        · exact h.keys c hheld
        · exact hin (hnew.2 hheld)
      refine ⟨hlt, fun _ hheld hmods => ?_⟩
      exact hnew.2 hheld ((found_iff h.length_eq (lt_of_lt_maps hlt)).2 (hparts.2 (.inl hmods)))
  · rintro ⟨hlt, hmods⟩ h0
    refine ⟨?_, fun _ => hlt⟩
    rw [found_iff h.length_eq (lt_of_lt_maps hlt), hparts, not_or]
    exact ⟨And.right, fun hheld => ⟨hmods h0 hheld, hheld⟩⟩

theorem inMaps_step (h : Distinct k.lastReport r) : (k.filterPacket charSigned r.packet).InMaps := by
  refine ⟨?_, ?_⟩
  · rw [lastReport_filterPacket, r.length_eq]
  · rw [lastReport_filterPacket]
    exact fun c hc => (h c hc).1

theorem along_iff_isChain (charSigned : Bool) {k : KeyLogger} {last : KeyReport}
    (h : k.lastReport = last.bytes) (reports : List KeyReport) :
    Runs.Along (step charSigned) (fun k r => Distinct k.lastReport r) k reports ↔
      List.IsChain (fun last r => Distinct last.bytes r) (last :: reports) := by
  induction reports generalizing k last with
  | nil => exact iff_of_true trivial (List.IsChain.singleton last)
  | cons r reports ih =>
    rw [List.isChain_cons_cons, Runs.Along, h]
    refine and_congr_right fun _ => ?_
    rw [← ih (lastReport_filterPacket charSigned k r)]
    exact ⟨fun hall => hall _ rfl, fun hrest t ht => Option.some.inj ht ▸ hrest⟩

/-- **When the log is exact.**  A run of reports from an all-zero one: if no key code is outside of the
maps, and no newly pressed one is the modifiers or the reserved byte of the report before. -/
theorem logs_iff (shiftKey : ℕ → Bool) (charSigned : Bool) (reports : List KeyReport) :
    (∀ l ∈ Runs.outputs (step charSigned) (logged charSigned) new reports, l.Exact shiftKey) ↔
      List.IsChain (fun last r => Distinct last.bytes r) (KeyReport.zero :: reports) := by
  have hnew : new.InMaps := by
    refine ⟨rfl, fun c hc => ?_⟩
    rw [List.eq_of_mem_replicate (n := 6) hc]
    decide
  rw [← along_iff_isChain charSigned (k := new) rfl]
  refine Runs.outputs_forall_iff InMaps ?_ (fun k r hk => exact_iff_distinct hk) hnew reports
  intro k r k' hstep hdistinct _
  exact Option.some.inj hstep ▸ inMaps_step hdistinct

/-- Left control and left alt held, which are 0x05, and then "b" pressed. -/
theorem logs_fails :
    ¬ ∀ l ∈ Runs.outputs (step true) (logged true) new
        [⟨[5, 0, 0, 0, 0, 0, 0, 0], rfl⟩, ⟨[5, 0, 5, 0, 0, 0, 0, 0], rfl⟩], l.Exact fun _ => true := by
  intro h
  have hexact := (h _ (List.mem_cons_of_mem _ List.mem_cons_self)).keys
  revert hexact
  decide

end KeyLogger

end UsbProxy
