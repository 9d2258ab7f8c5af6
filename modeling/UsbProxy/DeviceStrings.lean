import Mathlib.Data.Finset.Card
import Mathlib.Data.List.GetD
import Mathlib.Data.List.TakeDrop
import UsbProxy.Library.KeyedRows
import UsbProxy.Library.Runs
import UsbProxy.Packet

/-!
# The strings of a device

`Device::strings` is an array of null-terminated arrays of `USBString` pointers, one for each string
index; the language list is the text of string zero, the first entry of the first of them.  Pointers
are numbers and the objects behind them a function of these, so that one object may stand in two
slots.
-/

namespace UsbProxy

open KeyedRows

/-- `usb_string_descriptor`, with the words of its block behind the header. -/
structure StringDescriptor where
  bLength : Byte
  bDescriptorType : Byte
  wData : List UInt16
  deriving DecidableEq, Repr

structure USBString where
  index : Byte
  languageId : UInt16
  descriptor : StringDescriptor
  deriving DecidableEq, Repr

namespace USBString

/-- `((descriptor->bLength)>>1)-1`, narrowed to a byte. -/
def getCharCount (s : USBString) : Byte := (s.descriptor.bLength >>> 1) - 1

/-- `append_char`.  The index `(len>>1)-2` is -1 for a block of less than two bytes: the word there
is the header. -/
def appendChar (s : USBString) (u : UInt16) : USBString :=
  if s.index ≠ 0 ∨ s.languageId ≠ 0 then s
  else
    let len := s.descriptor.bLength.toNat + 2
    if len < 4 then
      { s with descriptor :=
        ⟨UInt8.ofNat (u.toNat % 256), UInt8.ofNat (u.toNat / 256), []⟩ }
    else
      { s with descriptor :=
        { s.descriptor with
          bLength := UInt8.ofNat len
          wData := s.descriptor.wData.takeD (len / 2 - 2) 0 ++ [u] } }

@[simp] theorem index_appendChar (s : USBString) (u : UInt16) : (s.appendChar u).index = s.index := by
  unfold appendChar
  dsimp only
  split_ifs <;> rfl

@[simp] theorem languageId_appendChar (s : USBString) (u : UInt16) :
    (s.appendChar u).languageId = s.languageId := by
  unfold appendChar
  dsimp only
  split_ifs <;> rfl

end USBString

abbrev USBStringPtr := ℕ

structure DeviceStrings where
  objects : USBStringPtr → USBString
  /-- How many objects were made; their pointers are the numbers below. -/
  made : ℕ
  strings : List (Option (List USBStringPtr))
  proxy : Bool

namespace DeviceStrings

/-- What the constructors leave before they add further strings: string zero, with the array as long
as the indices of the device descriptor ask for.  Without a proxy that is one entry, and the
descriptor is that of `{0x0409, 0}`. -/
def new (proxy : Bool) (maxStringIdx : Byte) (zero : StringDescriptor) : DeviceStrings where
  objects := fun _ => ⟨0, 0, zero⟩
  made := 1
  strings := some [0] :: List.replicate maxStringIdx.toNat none
  proxy := proxy

def maxStringIdx (d : DeviceStrings) : ℕ := d.strings.length - 1

/-- `strings[0][0]`. -/
def zero (d : DeviceStrings) : Option USBStringPtr := (row d.strings 0).head?

/-- `strings[0][0]->get_descriptor()->wData`, as far as it is read. -/
def languageAt (d : DeviceStrings) (i : ℕ) : UInt16 :=
  match d.zero with
  | none => 0
  | some z => (d.objects z).descriptor.wData.getD i 0

def getLanguageCount (d : DeviceStrings) : Byte :=
  match d.zero with
  | none => 0
  | some z => (d.objects z).getCharCount

def getLanguageByIndex (d : DeviceStrings) (index : Byte) : UInt16 :=
  if d.getLanguageCount ≤ index then 0 else d.languageAt index.toNat

def languages (d : DeviceStrings) : List UInt16 :=
  (List.range d.getLanguageCount.toNat).map d.languageAt

def addLanguage (d : DeviceStrings) (languageId : UInt16) : DeviceStrings :=
  if languageId ∈ d.languages then d
  else match d.zero with
    | none => d
    | some z =>
      { d with objects := Function.update d.objects z ((d.objects z).appendChar languageId) }

def languageOf (d : DeviceStrings) (p : USBStringPtr) : UInt16 := (d.objects p).languageId

def indexOf (d : DeviceStrings) (p : USBStringPtr) : ℕ := (d.objects p).index.toNat

/-- `add_string(USBString*)`.  The loop over `strings[index]` is `KeyedRows.file`: it replaces every
string of the language, goes on to the null entry and appends there in any case. -/
def addString (d : DeviceStrings) (string : USBStringPtr) : DeviceStrings :=
  let index := (d.objects string).index
  let languageId := (d.objects string).languageId
  let d := if index ≠ 0 ∨ languageId ≠ 0 then d.addLanguage languageId else d
  { d with strings := store d.languageOf d.strings index.toNat string }

/-- `if (!languageId&&index) {languageId=strings[0][0]->get_descriptor()->wData[0];}`. -/
def askedLanguage (d : DeviceStrings) (index : Byte) (languageId : UInt16) : UInt16 :=
  if languageId = 0 ∧ index ≠ 0 then d.languageAt 0 else languageId

def getString (d : DeviceStrings) (index : Byte) (languageId : UInt16) : Option USBStringPtr :=
  if d.maxStringIdx < index.toNat then none
  else
    (row d.strings index.toNat).find? fun p => d.languageOf p = d.askedLanguage index languageId

/-! ## What `add_string` changes -/

section AddString

variable {d : DeviceStrings}

theorem addLanguage_keys (d : DeviceStrings) (l : UInt16) (p : USBStringPtr) :
    ((d.addLanguage l).objects p).index = (d.objects p).index ∧
      ((d.addLanguage l).objects p).languageId = (d.objects p).languageId := by
  unfold addLanguage
  split_ifs
  · exact ⟨rfl, rfl⟩
  · cases d.zero with
    | none => exact ⟨rfl, rfl⟩
    | some z =>
      by_cases hp : p = z
      · subst hp
        simp
      · simp [Function.update_of_ne hp]

theorem addLanguage_frame (d : DeviceStrings) (l : UInt16) :
    (d.addLanguage l).strings = d.strings ∧ (d.addLanguage l).made = d.made ∧
      (d.addLanguage l).proxy = d.proxy := by
  unfold addLanguage
  split_ifs
  · exact ⟨rfl, rfl, rfl⟩
  · cases d.zero <;> exact ⟨rfl, rfl, rfl⟩

/-- The device an `add_string` files in: with the language in the list, but for string zero itself.
-/
def withLanguage (d : DeviceStrings) (string : USBStringPtr) : DeviceStrings :=
  if (d.objects string).index ≠ 0 ∨ (d.objects string).languageId ≠ 0 then
    d.addLanguage (d.objects string).languageId
  else d

theorem withLanguage_keys (d : DeviceStrings) (string p : USBStringPtr) :
    ((d.withLanguage string).objects p).index = (d.objects p).index ∧
      ((d.withLanguage string).objects p).languageId = (d.objects p).languageId := by
  unfold withLanguage
  split_ifs
  · exact addLanguage_keys d _ p
  · exact ⟨rfl, rfl⟩

theorem withLanguage_frame (d : DeviceStrings) (string : USBStringPtr) :
    (d.withLanguage string).strings = d.strings ∧ (d.withLanguage string).made = d.made ∧
      (d.withLanguage string).proxy = d.proxy := by
  unfold withLanguage
  split_ifs
  · exact addLanguage_frame d _
  · exact ⟨rfl, rfl, rfl⟩

@[simp] theorem objects_addString (d : DeviceStrings) (string : USBStringPtr) :
    (d.addString string).objects = (d.withLanguage string).objects := rfl

@[simp] theorem made_addString (d : DeviceStrings) (string : USBStringPtr) :
    (d.addString string).made = d.made := (withLanguage_frame d string).2.1

@[simp] theorem proxy_addString (d : DeviceStrings) (string : USBStringPtr) :
    (d.addString string).proxy = d.proxy := (withLanguage_frame d string).2.2

@[simp] theorem indexOf_addString (d : DeviceStrings) (string : USBStringPtr) :
    (d.addString string).indexOf = d.indexOf :=
  funext fun p => congrArg UInt8.toNat (withLanguage_keys d string p).1

@[simp] theorem languageOf_addString (d : DeviceStrings) (string : USBStringPtr) :
    (d.addString string).languageOf = d.languageOf :=
  funext fun p => (withLanguage_keys d string p).2

theorem strings_addString (d : DeviceStrings) (string : USBStringPtr) :
    (d.addString string).strings =
      store d.languageOf d.strings (d.indexOf string) string := by
  show store (d.withLanguage string).languageOf (d.withLanguage string).strings _ string = _
  rw [(withLanguage_frame d string).1]
  congr 1
  exact funext fun p => (withLanguage_keys d string p).2

end AddString

/-! ## Lookups -/

section Lookup

variable {d : DeviceStrings} {index : Byte} {languageId : UInt16}

/-- The range check never matters: there is nothing behind the array. -/
theorem getString_eq (d : DeviceStrings) (index : Byte) (languageId : UInt16) :
    d.getString index languageId = (row d.strings index.toNat).find? fun p =>
      d.languageOf p = d.askedLanguage index languageId := by
  unfold getString
  split_ifs with hrange
  · have hrow : row d.strings index.toNat = [] := by
      unfold maxStringIdx at hrange
      rw [row, Slots.slot_eq_none_of_le (by omega), Option.getD_none]
    rw [hrow, List.find?_nil]
  · rfl

theorem askedLanguage_of_ne (d : DeviceStrings) (index : Byte) (h : languageId ≠ 0) :
    d.askedLanguage index languageId = languageId := if_neg fun h0 => h h0.1

theorem askedLanguage_index_zero (d : DeviceStrings) (languageId : UInt16) :
    d.askedLanguage 0 languageId = languageId := if_neg fun h0 => h0.2 rfl

theorem getString_zero (d : DeviceStrings) (h : index ≠ 0) :
    d.getString index 0 = d.getString index (d.languageAt 0) := by
  have hasked : d.askedLanguage index (d.languageAt 0) = d.languageAt 0 := by
    unfold askedLanguage
    rw [ite_self]
  rw [getString_eq, getString_eq, hasked, askedLanguage, if_pos ⟨rfl, h⟩]

/-- A string is found under its index and language, and every other lookup stays. -/
theorem getString_addString (hl : languageId ≠ 0) (string : USBStringPtr) :
    (d.addString string).getString index languageId =
      if index = (d.objects string).index ∧ languageId = d.languageOf string then some string
      else d.getString index languageId := by
  rw [getString_eq, getString_eq, askedLanguage_of_ne _ _ hl, askedLanguage_of_ne _ _ hl,
    strings_addString, languageOf_addString, find?_row_store]
  simp only [indexOf, UInt8.toNat_inj]

theorem getString_foldl (hl : languageId ≠ 0) (ps : List USBStringPtr) (d : DeviceStrings) :
    (ps.foldl addString d).getString index languageId =
      ((ps.filter fun p =>
        (d.objects p).index = index ∧ (d.objects p).languageId = languageId).getLast?).or
        (d.getString index languageId) := by
  induction ps generalizing d with
  | nil => rfl
  | cons p ps ih =>
    have hkeys : (fun q => decide (((d.addString p).objects q).index = index ∧
          ((d.addString p).objects q).languageId = languageId)) =
        fun q => decide ((d.objects q).index = index ∧ (d.objects q).languageId = languageId) := by
      funext q
      rw [objects_addString, (withLanguage_keys d p q).1, (withLanguage_keys d p q).2]
    rw [List.foldl_cons, ih, hkeys, getString_addString hl, List.filter_cons]
    by_cases hp : (d.objects p).index = index ∧ (d.objects p).languageId = languageId
    · rw [if_pos ⟨hp.1.symm, hp.2.symm⟩, if_pos (decide_eq_true hp), List.getLast?_cons]
      cases (ps.filter fun q =>
        decide ((d.objects q).index = index ∧ (d.objects q).languageId = languageId)).getLast? <;> rfl
    · rw [if_neg fun h => hp ⟨h.1.symm, h.2.symm⟩, if_neg (by simpa using hp)]

end Lookup

/-! ## The language list -/

/-- String zero exists, and its block is as long as its `bLength` says. -/
structure ZeroSound (d : DeviceStrings) (z : USBStringPtr) : Prop where
  zero : d.zero = some z
  index : (d.objects z).index = 0
  languageId : (d.objects z).languageId = 0
  header : 2 ≤ (d.objects z).descriptor.bLength.toNat
  words : (d.objects z).descriptor.wData.length = (d.objects z).descriptor.bLength.toNat / 2 - 1

section Languages

variable {d : DeviceStrings} {z string : USBStringPtr} {l : UInt16}

/-- `((bLength)>>1)-1` does not wrap behind a header. -/
theorem toNat_charCount {b : Byte} (h : 2 ≤ b.toNat) : ((b >>> 1) - 1).toNat = b.toNat / 2 - 1 := by
  have hshift : (b >>> 1).toNat = b.toNat / 2 := by
    rw [UInt8.toNat_shiftRight]
    rfl
  have hle : (1 : Byte) ≤ b >>> 1 := UInt8.le_iff_toNat_le.2 (by rw [hshift]; show 1 ≤ _; omega)
  rw [UInt8.toNat_sub_of_le _ _ hle, hshift]
  rfl

theorem ZeroSound.getLanguageCount (h : d.ZeroSound z) :
    d.getLanguageCount.toNat = (d.objects z).descriptor.wData.length := by
  unfold DeviceStrings.getLanguageCount
  rw [h.zero, h.words]
  exact toNat_charCount h.header

theorem ZeroSound.languages (h : d.ZeroSound z) :
    d.languages = (d.objects z).descriptor.wData := by
  unfold DeviceStrings.languages
  rw [h.getLanguageCount]
  unfold languageAt
  rw [h.zero]
  refine List.ext_getElem (by simp) fun i hi hi' => ?_
  rw [List.getElem_map, List.getElem_range]
  exact List.getD_eq_getElem _ _ hi'

theorem appendChar_zero {s : USBString} (hi : s.index = 0) (hl : s.languageId = 0)
    (hheader : 2 ≤ s.descriptor.bLength.toNat)
    (hwords : s.descriptor.wData.length = s.descriptor.bLength.toNat / 2 - 1)
    (hroom : s.descriptor.wData.length < 126) (u : UInt16) :
    (s.appendChar u).descriptor.wData = s.descriptor.wData ++ [u] ∧
      (s.appendChar u).descriptor.bLength.toNat = s.descriptor.bLength.toNat + 2 := by
  have happend : s.appendChar u = { s with descriptor :=
      { s.descriptor with
        bLength := UInt8.ofNat (s.descriptor.bLength.toNat + 2)
        wData := s.descriptor.wData.takeD ((s.descriptor.bLength.toNat + 2) / 2 - 2) 0 ++ [u] } } := by
    unfold USBString.appendChar
    rw [if_neg (by simp [hi, hl])]
    exact if_neg (by omega)
  have hcount : (s.descriptor.bLength.toNat + 2) / 2 - 2 = s.descriptor.wData.length := by omega
  rw [happend, hcount]
  refine ⟨?_, UInt8.toNat_ofNat_of_lt' (by show _ < 256; omega)⟩
  show s.descriptor.wData.takeD _ 0 ++ [u] = _
  rw [List.takeD_eq_take _ (Nat.le_refl _), List.take_length]

/-- A new language goes to the end of the list, a listed one leaves it alone. -/
theorem ZeroSound.addLanguage (h : d.ZeroSound z) (hroom : l ∉ d.languages → d.languages.length < 126) :
    (d.addLanguage l).ZeroSound z ∧
      (d.addLanguage l).languages = if l ∈ d.languages then d.languages else d.languages ++ [l] := by
  by_cases hmem : l ∈ d.languages
  · have hsame : d.addLanguage l = d := if_pos hmem
    rw [hsame, if_pos hmem]
    exact ⟨h, rfl⟩
  · have hadd : d.addLanguage l =
        { d with objects := Function.update d.objects z ((d.objects z).appendChar l) } := by
      unfold DeviceStrings.addLanguage
      rw [if_neg hmem, h.zero]
    have hlength := hroom hmem
    rw [h.languages] at hlength
    obtain ⟨hwords, hbLength⟩ :=
      appendChar_zero h.index h.languageId h.header h.words hlength l
    have hsound : (d.addLanguage l).ZeroSound z := by
      refine ⟨?_, ?_, ?_, ?_, ?_⟩
      · rw [DeviceStrings.zero, (addLanguage_frame d l).1]
        exact h.zero
      · rw [(addLanguage_keys d l z).1, h.index]
      · rw [(addLanguage_keys d l z).2, h.languageId]
      all_goals
        rw [hadd]
        simp only [Function.update_self]
        rw [hbLength]
      · omega
      · have := h.words
        have := h.header
        rw [hwords, List.length_append, List.length_singleton]
        omega
    refine ⟨hsound, ?_⟩
    rw [hsound.languages, if_neg hmem, h.languages, hadd]
    simp only [Function.update_self]
    exact hwords

theorem ZeroSound.addString (h : d.ZeroSound z) (hindex : (d.objects string).index ≠ 0)
    (hroom : d.languageOf string ∉ d.languages → d.languages.length < 126) :
    (d.addString string).ZeroSound z ∧ (d.addString string).languages =
      if d.languageOf string ∈ d.languages then d.languages
      else d.languages ++ [d.languageOf string] := by
  have hwith : d.withLanguage string = d.addLanguage (d.languageOf string) := if_pos (.inl hindex)
  obtain ⟨hsound, hlist⟩ := h.addLanguage hroom
  have hzero : (d.addString string).zero = (d.addLanguage (d.languageOf string)).zero := by
    have hne : (0 : ℕ) ≠ d.indexOf string := fun h0 => hindex (UInt8.toNat_inj.1 h0.symm)
    rw [DeviceStrings.zero, strings_addString, row_store, if_neg hne, DeviceStrings.zero,
      (addLanguage_frame d _).1]
  have hobjects : (d.addString string).objects = (d.addLanguage (d.languageOf string)).objects := by
    rw [objects_addString, hwith]
  have hsound' : (d.addString string).ZeroSound z := by
    refine ⟨hzero.trans hsound.zero, ?_, ?_, ?_, ?_⟩ <;> rw [hobjects]
    · exact hsound.index
    · exact hsound.languageId
    · exact hsound.header
    · exact hsound.words
  refine ⟨hsound', ?_⟩
  rw [hsound'.languages, hobjects, ← hsound.languages]
  exact hlist

theorem ZeroSound.mem_languages_addString (h : d.ZeroSound z) (hnodup : d.languages.Nodup)
    (hindex : (d.objects string).index ≠ 0)
    (hroom : d.languageOf string ∉ d.languages → d.languages.length < 126) :
    (d.addString string).languages.Nodup ∧
      ∀ l, l ∈ (d.addString string).languages ↔ l ∈ d.languages ∨ l = d.languageOf string := by
  rw [(h.addString hindex hroom).2]
  split_ifs with hlisted
  · exact ⟨hnodup, fun l => ⟨.inl, fun hl => hl.elim id fun e => e ▸ hlisted⟩⟩
  · refine ⟨List.nodup_append_comm.1 (List.nodup_cons.2 ⟨hlisted, hnodup⟩), fun l => ?_⟩
    rw [List.mem_append, List.mem_singleton]

theorem length_lt_card {l : UInt16} {ls all : List UInt16} (hnodup : ls.Nodup) (hl : l ∉ ls)
    (hall : ∀ m ∈ l :: ls, m ∈ all) : ls.length < all.toFinset.card := by
  have hsub : (l :: ls).toFinset ⊆ all.toFinset := fun m hm =>
    List.mem_toFinset.2 (hall m (List.mem_toFinset.1 hm))
  have hcard := Finset.card_le_card hsub
  rwa [List.toFinset_card_of_nodup (List.nodup_cons.2 ⟨hl, hnodup⟩), List.length_cons] at hcard

/-- What has been listed and what is still to come are the languages there were to begin with. -/
theorem ZeroSound.foldl (h : d.ZeroSound z) (hnodup : d.languages.Nodup) {ps : List USBStringPtr}
    (hps : ∀ p ∈ ps, (d.objects p).index ≠ 0)
    (hbound : (d.languages ++ ps.map d.languageOf).toFinset.card ≤ 126) :
    (ps.foldl DeviceStrings.addString d).languages.Nodup ∧
      ∀ l, l ∈ (ps.foldl DeviceStrings.addString d).languages ↔
        l ∈ d.languages ∨ l ∈ ps.map d.languageOf := by
  induction ps generalizing d with
  | nil => simpa using hnodup
  | cons p ps ih =>
    have hindex := hps p List.mem_cons_self
    have hroom : d.languageOf p ∉ d.languages → d.languages.length < 126 := by
      refine fun hp => Nat.lt_of_lt_of_le (length_lt_card hnodup hp fun m hm => ?_) hbound
      rw [List.map_cons, List.mem_append, List.mem_cons]
      exact (List.mem_cons.1 hm).elim (fun e => .inr (.inl e)) .inl
    obtain ⟨hnodup', hmem⟩ := h.mem_languages_addString hnodup hindex hroom
    obtain ⟨hfinal, hfinalmem⟩ := ih (h.addString hindex hroom).1 hnodup'
      (fun q hq => by
        rw [objects_addString, (withLanguage_keys d p q).1]
        exact hps q (List.mem_cons_of_mem p hq))
      (by
        refine le_trans (Finset.card_le_card fun l => ?_) hbound
        simp only [List.mem_toFinset, List.mem_append, hmem, languageOf_addString, List.map_cons,
          List.mem_cons]
        exact or_assoc.1)
    refine ⟨hfinal, fun l => ?_⟩
    rw [List.foldl_cons, hfinalmem l, hmem, languageOf_addString, List.map_cons, List.mem_cons,
      or_assoc]

end Languages

theorem keys_foldl (ps : List USBStringPtr) (d : DeviceStrings) (p : USBStringPtr) :
    ((ps.foldl addString d).objects p).index = (d.objects p).index ∧
      ((ps.foldl addString d).objects p).languageId = (d.objects p).languageId := by
  induction ps generalizing d with
  | nil => exact ⟨rfl, rfl⟩
  | cons q ps ih =>
    obtain ⟨hindex, hlanguage⟩ := ih (d.addString q)
    rw [objects_addString, (withLanguage_keys d q p).1] at hindex
    rw [objects_addString, (withLanguage_keys d q p).2] at hlanguage
    exact ⟨hindex, hlanguage⟩

/-- **After any sequence of strings with an index and a language: `get_string` returns the one added
last for the pair, or what it returned before when there is none; language 0 stands for the first
language of the list; one more string changes the result for its own pair only; and the language
list is the old one with every language used, each once.** -/
theorem getString_added (d : DeviceStrings) (z : USBStringPtr) (hzero : d.ZeroSound z)
    (hnodup : d.languages.Nodup) (ps : List USBStringPtr)
    (hps : ∀ p ∈ ps, (d.objects p).index ≠ 0 ∧ (d.objects p).languageId ≠ 0)
    (hbound : (d.languages ++ ps.map d.languageOf).toFinset.card ≤ 126) :
    (∀ index languageId, languageId ≠ 0 → (ps.foldl addString d).getString index languageId =
      ((ps.filter fun p =>
        (d.objects p).index = index ∧ (d.objects p).languageId = languageId).getLast?).or
        (d.getString index languageId)) ∧
    (∀ index, index ≠ 0 → (ps.foldl addString d).getString index 0 =
      (ps.foldl addString d).getString index ((ps.foldl addString d).languageAt 0)) ∧
    (∀ p, (d.objects p).index ≠ 0 → ∀ index languageId, languageId ≠ 0 ∨ index = 0 →
      ¬ (index = (d.objects p).index ∧ languageId = (d.objects p).languageId) →
        ((ps.foldl addString d).addString p).getString index languageId =
          (ps.foldl addString d).getString index languageId) ∧
    (ps.foldl addString d).languages.Nodup ∧
    ∀ l, l ∈ (ps.foldl addString d).languages ↔
      l ∈ d.languages ∨ ∃ p ∈ ps, (d.objects p).languageId = l := by
  refine ⟨fun index languageId hl => getString_foldl hl ps d, fun index hi => getString_zero _ hi,
    fun p hp index languageId hask hne => ?_, ?_, fun l => ?_⟩
  · obtain ⟨hindex, hlanguage⟩ := keys_foldl ps d p
    rcases hask with hl | rfl
    · rw [getString_addString hl, if_neg]
      rw [languageOf, hindex, hlanguage]
      exact hne
    · have hrow : (0 : Byte).toNat ≠ (ps.foldl addString d).indexOf p := by
        rw [indexOf, hindex]
        exact fun h0 => hp (UInt8.toNat_inj.1 h0.symm)
      rw [getString_eq, getString_eq, askedLanguage_index_zero, askedLanguage_index_zero,
        strings_addString, row_store, languageOf_addString, if_neg hrow]
  · exact (hzero.foldl hnodup (fun p hp => (hps p hp).1) hbound).1
  · rw [(hzero.foldl hnodup (fun p hp => (hps p hp).1) hbound).2 l, List.mem_map]
    rfl

/-- A device without a proxy, and strings of index 5 in two languages. -/
def twoLanguages : DeviceStrings :=
  { new false 0 ⟨4, 3, [0x0409]⟩ with
    objects := fun p =>
      if p = 0 then ⟨0, 0, ⟨4, 3, [0x0409]⟩⟩
      else ⟨5, if p = 2 then 0x0407 else 0x0409, ⟨2, 3, []⟩⟩
    made := 4 }

/-- The third string takes the place of the first. -/
theorem getString_added_twoLanguages :
    ([1, 2, 3].foldl addString twoLanguages).getString 5 0x0409 = some 3 ∧
      ([1, 2, 3].foldl addString twoLanguages).languages.Nodup := by
  have h := getString_added twoLanguages 0 ⟨rfl, rfl, rfl, by decide, rfl⟩ (by decide) [1, 2, 3]
    (by decide) (by decide)
  exact ⟨(h.1 5 0x0409 (by decide)).trans rfl, h.2.2.2.1⟩

end DeviceStrings

end UsbProxy
