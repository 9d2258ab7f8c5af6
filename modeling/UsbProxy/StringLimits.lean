import UsbProxy.DeviceStrings

/-!
# How long a string may be

The constructors of `USBString` from characters, and `get_ascii`.  The header has one byte for the length
of the descriptor: 126 characters are the most it can declare.  The constructors store the length whatever
it is, and `append_char` stores 0 behind 254.
-/

namespace UsbProxy

namespace USBString

/-- `calloc(len+1,2)`, the header, and the characters.  Without a block there is no string; the length is
an `int`. -/
def ofChars (chars : List UInt16) (index : Byte) (languageId : UInt16) : Option USBString :=
  let len := asInt chars.length
  if 0 < asInt (len + 1) then
    some
      { index, languageId
        descriptor :=
          { bLength := UInt8.ofInt ((len + 1) * 2), bDescriptorType := 3
            wData := chars.take len.toNat } }
  else none

/-- The text of an array of `char`s, up to its terminator. -/
def asciiChars (value : List Byte) : List Byte := value.takeWhile (· != 0)

/-- The text of an array of 16-bit characters. -/
def unicodeChars (value : List UInt16) : List UInt16 := value.takeWhile (· != 0)

def ofAscii (charSigned : Bool) (value : List Byte) (index : Byte) (languageId : UInt16) :
    Option USBString :=
  ofChars ((asciiChars value).map fun c => UInt16.ofInt (charInt charSigned c)) index languageId

def ofUnicode (value : List UInt16) (index : Byte) (languageId : UInt16) : Option USBString :=
  ofChars (unicodeChars value) index languageId

/-- `get_ascii`: what it writes in front of the terminator. -/
def getAscii (s : USBString) : List Byte :=
  (s.descriptor.wData.takeD (s.descriptor.bLength.toNat / 2 - 1) 0).map fun u =>
    if u &&& 0xff00 ≠ 0 then 0x3f else u.toUInt8

/-- The characters the header declares. -/
def declared (s : USBString) : List UInt16 := s.descriptor.wData.take s.getCharCount.toNat

/-- The string declares the characters it was given, up to 126 of them. -/
structure Declares (s : USBString) (given : List UInt16) : Prop where
  bLength : s.descriptor.bLength.toNat = 2 + 2 * min given.length 126
  charCount : s.getCharCount.toNat = min given.length 126
  chars : s.declared = given.take 126
  ascii : (∀ u ∈ given, u < 0x80) → s.getAscii = (given.take 126).map UInt16.toUInt8

/-- It does from the constructor on, behind every call of `append_char`. -/
def AlwaysDeclares (made : Option USBString) (given us : List UInt16) : Prop :=
  ∃ s, made = some s ∧ ∀ us', us' <+: us → Declares (us'.foldl appendChar s) (given ++ us')

/-- No more than 126 characters in all; or none appended to a string as long as another one of 126, as far
as the header can tell. -/
def Fits (given appended : ℕ) : Prop :=
  given + appended ≤ 126 ∨ (appended = 0 ∧ given % 128 = 126 ∧ given % 2 ^ 32 < 2 ^ 31)

/-! ## The constructors -/

section Made

variable {chars given us : List UInt16} {index : Byte} {languageId : UInt16} {s : USBString}

theorem seven_bits (u : UInt16) (h : u < 0x80) : u &&& 0xff00 = 0 := by
  have hall : ∀ n < 128, UInt16.ofNat n &&& 0xff00 = 0 := by decide
  have := hall u.toNat (UInt16.lt_iff_toNat_lt.1 h)
  rwa [UInt16.ofNat_toNat] at this

theorem asInt_natCast (n : ℕ) :
    asInt n = if n % 2 ^ 32 < 2 ^ 31 then ((n % 2 ^ 32 : ℕ) : ℤ) else ((n % 2 ^ 32 : ℕ) : ℤ) - 2 ^ 32 := by
  unfold asInt Int.bmod
  dsimp only
  split_ifs <;> omega

theorem ofChars_eq_none (h : ¬ chars.length % 2 ^ 32 < 2 ^ 31 - 1) :
    ofChars chars index languageId = none := by
  have hlen := asInt_natCast chars.length
  unfold ofChars
  dsimp only
  rw [if_neg]
  intro hpos
  by_cases hlt : chars.length % 2 ^ 32 < 2 ^ 31
  · rw [if_pos hlt] at hlen
    rw [hlen] at hpos
    have hmax : (((chars.length % 2 ^ 32 : ℕ) : ℤ) + 1) = 2 ^ 31 := by omega
    rw [hmax] at hpos
    exact absurd hpos (by decide)
  · rw [if_neg hlt] at hlen
    rw [hlen] at hpos
    unfold asInt Int.bmod at hpos
    dsimp only at hpos
    split_ifs at hpos <;> omega

theorem ofChars_eq_some (h : chars.length % 2 ^ 32 < 2 ^ 31 - 1) (index : Byte) (languageId : UInt16) :
    ∃ s, ofChars chars index languageId = some s ∧ s.index = index ∧ s.languageId = languageId ∧
      s.descriptor.bLength.toNat = (chars.length % 2 ^ 32 + 1) * 2 % 256 ∧
      s.descriptor.wData = chars.take (chars.length % 2 ^ 32) := by
  have hlen := asInt_natCast chars.length
  rw [if_pos (by omega)] at hlen
  have hnext : asInt (((chars.length % 2 ^ 32 : ℕ) : ℤ) + 1) = ((chars.length % 2 ^ 32 : ℕ) : ℤ) + 1 := by
    rw [asInt_of_lt] <;> omega
  have hbyte : (UInt8.ofInt ((((chars.length % 2 ^ 32 : ℕ) : ℤ) + 1) * 2)).toNat =
      (chars.length % 2 ^ 32 + 1) * 2 % 256 := by
    have hmod : ((((chars.length % 2 ^ 32 : ℕ) : ℤ) + 1) * 2 % 2 ^ 8).toNat =
        (chars.length % 2 ^ 32 + 1) * 2 % 256 := by omega
    rw [UInt8.ofInt, hmod, UInt8.toNat_ofNat']
    omega
  unfold ofChars
  dsimp only
  rw [hlen, hnext, if_pos (by omega)]
  exact ⟨_, rfl, rfl, rfl, hbyte, by rw [Int.toNat_natCast]⟩

/-! ## What is declared -/

theorem declares_of_chars {n : ℕ} (hlength : s.descriptor.bLength.toNat = 2 + 2 * n)
    (hn : n = min given.length 126) (hchars : s.descriptor.wData.take n = given.take 126) :
    Declares s given := by
  have hcount : s.getCharCount.toNat = n := by
    unfold getCharCount
    rw [DeviceStrings.toNat_charCount (by omega), hlength]
    omega
  refine ⟨by rw [hlength, hn], by rw [hcount, hn], by rw [declared, hcount, hchars], fun hseven => ?_⟩
  have hhalf : s.descriptor.bLength.toNat / 2 - 1 = n := by omega
  have htaken : s.descriptor.wData.takeD n 0 = given.take 126 := by
    rw [List.takeD_eq_take, hchars]
    have := congrArg List.length hchars
    rw [List.length_take, List.length_take] at this
    omega
  unfold getAscii
  rw [hhalf, htaken]
  refine List.map_congr_left fun u hu => ?_
  rw [if_neg (not_not.2 (seven_bits u (hseven u (List.mem_of_mem_take hu))))]

theorem declares_made_iff (hgiven : given.length = chars.length)
    (hlength : s.descriptor.bLength.toNat = (chars.length % 2 ^ 32 + 1) * 2 % 256)
    (hdata : s.descriptor.wData = chars.take (chars.length % 2 ^ 32)) :
    Declares s given ↔
      chars.take 126 = given.take 126 ∧ (chars.length ≤ 126 ∨ chars.length % 128 = 126) := by
  have htake (hle : min chars.length 126 ≤ chars.length % 2 ^ 32) :
      s.descriptor.wData.take (min chars.length 126) = chars.take 126 := by
    rw [hdata, List.take_take, Nat.min_eq_left hle, Nat.min_comm, ← List.take_eq_take_min]
  constructor
  · intro h
    have hb := h.bLength
    rw [hlength, hgiven] at hb
    refine ⟨?_, by omega⟩
    have hchars := h.chars
    rwa [declared, h.charCount, hgiven, htake (by omega)] at hchars
  · rintro ⟨hchars, hlen⟩
    refine declares_of_chars (n := min chars.length 126) ?_ (by rw [hgiven]) ?_
    · rw [hlength]
      omega
    · rw [htake (by omega), hchars]

/-! ## Appending -/

theorem foldl_appendChar (hindex : s.index = 0) (hlang : s.languageId = 0)
    (hlength : s.descriptor.bLength.toNat = 2 + 2 * given.length) (hdata : s.descriptor.wData = given)
    (hroom : given.length + us.length ≤ 126) :
    (us.foldl appendChar s).descriptor.bLength.toNat = 2 + 2 * (given ++ us).length ∧
      (us.foldl appendChar s).descriptor.wData = given ++ us := by
  induction us generalizing s given with
  | nil => exact ⟨by rw [List.append_nil]; exact hlength, by rw [List.append_nil]; exact hdata⟩
  | cons u us ih =>
    rw [List.length_cons] at hroom
    obtain ⟨hdata', hlength'⟩ := DeviceStrings.appendChar_zero hindex hlang (by omega)
      (by rw [hdata, hlength]; omega) (by rw [hdata]; omega) u
    have hlong : (s.appendChar u).descriptor.bLength.toNat = 2 + 2 * (given ++ [u]).length := by
      rw [hlength', hlength, List.length_append, List.length_singleton]
      omega
    have hnext := ih (by rw [index_appendChar, hindex]) (by rw [languageId_appendChar, hlang]) hlong
      (by rw [hdata', hdata]) (by rw [List.length_append, List.length_singleton]; omega)
    rwa [List.append_assoc, List.singleton_append] at hnext

theorem declares_foldl (hindex : s.index = 0) (hlang : s.languageId = 0)
    (hlength : s.descriptor.bLength.toNat = 2 + 2 * given.length) (hdata : s.descriptor.wData = given)
    (hroom : given.length + us.length ≤ 126) : Declares (us.foldl appendChar s) (given ++ us) := by
  obtain ⟨hlength', hdata'⟩ := foldl_appendChar hindex hlang hlength hdata hroom
  have hcount : (given ++ us).length ≤ 126 := by
    rw [List.length_append]
    exact hroom
  apply declares_of_chars hlength' (Nat.min_eq_left hcount).symm
  rw [hdata', List.take_length, List.take_of_length_le hcount]

/-- Behind 254 the length is 0. -/
theorem bLength_appendChar_full (hindex : s.index = 0) (hlang : s.languageId = 0)
    (hlength : s.descriptor.bLength.toNat = 254) (u : UInt16) :
    (s.appendChar u).descriptor.bLength.toNat = 0 := by
  unfold appendChar
  rw [if_neg (by rw [hindex, hlang]; simp)]
  dsimp only
  rw [hlength]
  rfl

theorem index_foldl (us : List UInt16) (s : USBString) :
    (us.foldl appendChar s).index = s.index ∧ (us.foldl appendChar s).languageId = s.languageId := by
  induction us generalizing s with
  | nil => exact ⟨rfl, rfl⟩
  | cons u us ih =>
    rw [List.foldl_cons, (ih _).1, (ih _).2, index_appendChar, languageId_appendChar]
    exact ⟨rfl, rfl⟩

/-- A run with too many characters comes to one it declares no longer. -/
theorem not_declares_run (hindex : s.index = 0) (hlang : s.languageId = 0) (hus : us ≠ [])
    (hlong : 126 < given.length + us.length)
    (h : ∀ us', us' <+: us → Declares (us'.foldl appendChar s) (given ++ us')) : False := by
  have hpos := List.length_pos_of_ne_nil hus
  have hlt : 126 - given.length < us.length := by omega
  have hfull := (h (us.take (126 - given.length)) (List.take_prefix _ _)).bLength
  have hover := (h (us.take (126 - given.length + 1)) (List.take_prefix _ _)).bLength
  rw [List.length_append, List.length_take] at hfull hover
  rw [← List.take_concat_get hlt, List.concat_eq_append, List.foldl_append, List.foldl_cons,
    List.foldl_nil, bLength_appendChar_full (by rw [(index_foldl _ s).1, hindex])
      (by rw [(index_foldl _ s).2, hlang]) (by rw [hfull]; omega)] at hover
  omega

theorem alwaysDeclares_iff (hgiven : given.length = chars.length)
    (hzero : us = [] ∨ index = 0 ∧ languageId = 0) :
    AlwaysDeclares (ofChars chars index languageId) given us ↔
      Fits given.length us.length ∧ chars.take 126 = given.take 126 := by
  unfold Fits
  rw [hgiven]
  by_cases hblock : chars.length % 2 ^ 32 < 2 ^ 31 - 1
  · obtain ⟨s, hs, hindex, hlang, hlength, hdata⟩ := ofChars_eq_some hblock index languageId
    have hmade := declares_made_iff hgiven hlength hdata
    rw [hs]
    constructor
    · rintro ⟨_, ⟨⟩, hall⟩
      have hfirst := hall [] (List.nil_prefix)
      rw [List.append_nil] at hfirst
      obtain ⟨hchars, hlen⟩ := hmade.1 hfirst
      refine ⟨?_, hchars⟩
      rcases eq_or_ne us [] with rfl | hne
      · rw [List.length_nil]
        omega
      · obtain ⟨rfl, rfl⟩ := hzero.resolve_left hne
        refine .inl (Nat.le_of_not_lt fun hlong => ?_)
        exact not_declares_run hindex hlang hne (by rw [hgiven]; exact hlong) hall
    · rintro ⟨hroom | ⟨hnil, hlen, -⟩, hchars⟩
      · refine ⟨s, rfl, fun us' hus' => ?_⟩
        have hle := hus'.length_le
        have hall : chars = given := by
          rwa [List.take_of_length_le (by omega), List.take_of_length_le (by omega)] at hchars
        subst hall
        rcases eq_or_ne us [] with rfl | hne
        · rw [List.prefix_nil.1 hus', List.append_nil]
          exact hmade.2 ⟨rfl, .inl (by omega)⟩
        · obtain ⟨rfl, rfl⟩ := hzero.resolve_left hne
          exact declares_foldl hindex hlang (by rw [hlength]; omega)
            (hdata.trans (List.take_of_length_le (by omega))) (by omega)
      · obtain rfl := List.eq_nil_of_length_eq_zero hnil
        refine ⟨s, rfl, fun us' hus' => ?_⟩
        rw [List.prefix_nil.1 hus', List.append_nil]
        exact hmade.2 ⟨hchars, .inr hlen⟩
  · rw [ofChars_eq_none hblock]
    constructor
    · rintro ⟨s, hs, -⟩
      cases hs
    · rintro ⟨h, -⟩
      omega

/-- A `char` becomes the character it stands for, unless it is promoted with a sign. -/
theorem ofInt_charInt_eq_iff (charSigned : Bool) (c : Byte) :
    UInt16.ofInt (charInt charSigned c) = c.toUInt16 ↔ charSigned = false ∨ c < 0x80 := by
  have hall : ∀ charSigned, ∀ n < 256,
      (UInt16.ofInt (charInt charSigned (UInt8.ofNat n)) = (UInt8.ofNat n).toUInt16 ↔
        charSigned = false ∨ UInt8.ofNat n < 0x80) := by
    decide +kernel
  have := hall charSigned c.toNat c.toNat_lt
  rwa [UInt8.ofNat_toNat] at this

theorem take_asciiChars_iff (charSigned : Bool) (value : List Byte) :
    ((value.map fun c => UInt16.ofInt (charInt charSigned c)).take 126 =
      (value.map UInt8.toUInt16).take 126) ↔
      charSigned = false ∨ ∀ c ∈ value.take 126, c < 0x80 := by
  rw [← List.map_take, ← List.map_take, List.map_inj_left]
  simp only [ofInt_charInt_eq_iff]
  constructor
  · intro h
    by_cases hs : charSigned = false
    · exact .inl hs
    · exact .inr fun c hc => (h c hc).resolve_left hs
  · rintro (hs | h) c hc
    · exact .inl hs
    · exact .inr (h c hc)

/-- **Which strings always declare what they hold.**  Those `Fits` says, of 7-bit characters where a
`char` has a sign. -/
theorem string_declares_iff (charSigned : Bool) (ascii : List Byte) (value us : List UInt16)
    (index : Byte) (languageId : UInt16) :
    (AlwaysDeclares (ofUnicode value 0 0) (unicodeChars value) us ↔
        Fits (unicodeChars value).length us.length) ∧
      (AlwaysDeclares (ofUnicode value index languageId) (unicodeChars value) [] ↔
        Fits (unicodeChars value).length 0) ∧
      (AlwaysDeclares (ofAscii charSigned ascii 0 0) ((asciiChars ascii).map UInt8.toUInt16) us ↔
        Fits (asciiChars ascii).length us.length ∧
          (charSigned = false ∨ ∀ c ∈ (asciiChars ascii).take 126, c < 0x80)) ∧
      (AlwaysDeclares (ofAscii charSigned ascii index languageId)
          ((asciiChars ascii).map UInt8.toUInt16) [] ↔
        Fits (asciiChars ascii).length 0 ∧
          (charSigned = false ∨ ∀ c ∈ (asciiChars ascii).take 126, c < 0x80)) := by
  have hunicode (us) (index languageId) (h : us = [] ∨ index = 0 ∧ languageId = 0) :
      AlwaysDeclares (ofUnicode value index languageId) (unicodeChars value) us ↔
        Fits (unicodeChars value).length us.length := by
    rw [ofUnicode, alwaysDeclares_iff rfl h, and_iff_left rfl]
  have hascii (us) (index languageId) (h : us = [] ∨ index = 0 ∧ languageId = 0) :
      AlwaysDeclares (ofAscii charSigned ascii index languageId)
          ((asciiChars ascii).map UInt8.toUInt16) us ↔
        Fits (asciiChars ascii).length us.length ∧
          (charSigned = false ∨ ∀ c ∈ (asciiChars ascii).take 126, c < 0x80) := by
    rw [ofAscii, alwaysDeclares_iff (by rw [List.length_map, List.length_map]) h,
      take_asciiChars_iff, List.length_map]
  exact ⟨hunicode us 0 0 (.inr ⟨rfl, rfl⟩), hunicode [] index languageId (.inl rfl),
    hascii us 0 0 (.inr ⟨rfl, rfl⟩), hascii [] index languageId (.inl rfl)⟩

/-- 127 characters, and 126 with one appended. -/
theorem declares_fails :
    ¬ AlwaysDeclares (ofUnicode (List.replicate 127 0x41) 1 0x409) (List.replicate 127 0x41) [] ∧
      ¬ AlwaysDeclares (ofUnicode (List.replicate 126 0x409) 0 0) (List.replicate 126 0x409) [0x407] := by
  have hlong : ofUnicode (List.replicate 127 0x41) 1 0x409 =
      ofChars (List.replicate 127 0x41) 1 0x409 := by decide +kernel
  have hfull : ofUnicode (List.replicate 126 0x409) 0 0 = ofChars (List.replicate 126 0x409) 0 0 := by
    decide +kernel
  rw [hlong, hfull, alwaysDeclares_iff rfl (.inl rfl), alwaysDeclares_iff rfl (.inr ⟨rfl, rfl⟩)]
  unfold Fits
  decide +kernel

end Made

end USBString

end UsbProxy
