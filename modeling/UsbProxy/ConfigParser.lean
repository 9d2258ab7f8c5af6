import Mathlib.Data.List.GetD
import UsbProxy.Library.Assignments
import UsbProxy.Library.Trimming
import UsbProxy.Packet

/-!
# Configuration files

`StrStrip` and the loop of `ConfigParser::parse_file` over the lines of a file.  The stripper looks for
the start from the front and for the end from the back, but never at index 0 from the back, and keeps the
whole line where it finds no end.  A key of one character keeps the blanks behind it in this way.
-/

namespace UsbProxy

open Assignments Trimming

/-- The strings of a `ConfigParser`; its vectors and pointers are not read from a file. -/
structure ConfigParser where
  strings : List Byte → Option (List Byte)

/-- What the loop from the front goes over: a space or a tab. -/
def isSpTab (c : Byte) : Bool := c == 0x20 || c == 0x09

/-- What the loop from the back goes over: a newline as well. -/
def isBlank (c : Byte) : Bool := isSpTab c || c == 0x0a

/-- `for (x = n; x > 1; )` of `StrStrip`: the last index from 1 on, below `n`, with no blank. -/
def stripEnd (s : List Byte) : ℕ → Option ℕ
  | x + 2 => if isBlank (s.getD (x + 1) 0) then stripEnd s (x + 1) else some (x + 1)
  | _ => none

/-- `StrStrip`; its indices are those of strings an `unsigned int` can count. -/
def strStrip (s : List Byte) : List Byte :=
  if s.getD 0 0 = 0x0a then []
  else
    let start := (s.findIdx? fun c => !isSpTab c).getD 0
    let last := (stripEnd s s.length).getD s.length
    (s.drop start).take (last - start + 1)

/-- One round of the loop of `parse_file`: the key and the value it sets. -/
def lineAssigns (confline : List Byte) : Option (List Byte × List Byte) :=
  let parsestr := strStrip confline
  if parsestr.length = 0 then none
  else if parsestr.head? = some 0x23 then none
  else
    match parsestr.idxOf? 0x3d with
    | none => none
    | some eq => some (strStrip (parsestr.take eq), strStrip (parsestr.drop (eq + 1)))

namespace ConfigParser

def set (cp : ConfigParser) (key value : List Byte) : ConfigParser :=
  { cp with strings := Function.update cp.strings key (some value) }

def get (cp : ConfigParser) (key : List Byte) : List Byte := (cp.strings key).getD []

/-- `parse_file` on a file that opens.  The last line `getline` reads is what stands behind the last
newline, also if that is nothing. -/
def parseFile (cp : ConfigParser) (text : List Byte) : ConfigParser :=
  (text.splitOn 0x0a).foldl (fun cp confline =>
    match lineAssigns confline with
    | none => cp
    | some (key, value) => cp.set key value) cp

end ConfigParser

/-! ## What a line says -/

/-- What a trimmed line assigns to which key. -/
def assignment (line : List Byte) : Option (List Byte × List Byte) :=
  let t := trim isBlank line
  if t ≠ [] ∧ t.head? ≠ some 0x23 ∧ 0x3d ∈ t then
    some (trim isBlank (t.takeWhile (· != 0x3d)), trim isBlank (t.dropWhile (· != 0x3d)).tail)
  else none

/-! ## Stripping -/

section Strip

variable {s pre mid post rest : List Byte} {a b c : Byte}

theorem isBlank_of_isSpTab (h : isSpTab c = true) : isBlank c = true := by
  unfold isBlank
  rw [h]
  rfl

theorem isSpTab_of_isBlank (h : isBlank c = true) (hc : c ≠ 0x0a) : isSpTab c = true := by
  unfold isBlank at h
  exact (Bool.or_eq_true_iff.1 h).resolve_right fun he => hc (eq_of_beq he)

theorem isSpTab_of_not_isBlank (h : isBlank c = false) : isSpTab c = false := by
  unfold isBlank at h
  exact (Bool.or_eq_false_iff.1 h).1

theorem ne_newline_of_isSpTab (h : isSpTab c = true) : c ≠ 0x0a := by
  rintro rfl
  exact absurd h (by decide)

theorem ne_newline_of_not_isBlank (h : isBlank c = false) : c ≠ 0x0a := by
  rintro rfl
  exact absurd h (by decide)

theorem stripEnd_of_blank (h : ∀ x ∈ rest, isBlank x = true) {n : ℕ} (hn : n ≤ rest.length + 1) :
    stripEnd (c :: rest) n = none := by
  induction n with
  | zero => rfl
  | succ n ih =>
    cases n with
    | zero => rfl
    | succ n =>
      have hlt : n < rest.length := by omega
      have hblank : isBlank ((c :: rest).getD (n + 1) 0) = true := by
        rw [List.getD_cons_succ, List.getD_eq_getElem _ _ hlt]
        exact h _ (List.getElem_mem hlt)
      rw [stripEnd, if_pos hblank]
      exact ih (by omega)

theorem stripEnd_of_last (hrest : rest ≠ []) (hc : isBlank c = false)
    (hpost : ∀ x ∈ post, isBlank x = true) {k : ℕ} (hk : k ≤ post.length) :
    stripEnd (rest ++ c :: post) (rest.length + 1 + k) = some rest.length := by
  obtain ⟨d, rest', rfl⟩ := List.exists_cons_of_ne_nil hrest
  induction k with
  | zero =>
    have hget : ((d :: rest') ++ c :: post).getD (rest'.length + 1) 0 = c := by simp
    rw [Nat.add_zero, List.length_cons, stripEnd, hget, if_neg (by rw [hc]; decide)]
  | succ k ih =>
    have hlt : k < post.length := by omega
    have hget : ((d :: rest') ++ c :: post).getD (rest'.length + 1 + k + 1) 0 =
        post.get ⟨k, hlt⟩ := by
      rw [List.cons_append, List.getD_cons_succ, List.getD_append_right _ _ _ _ (by omega)]
      have hi : rest'.length + 1 + k - rest'.length = k + 1 := by omega
      rw [hi, List.getD_cons_succ, List.getD_eq_getElem _ _ hlt]
      rfl
    have hshape : (d :: rest').length + 1 + (k + 1) = rest'.length + 1 + k + 2 := by
      rw [List.length_cons]
      omega
    rw [hshape, stripEnd, hget, if_pos (hpost _ (List.get_mem post ⟨k, hlt⟩))]
    have hprev : rest'.length + 1 + k + 1 = (d :: rest').length + 1 + k := by
      rw [List.length_cons]
      omega
    rw [hprev]
    exact ih (by omega)

theorem findIdx?_start (hpre : ∀ x ∈ pre, isSpTab x = true) (ha : isSpTab a = false)
    (rest : List Byte) : (pre ++ a :: rest).findIdx? (fun c => !isSpTab c) = some pre.length := by
  induction pre with
  | nil => rw [List.nil_append, List.findIdx?_cons, ha]; rfl
  | cons c pre ih =>
    rw [List.cons_append, List.findIdx?_cons, hpre c List.mem_cons_self,
      ih fun x hx => hpre x (List.mem_cons_of_mem _ hx)]
    rfl

/-- The result where the head is not a newline and there is something besides spaces and tabs. -/
theorem strStrip_append (hpre : ∀ x ∈ pre, isSpTab x = true) (ha : isSpTab a = false)
    (hhead : (pre ++ a :: rest).getD 0 0 ≠ 0x0a) :
    strStrip (pre ++ a :: rest) =
      (a :: rest).take
        ((stripEnd (pre ++ a :: rest) (pre ++ a :: rest).length).getD (pre ++ a :: rest).length -
          pre.length + 1) := by
  unfold strStrip
  rw [if_neg hhead, findIdx?_start hpre ha]
  dsimp only [Option.getD_some]
  rw [List.drop_append_of_le_length (Nat.le_refl _), List.drop_length, List.nil_append]

theorem getD_zero_ne (hpre : ∀ x ∈ pre, isSpTab x = true) (h : pre ≠ [] ∨ a ≠ 0x0a) :
    (pre ++ a :: rest).getD 0 0 ≠ 0x0a := by
  cases pre with
  | nil => exact h.resolve_left fun h => h rfl
  | cons c pre => exact ne_newline_of_isSpTab (hpre c List.mem_cons_self)

theorem strStrip_newline (h : s.head? = some 0x0a) : strStrip s = [] := by
  obtain ⟨rest, rfl⟩ := List.head?_eq_some_iff.1 h
  exact if_pos rfl

theorem strStrip_spaces (h : ∀ x ∈ s, isSpTab x = true) : strStrip s = s := by
  have hhead : s.getD 0 0 ≠ 0x0a := by
    cases s with
    | nil => decide
    | cons c s => exact ne_newline_of_isSpTab (h c List.mem_cons_self)
  have hstart : (s.findIdx? fun c => !isSpTab c) = none := by
    rw [List.findIdx?_eq_none_iff]
    intro x hx
    rw [h x hx]
    rfl
  have hend : stripEnd s s.length = none := by
    cases s with
    | nil => rfl
    | cons c s =>
      exact stripEnd_of_blank (fun x hx => isBlank_of_isSpTab (h x (List.mem_cons_of_mem _ hx)))
        (Nat.le_refl _)
  unfold strStrip
  rw [if_neg hhead, hstart, hend]
  exact List.take_of_length_le (by simp only [Option.getD_none, List.drop_zero]; omega)

theorem strStrip_single (hc : isBlank c = false) (h : ∀ x ∈ rest, isBlank x = true) :
    strStrip (c :: rest) = c :: rest := by
  have hhead : ([] ++ c :: rest).getD 0 0 ≠ 0x0a :=
    getD_zero_ne (List.forall_mem_nil _) (.inr (ne_newline_of_not_isBlank hc))
  have := strStrip_append (List.forall_mem_nil fun x => isSpTab x = true)
    (isSpTab_of_not_isBlank hc) hhead
  rw [List.nil_append] at this
  have hend : stripEnd (c :: rest) (c :: rest).length = none :=
    stripEnd_of_blank h (Nat.le_refl _)
  rw [this, hend, Option.getD_none]
  exact List.take_of_length_le (by simp only [List.length_nil]; omega)

theorem head?_strStrip_newline (hpre : ∀ x ∈ pre, isSpTab x = true) (hne : pre ≠ []) :
    (strStrip (pre ++ 0x0a :: rest)).head? = some 0x0a := by
  rw [strStrip_append hpre (by decide) (getD_zero_ne hpre (.inl hne)), List.take_succ_cons]
  rfl

theorem strStrip_text (hpre : ∀ x ∈ pre, isSpTab x = true) (hpost : ∀ x ∈ post, isBlank x = true)
    (ha : mid.head? = some a) (hpa : isBlank a = false) (hb : mid.getLast? = some b)
    (hpb : isBlank b = false) (hlen : 2 ≤ (pre ++ mid).length) :
    strStrip (pre ++ (mid ++ post)) = mid := by
  obtain ⟨xs, rfl⟩ := List.head?_eq_some_iff.1 ha
  obtain ⟨ys, hys⟩ := List.getLast?_eq_some_iff.1 hb
  have hne : pre ++ ys ≠ [] := fun h => by
    have hpre' := (List.append_eq_nil_iff.1 h).1
    have hys' := (List.append_eq_nil_iff.1 h).2
    rw [hpre', hys, hys'] at hlen
    simp at hlen
  have hsplit : pre ++ a :: (xs ++ post) = (pre ++ ys) ++ b :: post := by
    rw [← List.cons_append, hys]
    simp
  have hcount : (pre ++ a :: (xs ++ post)).length = (pre ++ ys).length + 1 + post.length := by
    rw [hsplit, List.length_append, List.length_cons]
    omega
  have hend := stripEnd_of_last hne hpb hpost (Nat.le_refl _)
  rw [List.cons_append, strStrip_append hpre (isSpTab_of_not_isBlank hpa)
    (getD_zero_ne hpre (.inr (ne_newline_of_not_isBlank hpa))), hcount, hsplit, hend]
  have hkeep : (pre ++ ys).length - pre.length + 1 = (a :: xs).length := by
    rw [hys, List.length_append, List.length_append, List.length_singleton]
    omega
  rw [Option.getD_some, hkeep, ← List.cons_append, List.take_left]

theorem text_cases (s : List Byte) :
    (∀ x ∈ s, isSpTab x = true) ∨
      (∃ pre rest, s = pre ++ 0x0a :: rest ∧ ∀ x ∈ pre, isSpTab x = true) ∨
      ∃ pre mid post a b, s = pre ++ (mid ++ post) ∧ (∀ x ∈ pre, isSpTab x = true) ∧
        (∀ x ∈ post, isBlank x = true) ∧ mid.head? = some a ∧ isBlank a = false ∧
        mid.getLast? = some b ∧ isBlank b = false := by
  by_cases hall : ∀ x ∈ s, isSpTab x = true
  · exact .inl hall
  obtain ⟨pre, c, rest, rfl, hpre, hc⟩ := exists_first hall
  by_cases hnl : c = 0x0a
  · exact .inr (.inl ⟨pre, rest, by rw [hnl], hpre⟩)
  have hblank : isBlank c = false :=
    Bool.eq_false_iff.2 fun h => absurd (isSpTab_of_isBlank h hnl) (by rw [hc]; decide)
  have hrest : ¬ ∀ x ∈ c :: rest, isBlank x = true := fun h => by
    rw [h c List.mem_cons_self] at hblank
    cases hblank
  obtain ⟨mid, b, post, hmid, hb, hpost⟩ := exists_last hrest
  have hhead : (mid ++ [b]).head? = some c := by
    have := congrArg List.head? hmid
    cases mid with
    | nil => exact this.symm
    | cons d mid => exact this.symm
  refine .inr (.inr ⟨pre, mid ++ [b], post, c, b, ?_, hpre, hpost, hhead, hblank,
    List.getLast?_concat, hb⟩)
  rw [hmid, List.append_assoc]
  rfl

theorem strStrip_text_cases (hpre : ∀ x ∈ pre, isSpTab x = true)
    (hpost : ∀ x ∈ post, isBlank x = true) (ha : mid.head? = some a) (hpa : isBlank a = false)
    (hb : mid.getLast? = some b) (hpb : isBlank b = false) :
    (strStrip (pre ++ (mid ++ post)) = mid ∧ (2 ≤ (pre ++ mid).length ∨ post = [])) ∨
      (pre = [] ∧ mid = [a] ∧ post ≠ [] ∧ strStrip (a :: post) = a :: post) := by
  by_cases hlen : 2 ≤ (pre ++ mid).length
  · exact .inl ⟨strStrip_text hpre hpost ha hpa hb hpb hlen, .inl hlen⟩
  obtain ⟨xs, rfl⟩ := List.head?_eq_some_iff.1 ha
  rw [List.length_append, List.length_cons] at hlen
  obtain rfl : pre = [] := List.eq_nil_of_length_eq_zero (by omega)
  obtain rfl : xs = [] := List.eq_nil_of_length_eq_zero (by omega)
  have hkeep := strStrip_single hpa hpost
  by_cases hnil : post = []
  · exact .inl ⟨by rw [hnil] at hkeep ⊢; exact hkeep, .inr hnil⟩
  · exact .inr ⟨rfl, rfl, hnil, hkeep⟩

theorem trim_text (hpre : ∀ x ∈ pre, isSpTab x = true) (hpost : ∀ x ∈ post, isBlank x = true)
    (ha : mid.head? = some a) (hpa : isBlank a = false) (hb : mid.getLast? = some b)
    (hpb : isBlank b = false) : trim isBlank (pre ++ (mid ++ post)) = mid :=
  trim_eq_of_ends (fun x hx => isBlank_of_isSpTab (hpre x hx)) hpost ha hpa hb hpb

/-- Where the stripper trims: nothing at all; blanks behind a newline; or a text whose first character
besides spaces and tabs is no newline, and not all that follows index 0 is blank. -/
def Strippable (s : List Byte) : Prop :=
  s = [] ∨ (s.head? = some 0x0a ∧ ∀ x ∈ s, isBlank x = true) ∨
    ∃ c, s.find? (fun x => !isSpTab x) = some c ∧ c ≠ 0x0a ∧
      (s.length = 1 ∨ ∃ x ∈ s.tail, isBlank x = false)

theorem find?_start (hpre : ∀ x ∈ pre, isSpTab x = true) (ha : isSpTab a = false)
    (rest : List Byte) : (pre ++ a :: rest).find? (fun c => !isSpTab c) = some a := by
  induction pre with
  | nil => rw [List.nil_append, List.find?_cons_of_pos (by rw [ha]; rfl)]
  | cons c pre ih =>
    rw [List.cons_append, List.find?_cons_of_neg (by rw [hpre c List.mem_cons_self]; decide)]
    exact ih fun x hx => hpre x (List.mem_cons_of_mem _ hx)

theorem strStrip_eq_trim_spaces (h : ∀ x ∈ s, isSpTab x = true) :
    strStrip s = trim isBlank s ↔ Strippable s := by
  rw [strStrip_spaces h, trim_of_all fun x hx => isBlank_of_isSpTab (h x hx)]
  refine ⟨.inl, ?_⟩
  rintro (hnil | ⟨hhead, -⟩ | ⟨c, hc, -⟩)
  · exact hnil
  · exact absurd rfl (ne_newline_of_isSpTab (h _ (List.mem_of_head? hhead)))
  · have := List.find?_some hc
    rw [h c (List.mem_of_find?_eq_some hc)] at this
    cases this

theorem strStrip_eq_trim_newline (rest : List Byte) :
    strStrip (0x0a :: rest) = trim isBlank (0x0a :: rest) ↔ Strippable (0x0a :: rest) := by
  rw [strStrip_newline rfl]
  constructor
  · intro h
    refine .inr (.inl ⟨rfl, ?_⟩)
    rcases trim_cases isBlank (0x0a :: rest) with ⟨hall, -⟩ | ⟨_, _, a, _, -, -, -, ha, -⟩
    · exact hall
    · rw [← h] at ha
      cases ha
  · rintro (h | ⟨-, h⟩ | ⟨c, hc, hnl, -⟩)
    · cases h
    · exact (trim_of_all h).symm
    · rw [List.find?_cons_of_pos (by decide), Option.some.injEq] at hc
      exact absurd hc.symm hnl

theorem strStrip_eq_trim_spaces_newline (hpre : ∀ x ∈ pre, isSpTab x = true) (hne : pre ≠ []) :
    strStrip (pre ++ 0x0a :: rest) = trim isBlank (pre ++ 0x0a :: rest) ↔
      Strippable (pre ++ 0x0a :: rest) := by
  constructor
  · intro h
    have hhead : (strStrip (pre ++ 0x0a :: rest)).head? = some 0x0a :=
      head?_strStrip_newline hpre hne
    rw [h] at hhead
    exact absurd (head?_trim hhead) (by decide)
  · obtain ⟨d, pre, rfl⟩ := List.exists_cons_of_ne_nil hne
    rintro (h | ⟨h, -⟩ | ⟨c, hc, hnl, -⟩)
    · cases h
    · rw [List.cons_append, List.head?_cons, Option.some.injEq] at h
      exact absurd h (ne_newline_of_isSpTab (hpre d List.mem_cons_self))
    · rw [find?_start hpre (by decide), Option.some.injEq] at hc
      exact absurd hc.symm hnl

/-- A text is trimmed unless it is one character at index 0 with blanks behind it. -/
theorem strStrip_eq_trim_text (hpre : ∀ x ∈ pre, isSpTab x = true)
    (hpost : ∀ x ∈ post, isBlank x = true) (ha : mid.head? = some a) (hpa : isBlank a = false)
    (hb : mid.getLast? = some b) (hpb : isBlank b = false) :
    strStrip (pre ++ (mid ++ post)) = trim isBlank (pre ++ (mid ++ post)) ↔
      Strippable (pre ++ (mid ++ post)) := by
  rw [trim_text hpre hpost ha hpa hb hpb]
  obtain ⟨xs, rfl⟩ := List.head?_eq_some_iff.1 ha
  have hfind : (pre ++ ((a :: xs) ++ post)).find? (fun c => !isSpTab c) = some a :=
    find?_start hpre (isSpTab_of_not_isBlank hpa) (xs ++ post)
  rcases strStrip_text_cases hpre hpost ha hpa hb hpb with ⟨hstrip, hlen⟩ | ⟨rfl, hx, hne, hstrip⟩
  · refine ⟨fun _ => .inr (.inr ⟨a, hfind, ne_newline_of_not_isBlank hpa, ?_⟩), fun _ => hstrip⟩
    rcases eq_or_ne pre [] with rfl | hpre'
    · rcases eq_or_ne xs [] with rfl | hxs
      · rcases hlen with hlen | rfl
        · exact absurd hlen (by simp)
        · exact .inl rfl
      · have hlast : xs.getLast? = some b := by
          rw [← hb, List.getLast?_cons_of_ne_nil hxs]
        exact .inr ⟨b, List.mem_append_left _ (List.mem_of_getLast? hlast), hpb⟩
    · obtain ⟨d, pre, rfl⟩ := List.exists_cons_of_ne_nil hpre'
      exact .inr ⟨a, by simp, hpa⟩
  · obtain rfl : xs = [] := by simpa using hx
    rw [List.nil_append, List.cons_append, List.nil_append, hstrip]
    refine ⟨fun h => absurd (List.cons_eq_cons.1 h).2 hne, ?_⟩
    rintro (h | ⟨h, -⟩ | ⟨c, -, -, h | ⟨x, hx, hblank⟩⟩)
    · cases h
    · rw [List.head?_cons, Option.some.injEq] at h
      exact absurd h (ne_newline_of_not_isBlank hpa)
    · rw [List.length_cons] at h
      exact absurd (List.eq_nil_of_length_eq_zero (by omega)) hne
    · rw [hpost x hx] at hblank
      cases hblank

theorem strStrip_eq_trim_iff (s : List Byte) : strStrip s = trim isBlank s ↔ Strippable s := by
  rcases text_cases s with hsp | ⟨pre, rest, rfl, hpre⟩ | ⟨pre, mid, post, a, b, rfl, hpre, hpost,
    ha, hpa, hb, hpb⟩
  · exact strStrip_eq_trim_spaces hsp
  · rcases eq_or_ne pre [] with rfl | hne
    · exact strStrip_eq_trim_newline rest
    · exact strStrip_eq_trim_spaces_newline hpre hne
  · exact strStrip_eq_trim_text hpre hpost ha hpa hb hpb

end Strip

/-! ## Lines -/

/-- A key of one character and blanks behind it. -/
def ShortKey (line : List Byte) : Prop :=
  ∃ c blanks value, trim isBlank line = c :: (blanks ++ 0x3d :: value) ∧ blanks ≠ [] ∧
    (∀ x ∈ blanks, isBlank x = true) ∧ c ≠ 0x23 ∧ c ≠ 0x3d

/-- No key, and a value of blanks. -/
def BlankValue (line : List Byte) : Prop :=
  ∃ blanks, line = 0x3d :: blanks ∧ blanks ≠ [] ∧ ∀ x ∈ blanks, isBlank x = true

section Lines

variable {t line key value : List Byte} {c : Byte}

/-- What a round stores, from what the stripper leaves of the line. -/
def splitLine (t : List Byte) : Option (List Byte × List Byte) :=
  if t = [] ∨ t.head? = some 0x23 ∨ 0x3d ∉ t then none
  else some (t.takeWhile (· != 0x3d), (t.dropWhile (· != 0x3d)).tail)

theorem bne_of_key (hkey : 0x3d ∉ key) : ∀ x ∈ key, (x != 0x3d) = true := fun x hx => by
  rw [bne_iff_ne]
  rintro rfl
  exact hkey hx

theorem takeWhile_key (hkey : 0x3d ∉ key) (value : List Byte) :
    (key ++ 0x3d :: value).takeWhile (· != 0x3d) = key := by
  rw [List.takeWhile_append_of_pos (bne_of_key hkey)]
  exact List.append_nil key

theorem splitLine_cases (t : List Byte) :
    ((t = [] ∨ t.head? = some 0x23 ∨ 0x3d ∉ t) ∧ splitLine t = none) ∨
      ∃ key value, t = key ++ 0x3d :: value ∧ 0x3d ∉ key ∧ key.head? ≠ some 0x23 ∧
        splitLine t = some (key, value) := by
  by_cases h : t = [] ∨ t.head? = some 0x23 ∨ 0x3d ∉ t
  · exact .inl ⟨h, if_pos h⟩
  have hmem : 0x3d ∈ t := by
    by_contra hno
    exact h (.inr (.inr hno))
  obtain ⟨key, value, rfl, hkey⟩ := List.eq_append_cons_of_mem hmem
  have hdrop : (key ++ 0x3d :: value).dropWhile (· != 0x3d) = 0x3d :: value := by
    rw [List.dropWhile_append_of_pos (bne_of_key hkey)]
    rfl
  refine .inr ⟨key, value, rfl, hkey, fun hhead => h (.inr (.inl ?_)), ?_⟩
  · obtain ⟨rest, rfl⟩ := List.head?_eq_some_iff.1 hhead
    rfl
  · rw [splitLine, if_neg h, takeWhile_key hkey, hdrop]
    rfl

theorem idxOf?_key (hkey : 0x3d ∉ key) (value : List Byte) :
    (key ++ 0x3d :: value).idxOf? 0x3d = some key.length := by
  induction key with
  | nil => rfl
  | cons c key ih =>
    have hc : (c == 0x3d) = false := beq_eq_false_iff_ne.2 fun h => hkey (h ▸ List.mem_cons_self)
    rw [List.cons_append, List.idxOf?_cons, hc, ih fun h => hkey (List.mem_cons_of_mem _ h)]
    rfl

theorem lineAssigns_eq (line : List Byte) :
    lineAssigns line = (splitLine (strStrip line)).map fun kv => (strStrip kv.1, strStrip kv.2) := by
  unfold lineAssigns
  dsimp only
  rcases splitLine_cases (strStrip line) with ⟨h, hnone⟩ | ⟨key, value, ht, hkey, hhead, hsome⟩
  · rw [hnone]
    rcases h with h | h | h
    · rw [h]
      rfl
    · rw [if_pos h]
      split_ifs <;> rfl
    · rw [List.idxOf?_eq_none_iff.2 h]
      split_ifs <;> rfl
  · have hne : ¬ (key ++ 0x3d :: value).length = 0 := by simp
    have hno : ¬ (key ++ 0x3d :: value).head? = some 0x23 := by
      cases key with
      | nil => exact fun he => absurd (Option.some.inj he) (by decide)
      | cons c key => exact hhead
    rw [hsome, ht, idxOf?_key hkey, if_neg hne, if_neg hno]
    simp

theorem assignment_eq (line : List Byte) :
    assignment line =
      (splitLine (trim isBlank line)).map fun kv => (trim isBlank kv.1, trim isBlank kv.2) := by
  unfold assignment splitLine
  dsimp only
  by_cases h : trim isBlank line = [] ∨ (trim isBlank line).head? = some 0x23 ∨
      0x3d ∉ trim isBlank line
  · rw [if_pos h, if_neg]
    · rfl
    · tauto
  · rw [if_neg h, if_pos]
    · rfl
    · tauto

theorem strStrip_value (hnl : 0x0a ∉ value)
    (h : ∀ b, value.getLast? = some b → isBlank b = false) :
    strStrip value = trim isBlank value := by
  rw [strStrip_eq_trim_iff]
  rcases List.eq_nil_or_concat' value with rfl | ⟨front, b, rfl⟩
  · exact .inl rfl
  have hb := h b List.getLast?_concat
  have hmem : b ∈ front ++ [b] := List.mem_append_right _ List.mem_cons_self
  have hfind : ((front ++ [b]).find? fun x => !isSpTab x).isSome = true :=
    List.find?_isSome.2 ⟨b, hmem, by rw [isSpTab_of_not_isBlank hb]; rfl⟩
  obtain ⟨c, hc⟩ := Option.isSome_iff_exists.1 hfind
  refine .inr (.inr ⟨c, hc, fun he => hnl (he ▸ List.mem_of_find?_eq_some hc), ?_⟩)
  cases front with
  | nil => exact .inl rfl
  | cons d front => exact .inr ⟨b, List.mem_append_right _ List.mem_cons_self, hb⟩

theorem strStrip_key (h : ∀ a, key.head? = some a → isBlank a = false) :
    strStrip key = trim isBlank key ∨
      ∃ a blanks, key = a :: blanks ∧ blanks ≠ [] ∧ ∀ x ∈ blanks, isBlank x = true := by
  cases key with
  | nil => exact .inl rfl
  | cons a rest =>
    have ha := h a rfl
    by_cases hall : ∀ x ∈ rest, isBlank x = true
    · by_cases hne : rest = []
      · subst hne
        exact .inl ((strStrip_eq_trim_iff _).2 (.inr (.inr ⟨a, find?_start
          (List.forall_mem_nil fun x => isSpTab x = true) (isSpTab_of_not_isBlank ha) [],
          ne_newline_of_not_isBlank ha, .inl rfl⟩)))
      · exact .inr ⟨a, rest, rfl, hne, hall⟩
    · obtain ⟨pre, c, post, rfl, -, hc⟩ := exists_first hall
      exact .inl ((strStrip_eq_trim_iff _).2 (.inr (.inr ⟨a, find?_start
          (List.forall_mem_nil fun x => isSpTab x = true) (isSpTab_of_not_isBlank ha) _,
          ne_newline_of_not_isBlank ha, .inr ⟨c, by simp, hc⟩⟩)))

theorem key_notMem_of_blanks {blanks : List Byte} (hb : ∀ x ∈ blanks, isBlank x = true) :
    0x3d ∉ blanks :=
  fun h => absurd (hb _ h) (by decide)

theorem strStrip_blankValue (h : BlankValue line) : strStrip line ≠ trim isBlank line := by
  obtain ⟨blanks, rfl, hne, hb⟩ := h
  have htrim : trim isBlank ([] ++ ([0x3d] ++ blanks)) = [0x3d] :=
    trim_text (List.forall_mem_nil _) hb rfl (by decide) rfl (by decide)
  rw [List.nil_append, List.singleton_append] at htrim
  rw [strStrip_single (by decide) hb, htrim]
  exact fun h => hne (List.cons_eq_cons.1 h).2

/-- All a round can do: store what the line says, blanks as the value of no key, or a key of one
character with the blanks behind it. -/
inductive Reading (line : List Byte) : Prop
  | same (h : lineAssigns line = assignment line) (hshort : ¬ ShortKey line)
      (hblank : ¬ BlankValue line)
  | blankValue {blanks : List Byte} (hblank : BlankValue line) (hshort : ¬ ShortKey line)
      (hanswers : assignment line = some ([], [])) (h : lineAssigns line = some ([], blanks))
      (hne : blanks ≠ [])
  | shortKey {c : Byte} {blanks value : List Byte} (hshort : ShortKey line)
      (h : lineAssigns line = some (c :: blanks, value)) (hne : blanks ≠ [])
      (hblanks : ∀ x ∈ blanks, isBlank x = true)

theorem shortKey_iff (ht : trim isBlank line = key ++ 0x3d :: value) (hkey : 0x3d ∉ key)
    (hhead : key.head? ≠ some 0x23) :
    ShortKey line ↔ ∃ a blanks, key = a :: blanks ∧ blanks ≠ [] ∧ ∀ x ∈ blanks, isBlank x = true := by
  constructor
  · rintro ⟨c, blanks, value', ht', hne, hblanks, -, hc⟩
    have hkey' : 0x3d ∉ c :: blanks := by
      rw [List.mem_cons]
      rintro (h | h)
      · exact hc h.symm
      · exact key_notMem_of_blanks hblanks h
    rw [ht, ← List.cons_append] at ht'
    have hsame := takeWhile_key hkey value
    rw [ht', takeWhile_key hkey'] at hsame
    exact ⟨c, blanks, hsame.symm, hne, hblanks⟩
  · rintro ⟨a, blanks, rfl, hne, hblanks⟩
    exact ⟨a, blanks, value, ht, hne, hblanks, fun h => hhead (h ▸ rfl),
      fun h => hkey (h ▸ List.mem_cons_self)⟩

theorem reading_of_trimmed (hnl : 0x0a ∉ line) (hstrip : strStrip line = trim isBlank line)
    (hblank : ¬ BlankValue line)
    (ha : ∀ a, (trim isBlank line).head? = some a → isBlank a = false)
    (hb : ∀ b, (trim isBlank line).getLast? = some b → isBlank b = false) : Reading line := by
  rcases splitLine_cases (trim isBlank line) with ⟨h, hnone⟩ | ⟨key, value, ht, hkey, hhead, hsome⟩
  · refine .same (by rw [lineAssigns_eq, assignment_eq, hstrip, hnone]; rfl) ?_ hblank
    rintro ⟨c, blanks, value, ht, -, -, hc, -⟩
    rw [ht] at h
    rcases h with h | h | h
    · cases h
    · exact hc (Option.some.inj h)
    · exact h (by simp)
  have hassigns : lineAssigns line = some (strStrip key, strStrip value) := by
    rw [lineAssigns_eq, hstrip, hsome, Option.map_some]
  have hanswers : assignment line = some (trim isBlank key, trim isBlank value) := by
    rw [assignment_eq, hsome, Option.map_some]
  have hvalue : strStrip value = trim isBlank value := by
    refine strStrip_value (fun h => hnl ((trim_sublist isBlank line).subset ?_)) fun b h => hb b ?_
    · rw [ht]
      exact List.mem_append_right _ (List.mem_cons_of_mem _ h)
    · rw [ht, List.getLast?_append, List.getLast?_cons, h]
      rfl
  have hfirst : ∀ a, key.head? = some a → isBlank a = false := fun a h => ha a (by
    rw [ht, List.head?_append, h]
    rfl)
  by_cases hshort : ∃ a blanks, key = a :: blanks ∧ blanks ≠ [] ∧ ∀ x ∈ blanks, isBlank x = true
  · have hline := (shortKey_iff ht hkey hhead).2 hshort
    obtain ⟨a, blanks, rfl, hne, hblanks⟩ := hshort
    rw [strStrip_single (hfirst a rfl) hblanks] at hassigns
    exact .shortKey hline hassigns hne hblanks
  · rw [(strStrip_key hfirst).resolve_right hshort, hvalue, ← hanswers] at hassigns
    exact .same hassigns (fun h => hshort ((shortKey_iff ht hkey hhead).1 h)) hblank

theorem reading_of_spaces (hsp : ∀ x ∈ line, isSpTab x = true) : Reading line := by
  have htrim := trim_of_all fun x hx => isBlank_of_isSpTab (hsp x hx)
  have hno : 0x3d ∉ line := key_notMem_of_blanks fun x hx => isBlank_of_isSpTab (hsp x hx)
  refine .same ?_ ?_ ?_
  · rw [lineAssigns_eq, assignment_eq, strStrip_spaces hsp, htrim, splitLine, if_pos (.inr (.inr hno))]
    rfl
  · rintro ⟨c, blanks, value, ht, -⟩
    rw [htrim] at ht
    cases ht
  · rintro ⟨blanks, rfl, -⟩
    exact hno List.mem_cons_self

/-- A line of one character with blanks behind it, which the stripper leaves there. -/
theorem reading_of_single {a : Byte} {blanks : List Byte} (hnl : 0x0a ∉ a :: blanks)
    (hblanks : ∀ x ∈ blanks, isBlank x = true) (hne : blanks ≠ [])
    (hstrip : strStrip (a :: blanks) = a :: blanks) (htrim : trim isBlank (a :: blanks) = [a]) :
    Reading (a :: blanks) := by
  have hshort : ¬ ShortKey (a :: blanks) := by
    rintro ⟨c, blanks', value, ht, -⟩
    rw [htrim] at ht
    simp at ht
  by_cases heq : a = 0x3d
  · subst heq
    have hvalue : strStrip blanks = blanks := strStrip_spaces fun x hx =>
      isSpTab_of_isBlank (hblanks x hx) fun h => hnl (h ▸ List.mem_cons_of_mem _ hx)
    refine .blankValue ⟨blanks, rfl, hne, hblanks⟩ hshort ?_ ?_ hne
    · rw [assignment_eq, htrim]
      rfl
    · rw [lineAssigns_eq, hstrip, splitLine, if_neg (by simp), Option.map_some]
      exact congrArg (fun v => some ([], v)) hvalue
  · have hno : 0x3d ∉ a :: blanks := by
      rw [List.mem_cons]
      rintro (h | h)
      · exact heq h.symm
      · exact key_notMem_of_blanks hblanks h
    refine .same ?_ hshort ?_
    · rw [lineAssigns_eq, assignment_eq, hstrip, htrim, splitLine, if_pos (.inr (.inr hno)), splitLine,
        if_pos (.inr (.inr (by simpa using Ne.symm heq)))]
      rfl
    · rintro ⟨blanks', hline, -⟩
      exact heq (List.cons_eq_cons.1 hline).1

theorem reading (hnl : 0x0a ∉ line) : Reading line := by
  rcases text_cases line with hsp | ⟨pre, rest, rfl, -⟩ | ⟨pre, mid, post, a, b, rfl, hpre, hpost,
    ha, hpa, hb, hpb⟩
  · exact reading_of_spaces hsp
  · exact absurd (List.mem_append_right _ List.mem_cons_self) hnl
  have htrim := trim_text hpre hpost ha hpa hb hpb
  rcases strStrip_text_cases hpre hpost ha hpa hb hpb with ⟨hstrip, -⟩ | ⟨rfl, rfl, hne, hstrip⟩
  · apply reading_of_trimmed hnl (hstrip.trans htrim.symm)
    · exact fun h => strStrip_blankValue h (hstrip.trans htrim.symm)
    · rw [htrim, ha]
      rintro c ⟨⟩
      exact hpa
    · rw [htrim, hb]
      rintro c ⟨⟩
      exact hpb
  · rw [List.nil_append, List.singleton_append] at htrim hnl ⊢
    exact reading_of_single hnl hpost hne hstrip htrim

end Lines

/-! ## Files -/

section Files

variable {text line key : List Byte}

theorem newline_notMem (h : line ∈ text.splitOn 0x0a) : 0x0a ∉ line := by
  induction text generalizing line with
  | nil =>
    rw [List.splitOn_nil, List.mem_singleton] at h
    rw [h]
    exact List.not_mem_nil
  | cons c text ih =>
    rw [List.splitOn_cons_eq_if_modifyHead] at h
    by_cases hc : (c == 0x0a) = true
    · rw [if_pos hc] at h
      rcases List.mem_cons.1 h with rfl | h
      · exact List.not_mem_nil
      · exact ih h
    · rw [if_neg hc] at h
      obtain ⟨l, ls, hls⟩ := List.exists_cons_of_ne_nil (List.splitOn_ne_nil 0x0a text)
      rw [hls, List.modifyHead_cons] at h
      have hl := ih (hls ▸ List.mem_cons_self)
      rcases List.mem_cons.1 h with rfl | h
      · rw [List.mem_cons]
        rintro (h | h)
        · exact hc (by rw [← h]; rfl)
        · exact hl h
      · exact ih (hls ▸ List.mem_cons_of_mem l h)

theorem parseFile_strings (cp : ConfigParser) (text : List Byte) :
    (cp.parseFile text).strings = assign lineAssigns cp.strings (text.splitOn 0x0a) := by
  unfold ConfigParser.parseFile assign
  generalize text.splitOn 0x0a = lines
  induction lines generalizing cp with
  | nil => rfl
  | cons line lines ih =>
    rw [List.foldl_cons, List.foldl_cons, ih]
    cases lineAssigns line with
    | none => rfl
    | some kv => rfl

/-- No line says that a key ends with a blank. -/
theorem assignment_key {c : Byte} {blanks : List Byte} (hne : blanks ≠ [])
    (hb : ∀ x ∈ blanks, isBlank x = true) : (assignment line).map Prod.fst ≠ some (c :: blanks) := by
  rw [assignment_eq, Option.map_map]
  intro h
  obtain ⟨kv, -, hkey⟩ := Option.map_eq_some_iff.1 h
  dsimp only [Function.comp_apply] at hkey
  rcases trim_cases isBlank kv.1 with ⟨-, hnil⟩ | ⟨_, _, _, b, -, -, -, -, -, hlast, hblank⟩
  · rw [hnil] at hkey
    cases hkey
  · obtain ⟨front, d, rfl⟩ := (List.eq_nil_or_concat' blanks).resolve_left hne
    rw [hkey, ← List.cons_append, List.getLast?_concat, Option.some.injEq] at hlast
    rw [← hlast, hb d (List.mem_append_right _ List.mem_cons_self)] at hblank
    cases hblank

theorem last?_lineAssigns_iff (text : List Byte) :
    (∀ key, last? lineAssigns (text.splitOn 0x0a) key = last? assignment (text.splitOn 0x0a) key) ↔
      (∀ line ∈ text.splitOn 0x0a, ¬ ShortKey line) ∧
        ∀ line, lastLine assignment (text.splitOn 0x0a) [] = some line → ¬ BlankValue line := by
  have hreading : ∀ line ∈ text.splitOn 0x0a, Reading line :=
    fun line hline => reading (newline_notMem hline)
  by_cases hshort : ∀ line ∈ text.splitOn 0x0a, ¬ ShortKey line
  · -- the same keys
    have hkeys : ∀ line ∈ text.splitOn 0x0a,
        (lineAssigns line).map Prod.fst = (assignment line).map Prod.fst := by
      intro line hline
      cases hreading line hline with
      | same h => rw [h]
      | blankValue _ _ hanswers h =>
        rw [h, hanswers]
        rfl
      | shortKey h => exact absurd h (hshort line hline)
    simp only [last?_eq_iff hkeys]
    constructor
    · refine fun hsame => ⟨hshort, fun line hlast hblank => ?_⟩
      have hline := (mem_of_lastLine hlast).1
      cases hreading line hline with
      | same _ _ h => exact h hblank
      | blankValue _ _ hanswers h hne =>
        have hread := hsame [] line hlast
        rw [h, hanswers] at hread
        exact hne (Prod.mk.inj (Option.some.inj hread)).2
      | shortKey h => exact hshort line hline h
    · intro hall key line hlast
      have hmem := mem_of_lastLine hlast
      cases hreading line hmem.1 with
      | same h => exact h
      | blankValue hblank _ hanswers =>
        rw [hanswers] at hmem
        obtain rfl : [] = key := Option.some.inj hmem.2
        exact absurd hblank (hall.2 line hlast)
      | shortKey h => exact absurd h (hshort line hmem.1)
  · -- a key with blanks behind it, which no line says
    refine iff_of_false (fun hsame => ?_) fun h => hshort h.1
    push Not at hshort
    obtain ⟨line, hline, hkey⟩ := hshort
    cases hreading line hline with
    | same _ h => exact h hkey
    | blankValue _ h => exact h hkey
    | @shortKey c blanks value _ hsome hne hblanks =>
      obtain ⟨v, hv⟩ := exists_last? (f := lineAssigns) (k := c :: blanks) hline (by rw [hsome]; rfl)
      rw [hsame] at hv
      obtain ⟨l, hl, -⟩ := Option.bind_eq_some_iff.1 hv
      exact assignment_key hne hblanks (mem_of_lastLine hl).2

/-- **Where strings are trimmed and files are read as they say.**  On every string, and on every file
whatever was read before: if no key is one character with blanks behind it, and the last line without a
key has a value that is not just blanks. -/
theorem parseFile_iff (s text : List Byte) :
    (strStrip s = trim isBlank s ↔ Strippable s) ∧
      ((∀ (cp : ConfigParser) (key : List Byte),
          (cp.parseFile text).get key =
            (last? assignment (text.splitOn 0x0a) key).getD (cp.get key)) ↔
        (∀ line ∈ text.splitOn 0x0a, ¬ ShortKey line) ∧
          ∀ line, lastLine assignment (text.splitOn 0x0a) [] = some line → ¬ BlankValue line) := by
  refine ⟨strStrip_eq_trim_iff s, ?_⟩
  rw [← last?_lineAssigns_iff, forall_comm]
  apply forall_congr'
  intro key
  have : Nontrivial (List Byte) := ⟨[], [0], by decide⟩
  rw [← assign_getD_iff (d := [])]
  simp only [ConfigParser.get, parseFile_strings]
  exact ⟨fun h t => h ⟨t⟩, fun h cp => h cp.strings⟩

/-- "a =1", and a string that is one space. -/
theorem parseFile_fails :
    strStrip [0x20] ≠ trim isBlank [0x20] ∧
      (ConfigParser.parseFile ⟨fun _ => none⟩ [0x61, 0x20, 0x3d, 0x31]).get [0x61] ≠
        (last? assignment ([0x61, 0x20, 0x3d, 0x31].splitOn 0x0a) [0x61]).getD [] := by
  decide

end Files

end UsbProxy
