import Mathlib.Data.List.Induction
import Mathlib.Data.List.Nodup

/-!
# Lists with one entry for a key

An entry takes the place of the one with its key, or goes to the end.  A list filled so holds, in the
order in which the keys first came, the entry that came last with each (`fill_eq`).
-/

namespace Upserts

variable {α κ : Type*} [DecidableEq κ] {key : α → κ} {a b : α} {l as : List α} {k : κ}

/-- The entry takes the place of the first with its key. -/
def upsert (key : α → κ) (a : α) : List α → List α
  | [] => [a]
  | b :: l => if key b = key a then a :: l else b :: upsert key a l

/-- The list the entries make. -/
def fill (key : α → κ) (as : List α) : List α := as.foldl (fun l a => upsert key a l) []

/-- The entry that came last with a key. -/
def last (key : α → κ) (as : List α) (k : κ) : Option α := (as.filter fun a => key a = k).getLast?

/-! ## One entry -/

theorem upsert_of_notMem (h : key a ∉ l.map key) : upsert key a l = l ++ [a] := by
  induction l with
  | nil => rfl
  | cons b l ih =>
    rw [List.map_cons, List.mem_cons, not_or] at h
    rw [upsert, if_neg (Ne.symm h.1), ih h.2, List.cons_append]

theorem upsert_of_key_eq {front back : List α} (h : key a ∉ front.map key) (hb : key b = key a) :
    upsert key a (front ++ b :: back) = front ++ a :: back := by
  induction front with
  | nil => exact if_pos hb
  | cons c front ih =>
    rw [List.map_cons, List.mem_cons, not_or] at h
    rw [List.cons_append, upsert, if_neg (Ne.symm h.1), ih h.2, List.cons_append]

theorem exists_of_mem_keys (h : k ∈ l.map key) :
    ∃ front b back, l = front ++ b :: back ∧ key b = k ∧ k ∉ front.map key := by
  induction l with
  | nil => exact absurd h List.not_mem_nil
  | cons c l ih =>
    by_cases hc : key c = k
    · exact ⟨[], c, l, rfl, hc, List.not_mem_nil⟩
    · rw [List.map_cons, List.mem_cons] at h
      obtain ⟨front, b, back, rfl, hb, hfront⟩ := ih (h.resolve_left (Ne.symm hc))
      refine ⟨c :: front, b, back, rfl, hb, ?_⟩
      rw [List.map_cons, List.mem_cons, not_or]
      exact ⟨Ne.symm hc, hfront⟩

/-- The keys stay, and a new one goes to the end. -/
theorem keys_upsert (key : α → κ) (a : α) (l : List α) :
    (upsert key a l).map key =
      if key a ∈ l.map key then l.map key else l.map key ++ [key a] := by
  by_cases h : key a ∈ l.map key
  · obtain ⟨front, b, back, rfl, hb, hfront⟩ := exists_of_mem_keys h
    rw [if_pos h, upsert_of_key_eq hfront hb, List.map_append, List.map_append, List.map_cons,
      List.map_cons, hb]
  · rw [if_neg h, upsert_of_notMem h, List.map_append, List.map_singleton]

theorem nodup_keys_upsert (a : α) (h : (l.map key).Nodup) : ((upsert key a l).map key).Nodup := by
  rw [keys_upsert]
  split_ifs with ha
  · exact h
  · exact List.concat_eq_append ▸ h.concat ha

theorem mem_upsert (h : (l.map key).Nodup) :
    b ∈ upsert key a l ↔ b = a ∨ b ∈ l ∧ key b ≠ key a := by
  by_cases ha : key a ∈ l.map key
  · obtain ⟨front, c, back, rfl, hc, hfront⟩ := exists_of_mem_keys ha
    have hback : key a ∉ back.map key := by
      rw [List.map_append, List.map_cons, hc] at h
      exact (List.nodup_cons.1 h.of_append_right).1
    rw [upsert_of_key_eq hfront hc]
    have hne : ∀ {l' : List α}, key a ∉ l'.map key → b ∈ l' → key b ≠ key a :=
      fun hl' hb he => hl' (he ▸ List.mem_map_of_mem hb)
    simp only [List.mem_append, List.mem_cons]
    constructor
    · rintro (hb | rfl | hb)
      · exact .inr ⟨.inl hb, hne hfront hb⟩
      · exact .inl rfl
      · exact .inr ⟨.inr (.inr hb), hne hback hb⟩
    · rintro (rfl | ⟨hb | rfl | hb, hk⟩)
      · exact .inr (.inl rfl)
      · exact .inl hb
      · exact absurd hc hk
      · exact .inr (.inr hb)
  · rw [upsert_of_notMem ha, List.mem_append, List.mem_singleton, or_comm]
    refine or_congr_right ⟨fun hb => ⟨hb, fun he => ?_⟩, And.left⟩
    exact ha (he ▸ List.mem_map_of_mem hb)

/-! ## All of them -/

theorem fill_concat (key : α → κ) (as : List α) (a : α) :
    fill key (as ++ [a]) = upsert key a (fill key as) := by
  unfold fill
  rw [List.foldl_append, List.foldl_cons, List.foldl_nil]

theorem last_concat (key : α → κ) (as : List α) (a : α) (k : κ) :
    last key (as ++ [a]) k = if key a = k then some a else last key as k := by
  unfold last
  rw [List.filter_append]
  by_cases h : key a = k
  · rw [if_pos h, List.filter_cons, decide_eq_true h, if_pos rfl, List.filter_nil,
      List.getLast?_concat]
  · rw [if_neg h, List.filter_cons, decide_eq_false h, if_neg Bool.false_ne_true, List.filter_nil,
      List.append_nil]

theorem nodup_keys_fill (key : α → κ) (as : List α) : ((fill key as).map key).Nodup := by
  induction as using List.reverseRecOn with
  | nil => exact List.nodup_nil
  | append_singleton as a ih =>
    rw [fill_concat]
    exact nodup_keys_upsert a ih

theorem eraseDups_concat (ks : List κ) (k : κ) :
    (ks ++ [k]).eraseDups = if k ∈ ks then ks.eraseDups else ks.eraseDups ++ [k] := by
  rw [List.eraseDups_append, List.removeAll]
  split_ifs with h
  · simp [h]
  · simp [h, List.eraseDups_cons]

/-- The keys stand in the order in which they first came. -/
theorem keys_fill (key : α → κ) (as : List α) :
    (fill key as).map key = (as.map key).eraseDups := by
  induction as using List.reverseRecOn with
  | nil => rfl
  | append_singleton as a ih =>
    rw [fill_concat, keys_upsert, ih, List.map_append, List.map_singleton, eraseDups_concat]
    simp only [List.mem_eraseDups]

theorem mem_fill : b ∈ fill key as ↔ last key as (key b) = some b := by
  induction as using List.reverseRecOn with
  | nil => exact iff_of_false List.not_mem_nil (Option.some_ne_none b).symm
  | append_singleton as a ih =>
    rw [fill_concat, mem_upsert (nodup_keys_fill key as), ih, last_concat]
    by_cases hk : key a = key b
    · rw [if_pos hk, Option.some.injEq]
      exact ⟨fun h => (h.resolve_right fun h => h.2 hk.symm).symm, fun h => .inl h.symm⟩
    · rw [if_neg hk]
      exact ⟨fun h => (h.resolve_left fun h => hk (h ▸ rfl)).1, fun h => .inr ⟨h, Ne.symm hk⟩⟩

theorem eq_of_mem_fill (ha : a ∈ fill key as) (hb : b ∈ fill key as) (h : key a = key b) : a = b := by
  rw [mem_fill] at ha hb
  rw [h, hb] at ha
  exact (Option.some.inj ha).symm

theorem mem_of_last (h : last key as k = some a) : a ∈ as ∧ key a = k := by
  have hmem := List.mem_filter.1 (List.mem_of_getLast? h)
  exact ⟨hmem.1, of_decide_eq_true hmem.2⟩

theorem last_eq_none_iff : last key as k = none ↔ k ∉ as.map key := by
  unfold last
  rw [List.getLast?_eq_none_iff, List.filter_eq_nil_iff]
  simp

theorem last_cons (key : α → κ) (a : α) (as : List α) (k : κ) :
    last key (a :: as) k = (last key as k).or (if key a = k then some a else none) := by
  induction as using List.reverseRecOn with
  | nil => exact last_concat key [] a k
  | append_singleton as b ih =>
    rw [← List.cons_append, last_concat, last_concat, ih]
    by_cases hb : key b = k
    · rw [if_pos hb, if_pos hb, Option.some_or]
    · rw [if_neg hb, if_neg hb]

/-- Under different keys every entry came last with its own. -/
theorem last_of_nodup (h : (as.map key).Nodup) (ha : a ∈ as) : last key as (key a) = some a := by
  cases hlast : last key as (key a) with
  | none => exact absurd (List.mem_map_of_mem ha) (last_eq_none_iff.1 hlast)
  | some b =>
    obtain ⟨hb, hkey⟩ := mem_of_last hlast
    rw [List.inj_on_of_nodup_map h hb ha hkey]

theorem fill_eq (key : α → κ) (as : List α) :
    fill key as = (as.map key).eraseDups.filterMap (last key as) := by
  rw [← keys_fill, List.filterMap_map]
  have h : ∀ b ∈ fill key as, (last key as ∘ key) b = some b := fun b hb => mem_fill.1 hb
  rw [List.filterMap_congr h]
  exact List.filterMap_some.symm

/-- A search for a key finds the entry that came last with it. -/
theorem find?_fill (key : α → κ) (as : List α) (k : κ) :
    (fill key as).find? (fun b => key b = k) = last key as k := by
  cases h : last key as k with
  | none =>
    rw [List.find?_eq_none]
    intro b hb
    rw [decide_eq_true_eq]
    rintro rfl
    exact absurd (mem_fill.1 hb) (by rw [h]; exact (Option.some_ne_none b).symm)
  | some a =>
    obtain ⟨-, rfl⟩ := mem_of_last h
    have ha : a ∈ fill key as := mem_fill.2 h
    have hsome : ((fill key as).find? fun b => key b = key a).isSome :=
      List.find?_isSome.2 ⟨a, ha, decide_eq_true rfl⟩
    obtain ⟨b, hb⟩ := Option.isSome_iff_exists.1 hsome
    rw [hb]
    have hkey : key b = key a := by simpa using List.find?_some hb
    have := mem_fill.1 (List.mem_of_find?_eq_some hb)
    rw [hkey, h] at this
    exact this.symm

end Upserts
