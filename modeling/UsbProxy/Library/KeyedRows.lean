import UsbProxy.Library.Slots

/-!
# Filing under two keys

A table of rows that grows to the row an entry is filed in, and rows in which the entry takes the place
of all with its tag and is appended as well.  A lookup finds the entry filed last, but a second entry of
one tag stands in its row twice: the keys of the table are all the keys ever filed (`keys_store`), and
no entry stands twice exactly when no key does (`nodup_entries_iff`).
-/

namespace KeyedRows

open Slots

variable {α κ : Type*} [DecidableEq κ]

/-- The entry replaces every one with its tag, and goes to the end of the row. -/
def file (tag : α → κ) (a : α) : List α → List α
  | [] => [a]
  | b :: l => (if tag b = tag a then a else b) :: file tag a l

def row (rows : List (Option (List α))) (k : ℕ) : List α := (slot rows k).getD []

def store (tag : α → κ) (rows : List (Option (List α))) (k : ℕ) (a : α) : List (Option (List α)) :=
  put rows k (file tag a (row rows k))

def entries (rows : List (Option (List α))) : List α := rows.flatMap fun r => r.getD []

variable {tag : α → κ} {place : α → ℕ} {rows : List (Option (List α))} {l : List α} {a b : α} {k : ℕ}

/-! ## One row -/

theorem mem_file : b ∈ file tag a l ↔ b = a ∨ b ∈ l ∧ tag b ≠ tag a := by
  induction l with
  | nil => simp [file]
  | cons c l ih =>
    rw [file, List.mem_cons, ih, List.mem_cons]
    split_ifs with hc
    · constructor
      · rintro (rfl | rfl | ⟨hb, hne⟩)
        · exact .inl rfl
        · exact .inl rfl
        · exact .inr ⟨.inr hb, hne⟩
      · rintro (rfl | ⟨rfl | hb, hne⟩)
        · exact .inl rfl
        · exact absurd hc hne
        · exact .inr (.inr ⟨hb, hne⟩)
    · constructor
      · rintro (rfl | rfl | ⟨hb, hne⟩)
        · exact .inr ⟨.inl rfl, hc⟩
        · exact .inl rfl
        · exact .inr ⟨.inr hb, hne⟩
      · rintro (rfl | ⟨rfl | hb, hne⟩)
        · exact .inr (.inl rfl)
        · exact .inl rfl
        · exact .inr (.inr ⟨hb, hne⟩)

/-- A lookup finds the entry filed last; the other tags are looked up as before. -/
theorem find?_file (t : κ) :
    (file tag a l).find? (fun c => tag c = t) =
      if t = tag a then some a else l.find? (fun c => tag c = t) := by
  induction l with
  | nil =>
    rw [file, List.find?_singleton]
    by_cases ht : tag a = t
    · simp [ht]
    · simp [ht, Ne.symm ht]
  | cons c l ih =>
    rw [file, List.find?_cons, ih, List.find?_cons]
    by_cases hc : tag c = tag a
    · by_cases ht : tag a = t
      · simp [hc, ht]
      · simp [hc, ht, Ne.symm ht]
    · by_cases ht : tag a = t
      · subst ht
        simp [hc]
      · by_cases hct : tag c = t <;> simp [hc, hct, Ne.symm ht]

/-- What replaces an entry has its tag, so the tags of a row are kept and one is added. -/
theorem map_file {β : Type*} {f : α → β} (h : ∀ b ∈ l, tag b = tag a → f b = f a) :
    (file tag a l).map f = l.map f ++ [f a] := by
  induction l with
  | nil => rfl
  | cons c l ih =>
    rw [file, List.map_cons, ih fun b hb => h b (List.mem_cons_of_mem c hb), List.map_cons,
      List.cons_append]
    congr 1
    split_ifs with hc
    · exact (h c List.mem_cons_self hc).symm
    · rfl

/-! ## The table -/

theorem row_store (j : ℕ) :
    row (store tag rows k a) j = if j = k then file tag a (row rows k) else row rows j := by
  unfold store
  rw [row, slot_put]
  split_ifs
  · rfl
  · rfl

/-- **A lookup finds what was filed last under its keys, and every other lookup stays.** -/
theorem find?_row_store (j : ℕ) (t : κ) :
    (row (store tag rows k a) j).find? (fun c => tag c = t) =
      if j = k ∧ t = tag a then some a else (row rows j).find? (fun c => tag c = t) := by
  rw [row_store]
  by_cases hj : j = k
  · rw [if_pos hj, find?_file, hj]
    simp
  · rw [if_neg hj, if_neg fun h => hj h.1]

theorem mem_entries : b ∈ entries rows ↔ ∃ k, b ∈ row rows k := by
  unfold entries row slot
  rw [List.mem_flatMap]
  constructor
  · rintro ⟨r, hr, hb⟩
    obtain ⟨k, hk, rfl⟩ := List.getElem_of_mem hr
    exact ⟨k, by rwa [List.getElem?_eq_getElem hk, Option.join_some]⟩
  · rintro ⟨k, hb⟩
    rcases Nat.lt_or_ge k rows.length with hk | hk
    · rw [List.getElem?_eq_getElem hk, Option.join_some] at hb
      exact ⟨rows[k], List.getElem_mem hk, hb⟩
    · rw [List.getElem?_eq_none hk] at hb
      exact absurd hb List.not_mem_nil

theorem entries_append (rows' : List (Option (List α))) :
    entries (rows ++ rows') = entries rows ++ entries rows' := List.flatMap_append

theorem entries_replicate (n : ℕ) : entries (List.replicate n (none : Option (List α))) = [] :=
  List.flatMap_eq_nil_iff.2 fun r hr => by rw [List.eq_of_mem_replicate hr]; rfl

theorem entries_cons_perm (front : List (Option (List α))) (r : Option (List α))
    (behind : List (Option (List α))) :
    (entries (front ++ r :: behind)).Perm (entries front ++ entries behind ++ r.getD []) := by
  rw [entries_append, List.append_assoc]
  exact List.Perm.append_left _ List.perm_append_comm

/-- A put changes one row: what the other rows hold stands beside the old row as beside the new one. -/
theorem exists_entries_perm (rows : List (Option (List α))) (k : ℕ) :
    ∃ others, (entries rows).Perm (others ++ row rows k) ∧
      ∀ l, (entries (put rows k l)).Perm (others ++ l) := by
  rcases Nat.lt_or_ge k rows.length with hk | hk
  · refine ⟨entries (rows.take k) ++ entries (rows.drop (k + 1)), ?_, fun l => ?_⟩
    · have hsplit : rows.take k ++ rows[k] :: rows.drop (k + 1) = rows := by
        rw [List.getElem_cons_drop hk, List.take_append_drop]
      have hrow : row rows k = rows[k].getD [] := by
        unfold row slot
        rw [List.getElem?_eq_getElem hk, Option.join_some]
      have h := entries_cons_perm (rows.take k) rows[k] (rows.drop (k + 1))
      rwa [hsplit, ← hrow] at h
    · have hput : put rows k l = rows.take k ++ some l :: rows.drop (k + 1) := by
        rw [put, if_pos hk, List.set_eq_take_append_cons_drop, if_pos hk]
      rw [hput]
      exact entries_cons_perm (rows.take k) (some l) (rows.drop (k + 1))
  · refine ⟨entries rows, ?_, fun l => ?_⟩
    · rw [row, slot_eq_none_of_le hk, Option.getD_none, List.append_nil]
    · rw [put, if_neg (Nat.not_lt.2 hk), entries_append, entries_append, entries_replicate,
        List.append_nil]
      exact List.Perm.append_left _ (List.Perm.of_eq (List.append_nil l))

/-! ## The keys -/

/-- Every entry is in the row of its place. -/
def Placed (place : α → ℕ) (rows : List (Option (List α))) : Prop :=
  ∀ k, ∀ b ∈ row rows k, place b = k

/-- Entries with the same two keys are the same. -/
def Unambiguous (place : α → ℕ) (tag : α → κ) (rows : List (Option (List α))) : Prop :=
  ∀ b ∈ entries rows, ∀ c ∈ entries rows, place b = place c → tag b = tag c → b = c

theorem Placed.mem_row (h : Placed place rows) (hb : b ∈ entries rows) : b ∈ row rows (place b) := by
  obtain ⟨k, hk⟩ := mem_entries.1 hb
  rwa [h k b hk]

theorem Placed.store (h : Placed place rows) (tag : α → κ) (a : α) :
    Placed place (store tag rows (place a) a) := by
  intro k b hb
  rw [row_store] at hb
  split_ifs at hb with hk
  · rcases mem_file.1 hb with rfl | ⟨hb, -⟩
    · exact hk.symm
    · rw [hk]
      exact h _ b hb
  · exact h k b hb

theorem mem_entries_store (h : Placed place rows) :
    b ∈ entries (store tag rows (place a) a) ↔
      b = a ∨ b ∈ entries rows ∧ ¬ (place b = place a ∧ tag b = tag a) := by
  constructor
  · intro hb
    have hrow := (h.store tag a).mem_row hb
    rw [row_store] at hrow
    split_ifs at hrow with hk
    · rcases mem_file.1 hrow with rfl | ⟨hb, hne⟩
      · exact .inl rfl
      · exact .inr ⟨mem_entries.2 ⟨_, hb⟩, fun he => hne he.2⟩
    · exact .inr ⟨mem_entries.2 ⟨_, hrow⟩, fun he => hk he.1⟩
  · rintro (rfl | ⟨hb, hne⟩)
    · refine mem_entries.2 ⟨place b, ?_⟩
      rw [row_store, if_pos rfl]
      exact mem_file.2 (.inl rfl)
    · refine mem_entries.2 ⟨place b, ?_⟩
      have hrow := h.mem_row hb
      rw [row_store]
      split_ifs with hk
      · rw [hk] at hrow
        exact mem_file.2 (.inr ⟨hrow, fun ht => hne ⟨hk, ht⟩⟩)
      · exact hrow

theorem Unambiguous.store (hp : Placed place rows) (h : Unambiguous place tag rows) (a : α) :
    Unambiguous place tag (store tag rows (place a) a) := by
  intro b hb c hc hplace htag
  rcases (mem_entries_store hp).1 hb with rfl | ⟨hb, hbne⟩
  · rcases (mem_entries_store hp).1 hc with rfl | ⟨-, hcne⟩
    · rfl
    · exact absurd ⟨hplace.symm, htag.symm⟩ hcne
  · rcases (mem_entries_store hp).1 hc with rfl | ⟨hc, -⟩
    · exact absurd ⟨hplace, htag⟩ hbne
    · exact h b hb c hc hplace htag

theorem keys_store (h : Placed place rows) :
    ((entries (store tag rows (place a) a)).map fun b => (place b, tag b)).Perm
      ((entries rows).map (fun b => (place b, tag b)) ++ [(place a, tag a)]) := by
  obtain ⟨others, hold, hnew⟩ := exists_entries_perm rows (place a)
  have hrow : (file tag a (row rows (place a))).map (fun b => (place b, tag b)) =
      (row rows (place a)).map (fun b => (place b, tag b)) ++ [(place a, tag a)] :=
    map_file fun b hb ht => by rw [h _ b hb, ht]
  have h' := (hnew (file tag a (row rows (place a)))).map fun b => (place b, tag b)
  rw [List.map_append, hrow, ← List.append_assoc, ← List.map_append] at h'
  exact h'.trans ((hold.map _).symm.append_right _)

omit [DecidableEq κ] in
/-- **No entry stands twice exactly when no pair of keys does.** -/
theorem nodup_entries_iff (h : Unambiguous place tag rows) :
    (entries rows).Nodup ↔ ((entries rows).map fun b => (place b, tag b)).Nodup := by
  constructor
  · intro hnd
    refine hnd.map_on fun b hb c hc hkey => ?_
    exact h b hb c hc (Prod.mk.inj hkey).1 (Prod.mk.inj hkey).2
  · exact List.Nodup.of_map _

end KeyedRows
