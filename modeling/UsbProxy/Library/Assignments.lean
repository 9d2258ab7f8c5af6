import Mathlib.Logic.Function.Basic
import UsbProxy.Library.Upserts

/-!
# Tables filled line by line

A table is filled from a list of lines, each of which may assign a value to a key: `f` says what a line
assigns.  What a key has in the end is what the last line for it assigned (`assign_apply`).  Two readings
of the same lines that see the same keys fill every table alike where they agree on the last line for
every key (`last?_eq_iff`).
-/

namespace Assignments

variable {L K V : Type*} [DecidableEq K] {f g : L → Option (K × V)} {lines : List L} {l : L} {k : K}

/-- The table after the lines. -/
def assign (f : L → Option (K × V)) (t : K → Option V) (lines : List L) : K → Option V :=
  lines.foldl (fun t l => match f l with
    | none => t
    | some kv => Function.update t kv.1 (some kv.2)) t

def lastLine (f : L → Option (K × V)) (lines : List L) (k : K) : Option L :=
  (lines.filter fun l => (f l).map Prod.fst = some k).getLast?

/-- The value it assigns. -/
def last? (f : L → Option (K × V)) (lines : List L) (k : K) : Option V :=
  (lastLine f lines k).bind fun l => (f l).map Prod.snd

theorem lastLine_concat (f : L → Option (K × V)) (lines : List L) (l : L) (k : K) :
    lastLine f (lines ++ [l]) k =
      if (f l).map Prod.fst = some k then some l else lastLine f lines k :=
  Upserts.last_concat (fun l => (f l).map Prod.fst) lines l (some k)

theorem mem_of_lastLine (h : lastLine f lines k = some l) :
    l ∈ lines ∧ (f l).map Prod.fst = some k := by
  have hlast : Upserts.last (fun l => (f l).map Prod.fst) lines (some k) = some l := h
  exact Upserts.mem_of_last hlast

theorem exists_lastLine (hl : l ∈ lines) (hk : (f l).map Prod.fst = some k) :
    ∃ l', lastLine f lines k = some l' := by
  have hmem : l ∈ lines.filter fun l => (f l).map Prod.fst = some k :=
    List.mem_filter.2 ⟨hl, decide_eq_true hk⟩
  exact ⟨_, List.getLast?_eq_some_getLast (List.ne_nil_of_mem hmem)⟩

theorem exists_last? (hl : l ∈ lines) (hk : (f l).map Prod.fst = some k) :
    ∃ v, last? f lines k = some v := by
  obtain ⟨l', hlast⟩ := exists_lastLine hl hk
  obtain ⟨kv, hkv, -⟩ := Option.map_eq_some_iff.1 (mem_of_lastLine hlast).2
  exact ⟨kv.2, by rw [last?, hlast, Option.bind_some, hkv, Option.map_some]⟩

theorem assign_apply (f : L → Option (K × V)) (t : K → Option V) (lines : List L) (k : K) :
    assign f t lines k = (last? f lines k).or (t k) := by
  induction lines using List.reverseRecOn with
  | nil => rfl
  | append_singleton lines l ih =>
    rw [assign, List.foldl_append, List.foldl_cons, List.foldl_nil, ← assign, last?, lastLine_concat]
    by_cases hk : (f l).map Prod.fst = some k
    · obtain ⟨kv, hkv, rfl⟩ := Option.map_eq_some_iff.1 hk
      rw [if_pos hk, Option.bind_some, hkv]
      exact Function.update_self ..
    · rw [if_neg hk, ← last?, ← ih]
      cases hf : f l with
      | none => rfl
      | some kv =>
        have hne : k ≠ kv.1 := by
          rintro rfl
          exact hk (by rw [hf, Option.map_some])
        exact Function.update_of_ne hne ..

theorem assign_getD_iff [Nontrivial V] {d : V} {spec : Option V} (f : L → Option (K × V))
    (lines : List L) (k : K) :
    (∀ t : K → Option V, (assign f t lines k).getD d = spec.getD ((t k).getD d)) ↔
      last? f lines k = spec := by
  simp only [assign_apply]
  constructor
  · intro h
    cases hf : last? f lines k with
    | none =>
      cases spec with
      | none => rfl
      | some b =>
        obtain ⟨a, ha⟩ := exists_ne b
        have := h fun _ => some a
        rw [hf] at this
        exact absurd this ha
    | some a =>
      cases spec with
      | none =>
        obtain ⟨b, hb⟩ := exists_ne a
        have := h fun _ => some b
        rw [hf] at this
        exact absurd this.symm hb
      | some b =>
        have := h fun _ => none
        rw [hf] at this
        exact congrArg some this
  · rintro rfl t
    cases last? f lines k <;> rfl

omit [DecidableEq K] in
theorem eq_of_map_eq {o o' : Option (K × V)} (hfst : o.map Prod.fst = o'.map Prod.fst)
    (hsnd : o.map Prod.snd = o'.map Prod.snd) : o = o' := by
  cases o with
  | none => exact (Option.map_eq_none_iff.1 hfst.symm).symm
  | some kv =>
    obtain ⟨kv', rfl, hk⟩ := Option.map_eq_some_iff.1 hfst.symm
    exact congrArg some (Prod.ext hk.symm (Option.some.inj hsnd))

/-- Readings that find the same keys give the same value if they agree on the line that counts. -/
theorem last?_eq_iff (hkeys : ∀ l ∈ lines, (f l).map Prod.fst = (g l).map Prod.fst) :
    last? f lines k = last? g lines k ↔ ∀ l, lastLine g lines k = some l → f l = g l := by
  have hlast : lastLine f lines k = lastLine g lines k := by
    unfold lastLine
    refine congrArg List.getLast? (List.filter_congr fun l hl => ?_)
    rw [hkeys l hl]
  unfold last?
  rw [hlast]
  cases hg : lastLine g lines k with
  | none =>
    refine iff_of_true rfl ?_
    rintro _ ⟨⟩
  | some l =>
    have hl := hkeys l (mem_of_lastLine hg).1
    simp only [Option.bind_some, Option.some.injEq, forall_eq']
    exact ⟨eq_of_map_eq hl, congrArg (Option.map Prod.snd)⟩

end Assignments
