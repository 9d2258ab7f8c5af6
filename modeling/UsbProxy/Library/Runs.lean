import Mathlib.Data.Option.Basic
import Mathlib.Data.List.Induction
import Mathlib.Data.List.Nodup

/-!
# Runs of a partial step function

A system is a partial function `step : σ → ι → Option σ`: the state after one input, or `none` when
the input is not possible there.  For a system of several threads an input names the thread that
moves together with what its environment answers, so a run is one interleaving.

`invariant_of_along` is the rule every invariant of a run comes from: what one step preserves under
a condition `P` on the state before it, a run whose steps all meet `P` preserves.
-/

namespace Runs

variable {σ ι ω : Type*} (step : σ → ι → Option σ)

/-- The state after the inputs, `none` once one of them is not possible. -/
def run : σ → List ι → Option σ
  | s, [] => some s
  | s, i :: is => (step s i).bind fun t => run t is

/-- Every step of the run meets `P`, a condition on the state before it and its input. -/
def Along (P : σ → ι → Prop) : σ → List ι → Prop
  | _, [] => True
  | s, i :: is => P s i ∧ ∀ t, step s i = some t → Along P t is

/-- What the steps put out; the output of a step that ends the system is the last one. -/
def outputs (out : σ → ι → ω) : σ → List ι → List ω
  | _, [] => []
  | s, i :: is =>
    out s i :: match step s i with
      | none => []
      | some t => outputs out t is

@[simp] theorem run_nil (s : σ) : run step s [] = some s := rfl

theorem run_cons_eq_some {s t : σ} {i : ι} {is : List ι} :
    run step s (i :: is) = some t ↔ ∃ m, step s i = some m ∧ run step m is = some t := by
  simp [run, Option.bind_eq_some_iff]

theorem run_append_eq_some {s t : σ} {is js : List ι} :
    run step s (is ++ js) = some t ↔ ∃ m, run step s is = some m ∧ run step m js = some t := by
  induction is generalizing s with
  | nil => simp
  | cons i is ih =>
    simp only [List.cons_append, run_cons_eq_some, ih]
    constructor
    · rintro ⟨m, hm, n, hn, ht⟩
      exact ⟨n, ⟨m, hm, hn⟩, ht⟩
    · rintro ⟨n, ⟨m, hm, hn⟩, ht⟩
      exact ⟨m, hm, n, hn, ht⟩

theorem run_concat_eq_some {s t : σ} {is : List ι} {i : ι} :
    run step s (is ++ [i]) = some t ↔ ∃ m, run step s is = some m ∧ step m i = some t := by
  rw [run_append_eq_some]
  refine exists_congr fun m => and_congr_right fun _ => ?_
  have hsingle : run step m [i] = step m i := Option.bind_fun_some (step m i)
  rw [hsingle]

section Along

variable {step} {P Q : σ → ι → Prop}

theorem Along.head {s : σ} {i : ι} {is : List ι} (h : Along step P s (i :: is)) : P s i := h.1

theorem Along.tail {s t : σ} {i : ι} {is : List ι} (h : Along step P s (i :: is))
    (ht : step s i = some t) : Along step P t is := h.2 t ht

theorem Along.and_forall {Q : ι → Prop} {s : σ} {is : List ι} (h : Along step P s is)
    (hQ : ∀ i ∈ is, Q i) : Along step (fun s i => P s i ∧ Q i) s is := by
  induction is generalizing s with
  | nil => trivial
  | cons i is ih =>
    obtain ⟨hi, his⟩ := List.forall_mem_cons.1 hQ
    exact ⟨⟨h.head, hi⟩, fun t ht => ih (h.tail ht) his⟩

/-- A step invariant that needs `P` is an invariant of the runs along which `P` holds. -/
theorem invariant_of_along (Inv : σ → Prop)
    (hstep : ∀ s i t, step s i = some t → P s i → Inv s → Inv t) {s t : σ} {is : List ι}
    (hP : Along step P s is) (hrun : run step s is = some t) (hs : Inv s) : Inv t := by
  induction is generalizing s with
  | nil =>
    rw [run_nil, Option.some.injEq] at hrun
    exact hrun ▸ hs
  | cons i is ih =>
    obtain ⟨m, hm, ht⟩ := (run_cons_eq_some step).1 hrun
    exact ih (hP.tail hm) ht (hstep s i m hm hP.head hs)

/-- The same for an invariant about the state and what the inputs brought on the way to it. -/
theorem invariant_of_history {note : ι → List ω} (Inv : σ → List ω → Prop)
    (hstep : ∀ s i t past, step s i = some t → P s i → Inv s past → Inv t (past ++ note i))
    {s t : σ} {is : List ι} {past : List ω} (hP : Along step P s is) (hrun : run step s is = some t)
    (hs : Inv s past) : Inv t (past ++ is.flatMap note) := by
  induction is generalizing s past with
  | nil =>
    rw [run_nil, Option.some.injEq] at hrun
    rw [List.flatMap_nil, List.append_nil]
    exact hrun ▸ hs
  | cons i is ih =>
    obtain ⟨m, hm, ht⟩ := (run_cons_eq_some step).1 hrun
    rw [List.flatMap_cons, ← List.append_assoc]
    exact ih (hP.tail hm) ht (hstep s i m past hm hP.head hs)

theorem along_append {s : σ} {is js : List ι} :
    Along step P s (is ++ js) ↔
      Along step P s is ∧ ∀ t, run step s is = some t → Along step P t js := by
  induction is generalizing s with
  | nil => simp [Along]
  | cons i is ih =>
    simp only [List.cons_append, Along, ih, run_cons_eq_some]
    constructor
    · rintro ⟨hi, h⟩
      exact ⟨⟨hi, fun t ht => (h t ht).1⟩, fun t ⟨m, hm, ht⟩ => (h m hm).2 t ht⟩
    · rintro ⟨⟨hi, h⟩, h'⟩
      exact ⟨hi, fun m hm => ⟨h m hm, fun t ht => h' t ⟨m, hm, ht⟩⟩⟩

theorem along_true (s : σ) (is : List ι) : Along step (fun _ _ => True) s is := by
  induction is generalizing s with
  | nil => trivial
  | cons i is ih => exact ⟨trivial, fun t _ => ih t⟩

/-- A step invariant is an invariant of every run. -/
theorem invariant (Inv : σ → Prop) (hstep : ∀ s i t, step s i = some t → Inv s → Inv t)
    {s t : σ} {is : List ι} (hrun : run step s is = some t) (hs : Inv s) : Inv t :=
  invariant_of_along Inv (fun s i t h _ => hstep s i t h) (along_true s is) hrun hs

/-- Where a property of each step's output is, under an invariant, a condition on the state before
the step, the outputs have it exactly when the run meets the condition.  Steps that do not meet the
condition need not keep the invariant. -/
theorem outputs_forall_iff (Inv : σ → Prop) {out : σ → ι → ω} {R : ω → Prop}
    (hstep : ∀ s i t, step s i = some t → P s i → Inv s → Inv t)
    (hout : ∀ s i, Inv s → (R (out s i) ↔ P s i)) {s : σ} (hs : Inv s) (is : List ι) :
    (∀ o ∈ outputs step out s is, R o) ↔ Along step P s is := by
  induction is generalizing s with
  | nil => simp [outputs, Along]
  | cons i is ih =>
    simp only [outputs, Along, List.forall_mem_cons, hout s i hs]
    apply and_congr_right
    intro hP
    cases h : step s i with
    | none => simp
    | some t => simpa using ih (hstep s i t h hP hs)

/-- The same for a property of every state a run comes through. -/
theorem reached_forall_iff (Inv : σ → Prop) {R : σ → Prop}
    (hstep : ∀ s i t, step s i = some t → P s i → Inv s → Inv t)
    (hreached : ∀ s i, Inv s → ((∀ t, step s i = some t → R t) ↔ P s i)) {s : σ} (hs : Inv s)
    (hR : R s) (is : List ι) :
    (∀ js t, js <+: is → run step s js = some t → R t) ↔ Along step P s is := by
  induction is generalizing s with
  | nil =>
    refine iff_of_true (fun js t hjs ht => ?_) trivial
    rw [List.prefix_nil.1 hjs, run_nil] at ht
    exact Option.some.inj ht ▸ hR
  | cons i is ih =>
    constructor
    · intro h
      have hP : P s i := (hreached s i hs).1 fun t ht =>
        h [i] t (List.cons_prefix_cons.2 ⟨rfl, List.nil_prefix⟩)
          ((run_cons_eq_some step).2 ⟨t, ht, rfl⟩)
      refine ⟨hP, fun t ht => (ih (hstep s i t ht hP hs) ((hreached s i hs).2 hP t ht)).1 ?_⟩
      exact fun js u hjs hu => h (i :: js) u (List.cons_prefix_cons.2 ⟨rfl, hjs⟩)
        ((run_cons_eq_some step).2 ⟨t, ht, hu⟩)
    · rintro ⟨hP, htail⟩ js u hjs hu
      cases js with
      | nil =>
        rw [run_nil] at hu
        exact Option.some.inj hu ▸ hR
      | cons j js =>
        obtain ⟨rfl, hjs'⟩ := List.cons_prefix_cons.1 hjs
        obtain ⟨t, ht, hu⟩ := (run_cons_eq_some step).1 hu
        exact (ih (hstep s j t ht hP hs) ((hreached s j hs).2 hP t ht)).2 (htail t ht) js u hjs' hu

instance decidableAlong [∀ s i, Decidable (P s i)] :
    ∀ (s : σ) (is : List ι), Decidable (Along step P s is)
  | _, [] => isTrue trivial
  | s, i :: is =>
    match h : step s i with
    | none => decidable_of_iff (P s i) ⟨fun hP => ⟨hP, by simp [h]⟩, And.left⟩
    | some t =>
      have := decidableAlong t is
      decidable_of_iff (P s i ∧ Along step P t is)
        (and_congr_right fun _ =>
          ⟨fun ht u hu => Option.some.inj (h.symm.trans hu) ▸ ht, fun ht => ht t h⟩)

end Along

/-! ## A part of a system -/

section View

variable {step} {τ κ : Type*} {part : τ → κ → Option τ} (view : σ → τ) (toward : ι → List κ)

/-- If every step of a system takes a part of it along the part's own inputs, so does a run. -/
theorem run_view (Inv : σ → Prop) (hinv : ∀ s i t, step s i = some t → Inv s → Inv t)
    (hview : ∀ s i t, step s i = some t → Inv s →
      run part (view s) (toward i) = some (view t)) {s t : σ} {is : List ι}
    (hrun : run step s is = some t) (hs : Inv s) :
    run part (view s) (is.flatMap toward) = some (view t) := by
  induction is generalizing s with
  | nil =>
    rw [run_nil, Option.some.injEq] at hrun
    rw [hrun]
    rfl
  | cons i is ih =>
    obtain ⟨m, hm, ht⟩ := (run_cons_eq_some step).1 hrun
    rw [List.flatMap_cons, run_append_eq_some]
    exact ⟨view m, hview s i m hm hs, ih ht (hinv s i m hm hs)⟩

end View

/-! ## Right until the first mistake -/

section Allowed

variable {τ : Type*} {go : σ → ι → σ} {allowed : τ → ι → Option τ} (Bad : σ → Prop)
  (Rep : σ → τ → Prop)

end Allowed

/-! ## What a system reaches by some of its inputs -/

section Reaches

/-- `t` comes of `s` by inputs that all are in `own`. -/
def Reaches (own : ι → Prop) (s t : σ) : Prop := ∃ is, (∀ i ∈ is, own i) ∧ run step s is = some t

variable {step} {own : ι → Prop} {s t u : σ}

theorem Reaches.refl (s : σ) : Reaches step own s s := ⟨[], List.forall_mem_nil own, rfl⟩

theorem Reaches.trans (h : Reaches step own s t) (h' : Reaches step own t u) :
    Reaches step own s u := by
  obtain ⟨is, his, hrun⟩ := h
  obtain ⟨js, hjs, hrun'⟩ := h'
  refine ⟨is ++ js, fun i hi => ?_, (run_append_eq_some step).2 ⟨t, hrun, hrun'⟩⟩
  rcases List.mem_append.1 hi with hi | hi
  · exact his i hi
  · exact hjs i hi

theorem Reaches.single {i : ι} (hi : own i) (h : step s i = some t) : Reaches step own s t :=
  ⟨[i], List.forall_mem_singleton.2 hi, (run_cons_eq_some step).2 ⟨t, h, rfl⟩⟩

theorem Reaches.invariant (Inv : σ → Prop) (hstep : ∀ s i t, step s i = some t → Inv s → Inv t)
    (h : Reaches step own s t) (hs : Inv s) : Inv t :=
  h.elim fun _ hrun => Runs.invariant Inv hstep hrun.2 hs

end Reaches

/-! ## Inputs that come once -/

section Once

variable {step} {Holds : List ι → σ → Prop} {Ok : List ι → Prop} {Bad : σ → Prop} {s t : σ}
  {is : List ι}

theorem run_map {κ : Type*} (f : κ → ι) (s : σ) (js : List κ) :
    run step s (js.map f) = run (fun s j => step s (f j)) s js := by
  induction js generalizing s with
  | nil => rfl
  | cons j js ih =>
    rw [List.map_cons, run, run]
    exact congrArg (step s (f j)).bind (funext ih)

variable (Ok : List ι → Prop) (hnil : Holds [] s) (hok : ∀ is i, Ok (is ++ [i]) → Ok is)
  (hstep : ∀ is i t, Ok (is ++ [i]) → i ∉ is → Holds is t →
    ∃ u, step t i = some u ∧ Holds (is ++ [i]) u)

include hnil hok hstep

/-- If each new input is possible and leaves a state that holds the inputs so far, all of them are. -/
theorem exists_run (h : Ok is) (hnd : is.Nodup) : ∃ t, run step s is = some t ∧ Holds is t := by
  induction is using List.reverseRecOn with
  | nil => exact ⟨s, rfl, hnil⟩
  | append_singleton is i ih =>
    have hi : i ∉ is := fun hmem => List.disjoint_of_nodup_append hnd hmem (List.mem_singleton.2 rfl)
    obtain ⟨t, hrun, ht⟩ := ih (hok is i h) hnd.of_append_left
    obtain ⟨u, hu, hholds⟩ := hstep is i t h hi ht
    exact ⟨u, (run_concat_eq_some step).2 ⟨t, hrun, hu⟩, hholds⟩

/-- If then an input that comes again leaves a bad state, and bad states stay bad, a run to a state that
is not bad takes no input twice. -/
theorem nodup_of_run
    (hbad : ∀ is i t u, Ok (is ++ [i]) → run step s is = some t → step t i = some u → Bad t → Bad u)
    (htwice : ∀ is i t u, Holds is t → i ∈ is → step t i = some u → Bad u)
    (h : Ok is) (hrun : run step s is = some t) (ht : ¬ Bad t) : is.Nodup := by
  induction is using List.reverseRecOn generalizing t with
  | nil => exact List.nodup_nil
  | append_singleton is i ih =>
    obtain ⟨m, hm, hi⟩ := (run_concat_eq_some step).1 hrun
    have hnd : is.Nodup := ih (hok is i h) hm fun hd => ht (hbad is i m t h hm hi hd)
    obtain ⟨m', hm', hholds⟩ := exists_run Ok hnil hok hstep (hok is i h) hnd
    obtain rfl := Option.some.inj (hm'.symm.trans hm)
    have hnew : i ∉ is := fun hmem => ht (htwice is i m' t hholds hmem hi)
    rw [← List.concat_eq_append]
    exact hnd.concat hnew

end Once

end Runs
