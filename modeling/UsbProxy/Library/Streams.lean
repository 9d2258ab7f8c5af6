import Mathlib.Data.List.Infix
import UsbProxy.Library.Runs

/-!
# Reliable byte streams

A stream keeps the bytes in order and forgets where one write ended and the next began.  A read takes
any number of the bytes in flight, at least one and at most the size of the reader's buffer.
`run_segments` says that every way to cut the bytes up happens, and `reads_eq_writes_iff` which runs keep
the boundaries.
-/

namespace Streams

variable {β : Type*}

/-- A stream with what was written to it and read from it so far. -/
structure Stream (β : Type*) where
  inFlight : List β
  writes : List (List β)
  reads : List (List β)

def Stream.empty : Stream β := { inFlight := [], writes := [], reads := [] }

inductive Move (β : Type*)
  | write (bs : List β)
  | read (n : ℕ)
  /-- The reader gives up waiting. -/
  | wait

def step (cap : ℕ) (s : Stream β) : Move β → Option (Stream β)
  | .write bs => some { s with inFlight := s.inFlight ++ bs, writes := s.writes ++ [bs] }
  | .read n =>
    if 0 < n ∧ n ≤ cap ∧ n ≤ s.inFlight.length then
      some { s with inFlight := s.inFlight.drop n, reads := s.reads ++ [s.inFlight.take n] }
    else none
  | .wait => some s

/-- A way to cut bytes up into reads. -/
structure Segments (cap : ℕ) (reads : List (List β)) (bytes : List β) : Prop where
  flatten : reads.flatten = bytes
  nonempty : ∀ r ∈ reads, r ≠ []
  fits : ∀ r ∈ reads, r.length ≤ cap

/-- Nothing is lost, doubled or reordered. -/
structure Sound (cap : ℕ) (s : Stream β) : Prop where
  conserved : s.writes.flatten = s.reads.flatten ++ s.inFlight
  nonempty : ∀ r ∈ s.reads, r ≠ []
  fits : ∀ r ∈ s.reads, r.length ≤ cap

variable {cap : ℕ} {s t : Stream β} {move : Move β} {moves : List (Move β)}

theorem step_read_eq_some {n : ℕ} : step cap s (.read n) = some t ↔
    (0 < n ∧ n ≤ cap ∧ n ≤ s.inFlight.length) ∧
      t = { s with inFlight := s.inFlight.drop n, reads := s.reads ++ [s.inFlight.take n] } := by
  show (if _ then _ else none) = some t ↔ _
  split_ifs with hn
  · rw [Option.some.injEq]
    exact ⟨fun h => ⟨hn, h.symm⟩, fun h => h.2.symm⟩
  · exact iff_of_false (fun h => by cases h) fun h => hn h.1

theorem sound_empty : Sound cap (Stream.empty (β := β)) where
  conserved := rfl
  nonempty _ hr := absurd hr List.not_mem_nil
  fits _ hr := absurd hr List.not_mem_nil

theorem Sound.step (h : Sound cap s) (hstep : step cap s move = some t) : Sound cap t := by
  cases move with
  | write bs =>
    cases hstep
    refine ⟨?_, h.nonempty, h.fits⟩
    show (s.writes ++ [bs]).flatten = _
    rw [List.flatten_append, h.conserved, List.flatten_singleton, List.append_assoc]
  | read n =>
    obtain ⟨hn, rfl⟩ := step_read_eq_some.1 hstep
    have hlen : (s.inFlight.take n).length = n := List.length_take_of_le hn.2.2
    refine ⟨?_, fun r hr => ?_, fun r hr => ?_⟩
    · show s.writes.flatten = (s.reads ++ [s.inFlight.take n]).flatten ++ s.inFlight.drop n
      rw [List.flatten_append, List.flatten_singleton, List.append_assoc, List.take_append_drop,
        h.conserved]
    · rcases List.mem_append.1 hr with hr | hr
      · exact h.nonempty r hr
      · rw [List.mem_singleton.1 hr, ← List.length_pos_iff, hlen]
        exact hn.1
    · rcases List.mem_append.1 hr with hr | hr
      · exact h.fits r hr
      · rw [List.mem_singleton.1 hr, hlen]
        exact hn.2.1
  | wait =>
    cases hstep
    exact h

theorem Sound.run (h : Sound cap s) (hrun : Runs.run (Streams.step cap) s moves = some t) :
    Sound cap t :=
  Runs.invariant (Sound cap) (fun _ _ _ hstep hs => hs.step hstep) hrun h

/-- The reads of a stream that has run dry cut its writes up. -/
theorem Sound.segments (h : Sound cap s) (hdry : s.inFlight = []) :
    Segments cap s.reads s.writes.flatten where
  flatten := by rw [h.conserved, hdry, List.append_nil]
  nonempty := h.nonempty
  fits := h.fits

/-! ## Every segmentation happens -/

theorem run_writes (writes : List (List β)) (s : Stream β) :
    Runs.run (step cap) s (writes.map .write) =
      some { s with inFlight := s.inFlight ++ writes.flatten, writes := s.writes ++ writes } := by
  induction writes generalizing s with
  | nil => simp
  | cons bs writes ih =>
    rw [List.map_cons, Runs.run, step, Option.bind_some, ih]
    simp [List.append_assoc]

theorem run_reads {reads : List (List β)} (hne : ∀ r ∈ reads, r ≠ [])
    (hfits : ∀ r ∈ reads, r.length ≤ cap) (s : Stream β) (hs : s.inFlight = reads.flatten) :
    Runs.run (step cap) s (reads.map fun r => .read r.length) =
      some { s with inFlight := [], reads := s.reads ++ reads } := by
  induction reads generalizing s with
  | nil =>
    obtain ⟨inFlight, writes, done⟩ := s
    cases hs
    simp
  | cons r reads ih =>
    obtain ⟨hr, hne⟩ := List.forall_mem_cons.1 hne
    obtain ⟨hlen, hfits⟩ := List.forall_mem_cons.1 hfits
    rw [List.flatten_cons] at hs
    have hn : 0 < r.length ∧ r.length ≤ cap ∧ r.length ≤ s.inFlight.length := by
      refine ⟨List.length_pos_iff.2 hr, hlen, ?_⟩
      rw [hs, List.length_append]
      exact Nat.le_add_right ..
    rw [List.map_cons, Runs.run, step, if_pos hn, Option.bind_some, ih hne hfits]
    · simp [hs]
    · simp [hs]

/-- Any cut of the bytes written is the reads of a run. -/
theorem run_segments {reads writes : List (List β)} (h : Segments cap reads writes.flatten) :
    Runs.run (step cap) Stream.empty (writes.map .write ++ reads.map fun r => .read r.length) =
      some { inFlight := [], writes, reads } := by
  rw [Runs.run_append_eq_some]
  refine ⟨_, run_writes writes _, ?_⟩
  rw [run_reads h.nonempty h.fits]
  · rfl
  · exact h.flatten.symm

theorem segments_singletons (hcap : 0 < cap) (bytes : List β) :
    Segments cap (bytes.map fun b => [b]) bytes where
  flatten := by
    induction bytes with
    | nil => rfl
    | cons b bytes ih => rw [List.map_cons, List.flatten_cons, ih, List.singleton_append]
  nonempty r hr := by
    obtain ⟨b, -, rfl⟩ := List.mem_map.1 hr
    exact List.cons_ne_nil _ _
  fits r hr := by
    obtain ⟨b, -, rfl⟩ := List.mem_map.1 hr
    exact hcap

theorem segments_merged (hcap : 1 < cap) (b c : β) (bytes : List β) :
    Segments cap ([b, c] :: bytes.map fun b => [b]) (b :: c :: bytes) where
  flatten := by
    rw [List.flatten_cons, (segments_singletons (Nat.zero_lt_of_lt hcap) bytes).flatten]
    rfl
  nonempty := List.forall_mem_cons.2
    ⟨List.cons_ne_nil _ _, (segments_singletons (Nat.zero_lt_of_lt hcap) bytes).nonempty⟩
  fits := List.forall_mem_cons.2
    ⟨hcap, (segments_singletons (Nat.zero_lt_of_lt hcap) bytes).fits⟩

theorem Segments.eq_nil {reads : List (List β)} (h : Segments cap reads []) : reads = [] := by
  cases reads with
  | nil => rfl
  | cons r reads =>
    have hr := (List.append_eq_nil_iff.1 h.flatten).1
    exact absurd hr (h.nonempty r (List.mem_cons_self ..))

/-- Only one byte at most cannot be cut up in another way than it was written. -/
theorem forall_segments_iff (hcap : 1 < cap) (writes : List (List β)) :
    (∀ reads, Segments cap reads writes.flatten → reads = writes) ↔
      writes = [] ∨ ∃ b, writes = [[b]] := by
  constructor
  · intro h
    have hsingle := h _ (segments_singletons (Nat.zero_lt_of_lt hcap) writes.flatten)
    match hbytes : writes.flatten with
    | [] =>
      rw [hbytes] at hsingle
      exact .inl hsingle.symm
    | [b] =>
      rw [hbytes] at hsingle
      exact .inr ⟨b, hsingle.symm⟩
    | b :: c :: bytes =>
      have hmerged := h _ (hbytes ▸ segments_merged hcap b c bytes)
      rw [hbytes, ← hmerged] at hsingle
      cases hsingle
  · rintro (rfl | ⟨b, rfl⟩) reads hreads
    · exact hreads.eq_nil
    · cases reads with
      | nil => cases hreads.flatten
      | cons r reads =>
        obtain ⟨hr, hne⟩ := List.forall_mem_cons.1 hreads.nonempty
        obtain ⟨c, r, rfl⟩ := List.exists_cons_of_ne_nil hr
        have hflat := hreads.flatten
        simp only [List.flatten_cons, List.flatten_nil, List.append_nil, List.cons_append,
          List.cons.injEq, List.append_eq_nil_iff] at hflat
        obtain ⟨rfl, rfl, hrest⟩ := hflat
        have htail : Segments cap reads [] := ⟨hrest, hne, (List.forall_mem_cons.1 hreads.fits).2⟩
        rw [htail.eq_nil]

/-! ## Runs that keep the boundaries -/

/-- A write that fits in a read, or a read of the oldest write that was not read yet, all of it. -/
def Whole (cap : ℕ) (s : Stream β) : Move β → Prop
  | .write bs => bs ≠ [] ∧ bs.length ≤ cap
  | .read n => ∃ bs, s.writes[s.reads.length]? = some bs ∧ n = bs.length
  | .wait => True

theorem writes_prefix (hrun : Runs.run (step cap) s moves = some t) :
    s.writes <+: t.writes ∧ s.reads <+: t.reads := by
  induction moves generalizing s with
  | nil =>
    rw [Runs.run_nil, Option.some.injEq] at hrun
    rw [hrun]
    exact ⟨List.prefix_rfl, List.prefix_rfl⟩
  | cons move moves ih =>
    obtain ⟨m, hm, ht⟩ := (Runs.run_cons_eq_some _).1 hrun
    obtain ⟨hwrites, hreads⟩ := ih ht
    cases move with
    | write bs =>
      cases hm
      exact ⟨(List.prefix_append _ _).trans hwrites, hreads⟩
    | read n =>
      obtain ⟨-, rfl⟩ := step_read_eq_some.1 hm
      exact ⟨hwrites, (List.prefix_append _ _).trans hreads⟩
    | wait =>
      cases hm
      exact ⟨hwrites, hreads⟩

/-- Bytes in flight belong to a write that was not read. -/
theorem Sound.reads_lt_writes (h : Sound cap s) {ws : List (List β)} (hwrites : s.writes <+: ws)
    (hreads : s.reads <+: ws) (hflight : s.inFlight ≠ []) : s.reads.length < s.writes.length := by
  by_contra hle
  have hprefix : s.writes <+: s.reads :=
    List.prefix_of_prefix_length_le hwrites hreads (Nat.le_of_not_lt hle)
  obtain ⟨rest, hrest⟩ := hprefix
  have hflat := congrArg List.length h.conserved
  rw [← hrest, List.flatten_append, List.length_append, List.length_append] at hflat
  have hpos := List.length_pos_iff.2 hflight
  omega

/-- In a run that comes to the same reads as writes, every move was whole. -/
theorem along_whole (h : Sound cap s) (hrun : Runs.run (step cap) s moves = some t)
    (heq : t.reads = t.writes) : Runs.Along (step cap) (Whole cap) s moves := by
  induction moves generalizing s with
  | nil => trivial
  | cons move moves ih =>
    obtain ⟨m, hm, ht⟩ := (Runs.run_cons_eq_some _).1 hrun
    have hmsound := h.step hm
    obtain ⟨hwrites, hreads⟩ := writes_prefix ht
    refine ⟨?_, fun m' hm' => ?_⟩
    · have htsound := hmsound.run ht
      cases move with
      | write bs =>
        cases hm
        have hmem : bs ∈ t.reads := by
          rw [heq]
          exact hwrites.subset (List.mem_append_right _ (List.mem_singleton_self _))
        exact ⟨htsound.nonempty bs hmem, htsound.fits bs hmem⟩
      | read n =>
        obtain ⟨hn, rfl⟩ := step_read_eq_some.1 hm
        have hflight : s.inFlight ≠ [] := by
          rw [← List.length_pos_iff]
          omega
        have hprefix : s.reads <+: t.writes := heq ▸ (List.prefix_append _ _).trans hreads
        have hlt := h.reads_lt_writes hwrites hprefix hflight
        have hread : t.reads[s.reads.length]? = some (s.inFlight.take n) := by
          have hat := List.prefix_iff_getElem?.1 hreads s.reads.length (by simp)
          rwa [List.getElem_concat_length rfl] at hat
        have hwrite := List.prefix_iff_getElem?.1 hwrites s.reads.length hlt
        rw [heq, hwrite, Option.some.injEq] at hread
        refine ⟨s.writes[s.reads.length], List.getElem?_eq_getElem hlt, ?_⟩
        rw [hread, List.length_take_of_le hn.2.2]
      | wait => trivial
    · obtain rfl := Option.some.inj (hm.symm.trans hm')
      exact ih hmsound ht

/-- What whole moves keep: the reads are the first writes, and the writes are those that fit. -/
structure InOrder (cap : ℕ) (s : Stream β) : Prop where
  sound : Sound cap s
  reads_prefix : s.reads <+: s.writes
  nonempty : ∀ w ∈ s.writes, w ≠ []

theorem InOrder.step (h : InOrder cap s) (hstep : step cap s move = some t) (hw : Whole cap s move) :
    InOrder cap t := by
  refine ⟨h.sound.step hstep, ?_, ?_⟩
  · cases move with
    | write bs =>
      cases hstep
      exact h.reads_prefix.trans (List.prefix_append _ _)
    | read n =>
      obtain ⟨hn, rfl⟩ := step_read_eq_some.1 hstep
      obtain ⟨bs, hbs, rfl⟩ := hw
      obtain ⟨rest, hrest⟩ := h.reads_prefix
      obtain ⟨rest, rfl⟩ : ∃ rest', rest = bs :: rest' := by
        rw [← hrest, List.getElem?_append_right (Nat.le_refl _), Nat.sub_self] at hbs
        cases rest with
        | nil => cases hbs
        | cons w rest => exact ⟨rest, by rw [Option.some.inj hbs]⟩
      have hflight : s.inFlight = bs ++ rest.flatten := by
        have hconserved := h.sound.conserved
        rw [← hrest, List.flatten_append, List.flatten_cons] at hconserved
        exact (List.append_cancel_left hconserved).symm
      show s.reads ++ [s.inFlight.take bs.length] <+: s.writes
      rw [hflight, List.take_left, ← hrest]
      exact ⟨rest, (List.append_cons ..).symm⟩
    | wait =>
      cases hstep
      exact h.reads_prefix
  · cases move with
    | write bs =>
      cases hstep
      exact List.forall_mem_append.2 ⟨h.nonempty, List.forall_mem_singleton.2 hw.1⟩
    | read n =>
      obtain ⟨-, rfl⟩ := step_read_eq_some.1 hstep
      exact h.nonempty
    | wait =>
      cases hstep
      exact h.nonempty

/-- **Boundaries.**  A run that leaves nothing in flight read exactly what was written, write by write,
if and only if every write fits in a read and every read took the oldest write not read yet. -/
theorem reads_eq_writes_iff (hrun : Runs.run (step cap) Stream.empty moves = some t)
    (hdry : t.inFlight = []) :
    t.reads = t.writes ↔ Runs.Along (step cap) (Whole cap) Stream.empty moves := by
  constructor
  · exact along_whole sound_empty hrun
  · intro hwhole
    have hempty : InOrder cap (Stream.empty (β := β)) :=
      ⟨sound_empty, List.prefix_rfl, fun _ hw => absurd hw List.not_mem_nil⟩
    have h : InOrder cap t := Runs.invariant_of_along (InOrder cap)
      (fun _ _ _ hstep hw hs => hs.step hstep hw) hwhole hrun hempty
    obtain ⟨rest, hrest⟩ := h.reads_prefix
    have hflat := h.sound.conserved
    rw [hdry, ← hrest, List.flatten_append] at hflat
    have hnil : rest.flatten = [] := List.append_cancel_left hflat
    cases rest with
    | nil => rw [← hrest, List.append_nil]
    | cons w rest =>
      have hw := (List.append_eq_nil_iff.1 hnil).1
      exact absurd hw (h.nonempty w (by rw [← hrest]; simp))

end Streams
