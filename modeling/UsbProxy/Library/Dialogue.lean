import Mathlib.Data.List.Infix
import Mathlib.Data.List.Range

/-!
# Dialogues

One party asks and another answers, strictly in turn: question 0, its answer, question 1, its answer
and so on.  A turn names the question it belongs to by a mark, so that a log may also hold answers
to something nobody asked.  `InTurn` is a log that may still become the script of some length.
-/

namespace Dialogue

/-- A turn and the mark of the question it belongs to. -/
inductive Turn (α : Type*)
  | ask (a : α)
  | answer (a : α)
  deriving DecidableEq, Repr

/-- The mark of an answer. -/
def Turn.answers? {α : Type*} : Turn α → Option α
  | ask _ => none
  | answer a => some a

variable {α : Type*} (question : ℕ → α)

/-- `n` questions, each answered before the next. -/
def script : ℕ → List (Turn α)
  | 0 => []
  | n + 1 => script n ++ [.ask (question n), .answer (question n)]

/-- Every answer of the log is to the question asked last and not answered before. -/
def InTurn (log : List (Turn α)) : Prop := ∃ n, log <+: script question n

theorem inTurn_script (n : ℕ) : InTurn question (script question n) := ⟨n, List.prefix_rfl⟩

theorem script_succ (n : ℕ) :
    script question (n + 1) = script question n ++ [.ask (question n)] ++ [.answer (question n)] := by
  simp [script]

theorem inTurn_asked (n : ℕ) : InTurn question (script question n ++ [.ask (question n)]) :=
  ⟨n + 1, [.answer (question n)], (script_succ question n).symm⟩

theorem answers_script (n : ℕ) :
    (script question n).filterMap Turn.answers? = (List.range n).map question := by
  induction n with
  | zero => rfl
  | succ n ih =>
    rw [script, List.filterMap_append, ih, List.range_succ, List.map_append]
    rfl

variable {question} {log : List (Turn α)}

theorem InTurn.answer_eq (h : InTurn question log) {k : ℕ} {a : α}
    (ha : (log.filterMap Turn.answers?)[k]? = some a) : a = question k := by
  obtain ⟨n, hn⟩ := h
  have hle : log.filterMap Turn.answers? <+: (List.range n).map question := by
    rw [← answers_script]
    exact hn.filterMap _
  obtain ⟨hk, rfl⟩ := List.getElem?_eq_some_iff.1 ha
  rw [hle.getElem hk, List.getElem_map, List.getElem_range]

/-- So far some questions have been answered, and one more may have been asked. -/
theorem InTurn.cases (h : InTurn question log) :
    ∃ n, log = script question n ∨ log = script question n ++ [.ask (question n)] := by
  obtain ⟨n, hn⟩ := h
  induction n with
  | zero => exact ⟨0, .inl (List.prefix_nil.1 hn)⟩
  | succ n ih =>
    rw [script_succ] at hn
    rcases List.prefix_concat_iff.1 hn with rfl | hn
    · exact ⟨n + 1, .inl (script_succ question n).symm⟩
    · rcases List.prefix_concat_iff.1 hn with rfl | hn
      · exact ⟨n, .inr rfl⟩
      · exact ih hn

theorem InTurn.of_answer {a : α} (h : InTurn question (log ++ [.answer a])) :
    ∃ front b, log = front ++ [.ask b] := by
  obtain ⟨n, hn | hn⟩ := h.cases
  · cases n with
    | zero => exact absurd hn (List.append_ne_nil_of_right_ne_nil _ (List.cons_ne_nil _ _))
    | succ n =>
      rw [script_succ] at hn
      exact ⟨_, _, List.append_inj_left' hn rfl⟩
  · cases List.append_inj_right' hn rfl

theorem InTurn.of_ask {a : α} (h : InTurn question (log ++ [.ask a])) (front : List (Turn α)) (b : α) :
    log ≠ front ++ [.ask b] := by
  rintro rfl
  obtain ⟨n, hn | hn⟩ := h.cases
  · cases n with
    | zero => exact absurd hn (List.append_ne_nil_of_right_ne_nil _ (List.cons_ne_nil _ _))
    | succ n =>
      rw [script_succ] at hn
      cases List.append_inj_right' hn rfl
  · have hscript := List.append_inj_left' hn rfl
    cases n with
    | zero => exact absurd hscript (List.append_ne_nil_of_right_ne_nil _ (List.cons_ne_nil _ _))
    | succ n =>
      rw [script_succ] at hscript
      cases List.append_inj_right' hscript rfl

end Dialogue
