import Mathlib.Data.List.TakeWhile
import Mathlib.Tactic

/-!
# Texts with separators

A text is cut at the first occurrence of a separator, or split at all of them
with the empty pieces dropped.  Both undo the joining of pieces that do not
contain the separator, wherever the separators were put: behind each piece or
only between them.
-/

namespace SeparatedText

variable {α : Type*}

def terminated (sep : α) (parts : List (List α)) : List α :=
  parts.flatMap fun part => part ++ [sep]

@[simp] theorem terminated_nil (sep : α) : terminated sep [] = [] := rfl

theorem terminated_cons (sep : α) (part : List α) (parts : List (List α)) :
    terminated sep (part :: parts) = part ++ sep :: terminated sep parts := by
  simp [terminated]

variable [DecidableEq α]

/-- What stands before the first separator, and what stands behind it. -/
def cut (sep : α) (text : List α) : List α × List α :=
  (text.takeWhile (· ≠ sep), (text.dropWhile (· ≠ sep)).drop 1)

def pieces (sep : α) (text : List α) : List (List α) :=
  (text.splitOn sep).filter (· ≠ [])

/-! ## Cutting -/

theorem forall_ne_of_not_mem {sep : α} {text : List α} (htext : sep ∉ text) :
    ∀ a ∈ text, decide (a ≠ sep) = true := by
  intro a ha
  have hne : a ≠ sep := fun heq => htext (heq ▸ ha)
  simp [hne]

theorem cut_append {sep : α} {front : List α} (hfront : sep ∉ front)
    (rest : List α) : cut sep (front ++ sep :: rest) = (front, rest) := by
  have hne := forall_ne_of_not_mem hfront
  unfold cut
  rw [List.takeWhile_append_of_pos hne, List.dropWhile_append_of_pos hne]
  simp

theorem cut_of_not_mem {sep : α} {text : List α} (htext : sep ∉ text) :
    cut sep text = (text, []) := by
  have hne := forall_ne_of_not_mem htext
  unfold cut
  rw [List.takeWhile_eq_self_iff.mpr hne, List.dropWhile_eq_nil_iff.mpr hne]
  rfl

@[simp] theorem pieces_nil (sep : α) : pieces sep [] = [] := by
  simp [pieces, List.splitOn_nil]

theorem pieces_append {sep : α} {part : List α} (hpart : sep ∉ part)
    (hne : part ≠ []) (rest : List α) :
    pieces sep (part ++ sep :: rest) = part :: pieces sep rest := by
  unfold pieces
  rw [List.splitOn_append_cons_self_of_not_mem hpart]
  simp [hne]

theorem pieces_of_not_mem {sep : α} {part : List α} (hpart : sep ∉ part)
    (hne : part ≠ []) : pieces sep part = [part] := by
  unfold pieces
  rw [List.splitOn_eq_singleton hpart]
  simp [hne]

theorem pieces_terminated_append {sep : α} {parts : List (List α)}
    (hparts : ∀ part ∈ parts, sep ∉ part ∧ part ≠ []) (rest : List α) :
    pieces sep (terminated sep parts ++ rest) = parts ++ pieces sep rest := by
  induction parts with
  | nil => simp
  | cons part parts ih =>
      have hpart := hparts part (by simp)
      have htail := ih fun other hother => hparts other (by simp [hother])
      rw [terminated_cons, List.append_assoc, List.cons_append,
        pieces_append hpart.1 hpart.2, htail, List.cons_append]

theorem pieces_terminated {sep : α} {parts : List (List α)}
    (hparts : ∀ part ∈ parts, sep ∉ part ∧ part ≠ []) :
    pieces sep (terminated sep parts) = parts := by
  have happend := pieces_terminated_append hparts []
  simpa using happend

end SeparatedText
