import Mathlib.Data.List.Basic

/-!
# Pieces between marks

A text that is put together from pieces with a mark between them is its first piece, with
the mark and a piece behind it for every other one.
-/

namespace SealedDirectory.Text

variable {α : Type}

theorem intercalate_cons
    (mark : α)
    (first : List α)
    (pieces : List (List α)) :
    [mark].intercalate (first :: pieces) = first ++ pieces.flatMap (mark :: ·) := by
  induction pieces generalizing first with
  | nil => simp
  | cons piece pieces ih =>
      rw [List.intercalate_cons_of_ne_nil (by simp), ih, List.flatMap_cons]
      simp

/-- Between marks there are only the characters of the pieces. -/
theorem mem_intercalate
    {mark element : α}
    {pieces : List (List α)}
    (member : element ∈ [mark].intercalate pieces) :
    element = mark ∨ ∃ piece ∈ pieces, element ∈ piece := by
  cases pieces with
  | nil => cases member
  | cons first pieces =>
      rw [intercalate_cons, List.mem_append, List.mem_flatMap] at member
      rcases member with inFirst | ⟨piece, isPiece, inPiece⟩
      · exact .inr ⟨first, List.mem_cons_self .., inFirst⟩
      · rcases List.mem_cons.mp inPiece with isMark | inPiece
        · exact .inl isMark
        · exact .inr ⟨piece, List.mem_cons_of_mem _ isPiece, inPiece⟩

end SealedDirectory.Text
