import SealedDirectory.Text.Blank
import Mathlib.Data.List.DropRight

/-!
# Trimmed texts

Trimming a text leaves nothing to be trimmed: no blank stands at either end of what is
left.  So two trimmed texts that differ also differ when blanks around them are left aside.
-/

namespace SealedDirectory.Text

/-- A text has no blanks at its ends. -/
def Trimmed (text : String) : Prop :=
  trim text = text

instance (text : String) : Decidable (Trimmed text) :=
  inferInstanceAs (Decidable (trim text = text))

/-- Nothing is dropped from the front once the loose characters there are gone. -/
theorem dropWhile_strip (isLoose : Char → Bool) (chars : List Char) :
    (strip isLoose chars).dropWhile isLoose = strip isLoose chars := by
  have stripped : strip isLoose chars = (chars.dropWhile isLoose).rdropWhile isLoose := rfl
  obtain ⟨rest, split⟩ := List.rdropWhile_prefix isLoose (chars.dropWhile isLoose)
  rw [← stripped] at split
  have first := List.head?_dropWhile_not isLoose chars
  rw [← split] at first
  -- The first character that is left is the one at which dropping from the front stopped.
  cases left : strip isLoose chars with
  | nil => rfl
  | cons char others =>
      rw [left] at first
      exact List.dropWhile_cons_of_neg (by simpa using first)

theorem strip_strip (isLoose : Char → Bool) (chars : List Char) :
    strip isLoose (strip isLoose chars) = strip isLoose chars := by
  have again : strip isLoose (strip isLoose chars) =
      ((strip isLoose chars).dropWhile isLoose).rdropWhile isLoose := rfl
  rw [again, dropWhile_strip]
  exact List.rdropWhile_idempotent isLoose _

/-- Where nothing is loose, nothing is stripped. -/
theorem strip_of_solid
    {isLoose : Char → Bool}
    {chars : List Char}
    (solid : ∀ char ∈ chars, isLoose char = false) :
    strip isLoose chars = chars := by
  have kept (chars : List Char) (solid : ∀ char ∈ chars, isLoose char = false) :
      chars.dropWhile isLoose = chars := by
    cases chars with
    | nil => rfl
    | cons char others =>
        exact List.dropWhile_cons_of_neg (by simp [solid char (List.mem_cons_self ..)])
  rw [strip, kept _ solid, kept _ (by simpa using solid), List.reverse_reverse]

theorem trimmed_of_solid
    {text : String}
    (solid : ∀ char ∈ text.toList, isBlank char = false) :
    Trimmed text := by
  rw [Trimmed, trim, trimChars, strip_of_solid solid, String.ofList_toList]

theorem trimmed_trim (text : String) : Trimmed (trim text) := by
  rw [Trimmed, trim, trim_eq_ofList, trimChars, trimChars, strip_strip]
  rfl

/-- Trimmed texts that are equal without the blanks around them are equal. -/
theorem Trimmed.eq_of_trim_eq
    {left right : String}
    (leftTrimmed : Trimmed left)
    (rightTrimmed : Trimmed right)
    (same : trim left = trim right) :
    left = right := by
  rw [← leftTrimmed, same, rightTrimmed]

end SealedDirectory.Text
