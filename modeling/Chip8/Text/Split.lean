/-!
# Splitting text

Text is cut at every occurrence of a separator, giving one part more than there
are separators.
-/

namespace Chip8.Text

/-- The parts of the text between separators. -/
def splitAt (separator : Char) : List Char → List (List Char)
  | [] => [[]]
  | c :: rest =>
    if c = separator then [] :: splitAt separator rest
    else
      match splitAt separator rest with
      | part :: parts => (c :: part) :: parts
      | [] => [[c]]

/-- The parts are those that the separator divides a list into. -/
theorem splitAt_eq_splitOn (separator : Char) (text : List Char) :
    splitAt separator text = text.splitOn separator := by
  induction text with
  | nil => rfl
  | cons c rest ih =>
    rw [splitAt, List.splitOn_cons_eq_if_modifyHead, ih]
    by_cases h : c = separator
    · rw [if_pos h, if_pos (beq_iff_eq.2 h)]
    · rw [if_neg h, if_neg (by rwa [beq_iff_eq])]
      cases hparts : rest.splitOn separator with
      | nil => exact absurd hparts (List.splitOn_ne_nil separator rest)
      | cons part parts => rfl

/-- The first characters of a text, all but the last ones if the number is
    negative. -/
def cut (length : Int) (text : List Char) : List Char :=
  if length < 0 then text.take (text.length + length).toNat else text.take length.toNat

/-- The text with spaces after it, up to a length. -/
def padRight (length : Int) (text : List Char) : List Char :=
  text ++ List.replicate (length - text.length).toNat ' '

end Chip8.Text
