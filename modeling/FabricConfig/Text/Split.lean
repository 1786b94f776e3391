/-! Texts cut at a separator, and the reverse operation. -/

namespace FabricConfig.Text

/-- The pieces between the occurrences of `sep`. There is always at least one piece. -/
def split (sep : Char) : List Char → List (List Char)
  | [] => [[]]
  | c :: rest => if c = sep then [] :: split sep rest else (split sep rest).modifyHead (c :: ·)

/-- The pieces in a row, with `sep` between neighbours. -/
def join (sep : Char) : List (List Char) → List Char
  | [] => []
  | [piece] => piece
  | piece :: rest => piece ++ sep :: join sep rest

theorem split_ne_nil (sep : Char) (text : List Char) : split sep text ≠ [] := by
  induction text with
  | nil => simp [split]
  | cons c rest ih =>
    unfold split
    split
    · simp
    · cases h : split sep rest with
      | nil => exact absurd h ih
      | cons p ps => simp [List.modifyHead]

end FabricConfig.Text
