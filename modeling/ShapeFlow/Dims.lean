/-! The sizes of a tensor, outermost first. A size is an integer: rules see negative sizes too and
    decide for themselves what to do with them. Sizes print in brackets, after a comma and a blank
    in messages and after a blank alone in the report of a run. -/

namespace ShapeFlow

/-- The size of each dim of a tensor. -/
abbrev Dims := List Int

namespace Dims

/-- Items in brackets, with `sep` between neighbours. -/
def bracketed (sep : String) (items : List String) : String :=
  "[" ++ sep.intercalate items ++ "]"

/-- Sizes as messages show them, such as `[2, 3]`. -/
def text (dims : Dims) : String :=
  bracketed ", " (dims.map toString)

/-- Sizes as the report of a run shows them, such as `[2 3]`. -/
def spaced (dims : Dims) : String :=
  bracketed " " (dims.map toString)

end Dims

end ShapeFlow
