import ShapeFlow.Outcome

/-! Broadcasting. Two shapes are laid over each other from the last dim; a dim that one of them lacks
    or has with size 1 takes the other's size, and two other sizes have to be equal. So the result
    is the smallest shape that both expand to. -/

namespace ShapeFlow.Broadcast

/-- The size that two sizes over each other come to. -/
def size? (a b : Int) : Option Int :=
  if a = 1 then some b
  else if b = 1 ∨ a = b then some a
  else none

/-- Lays reversed shapes over each other. The whole shapes are there for the refusal. -/
def overlay (lhs rhs : Dims) : Dims → Dims → Outcome Dims
  | [], bs => pure bs
  | as, [] => pure as
  | a :: as, b :: bs =>
    match size? a b with
    | some c => do
      let rest ← overlay lhs rhs as bs
      pure (c :: rest)
    | none =>
      refuse (.incompatibleShapes (.sizes lhs rhs a b (max as.length bs.length)))

/-- The common expansion of two shapes. -/
def shapes (lhs rhs : Dims) : Outcome Dims := do
  let dims ← overlay lhs rhs lhs.reverse rhs.reverse
  pure dims.reverse

end ShapeFlow.Broadcast
