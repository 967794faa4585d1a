import ShapeFlow.Dims.Access
import ShapeFlow.Dims.Axis
import ShapeFlow.Rule.Operands

/-! Operators that keep the elements and regroup them. The number of elements is a running product
    from the left, and both operators refuse a shape in which it leaves the words on the way. -/

namespace ShapeFlow.Reshape

/-- A run of axes merged into one. A tensor without dims becomes a vector of one element, whatever
    the axes. -/
def flatten (inputs : List ValueInfo) : Outcome (List ValueInfo) := do
  let (x, first, last) ← Operands.three inputs
  let dims ← x.asTensor
  if dims.length = 0 then
    pure [.tensor [1] x.elem]
  else do
    let i ← Axis.resolve dims.length (← first.asInt)
    let j ← Axis.resolve dims.length (← last.asInt)
    if j < i then
      refuse (.invalidValue (.startAfterEnd i j))
    else do
      let before ← Dims.between dims 0 i
      let merged ← Dims.count (← Dims.between dims i (j + 1))
      let after ← Dims.between dims (j + 1) dims.length
      pure [.tensor (before ++ [merged] ++ after) x.elem]

/-- What a scan of a target shape has seen: whether there was a `-1`, and the product of the other
    sizes. -/
structure Scan where
  wildcard : Bool
  explicit : Int
  deriving DecidableEq, Repr

/-- Takes in the next size of a target shape. -/
def Scan.next (target : Dims) (scan : Scan) (size : Int) : Outcome Scan :=
  if size = -1 then
    if scan.wildcard then refuse (.invalidValue (.secondWildcard target))
    else pure { scan with wildcard := true }
  else if size < 0 then
    refuse (.invalidValue (.negativeTarget target size))
  else
    match Word.mul? scan.explicit size with
    | some product => pure { scan with explicit := product }
    | none => refuse (.invalidValue (.targetTooLarge target))

/-- Scans a target shape from the left. -/
def scan (target : Dims) : Outcome Scan := target.foldlM (Scan.next target) ⟨false, 1⟩

/-- The target shape takes exactly `count` elements, a `-1` standing for any size. -/
def divides (s : Scan) (count : Int) : Outcome Bool :=
  if s.explicit = 0 then pure (count = 0 && !s.wildcard)
  else do
    let left ← Word.rem count s.explicit
    pure (left = 0)

/-- The target shape with its `-1` worked out. -/
def fill (target : Dims) (s : Scan) (count : Int) : Outcome Dims :=
  if s.wildcard then do
    let size ← Word.div count s.explicit
    pure (target.map fun t => if t = -1 then size else t)
  else pure target

/-- The same elements in a target shape. -/
def reshape (inputs : List ValueInfo) : Outcome (List ValueInfo) := do
  let (x, shape) ← Operands.two inputs
  let target ← shape.asInts
  let count ← Dims.count (← x.asTensor)
  let s ← scan target
  if ← divides s count then do
    let dims ← fill target s count
    pure [.tensor dims x.elem]
  else
    refuse (.invalidValue (.targetCount count target))

end ShapeFlow.Reshape
