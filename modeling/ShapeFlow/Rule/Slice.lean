import ShapeFlow.Dims.Access
import ShapeFlow.Dims.Axis
import ShapeFlow.Rule.Operands

/-! Every `step`-th position of an axis from `start` up to `stop`. Negative ends count from the back,
    and ends beyond the axis stop at it. -/

namespace ShapeFlow.Slice

/-- The first position, for a `start` that lies before the end of the axis. -/
def lower (size start : Int) : Outcome Int := do
  if start ≤ (← Word.neg size) then pure 0
  else if start < 0 then Word.add start size
  else pure start

/-- The position after the last, for a `stop` that lies after the begin of the axis. -/
def upper (size stop : Int) : Outcome Int :=
  if size < stop then pure size
  else if stop < 0 then Word.add stop size
  else pure stop

/-- The number of positions from `lo` below `hi` in strides of `step`. -/
def strides (lo hi step : Int) : Outcome Int :=
  if hi ≤ lo then pure 0
  else do
    let span ← Word.sub (← Word.sub hi lo) 1
    Word.add (← Word.div span step) 1

/-- The number of positions taken from an axis. -/
def length (size start stop step : Int) : Outcome Int :=
  if size ≤ start then pure 0
  else do
    if stop ≤ (← Word.neg size) then pure 0
    else do
      let lo ← lower size start
      let hi ← upper size stop
      strides lo hi step

/-- Cuts one axis down to the positions taken. -/
def slice (inputs : List ValueInfo) : Outcome (List ValueInfo) := do
  let (x, dim, first, last, stride) ← Operands.five inputs
  let dims ← x.asTensor
  let axis ← Axis.resolve dims.length (← dim.asInt)
  let start ← first.asInt
  let stop ← last.asInt
  let step ← stride.asInt
  if step ≤ 0 then
    refuse (.invalidValue (.sliceStep step))
  else do
    let size ← length (← Dims.entry dims axis) start stop step
    let cut ← Dims.replace dims axis size
    pure [.tensor cut x.elem]

end ShapeFlow.Slice
