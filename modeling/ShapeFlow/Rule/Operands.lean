import ShapeFlow.ValueInfo

/-! How many operands a rule takes. A rule names its operands only after their number is right, so a
    wrong number is always what is reported first. -/

namespace ShapeFlow.Operands

/-- Nothing. -/
def zero : List ValueInfo → Outcome Unit
  | [] => pure ()
  | xs => refuse (.inputCount 0 (some 0) xs.length)

/-- The only operand. -/
def one : List ValueInfo → Outcome ValueInfo
  | [a] => pure a
  | xs => refuse (.inputCount 1 (some 1) xs.length)

/-- The two operands. -/
def two : List ValueInfo → Outcome (ValueInfo × ValueInfo)
  | [a, b] => pure (a, b)
  | xs => refuse (.inputCount 2 (some 2) xs.length)

/-- The three operands. -/
def three : List ValueInfo → Outcome (ValueInfo × ValueInfo × ValueInfo)
  | [a, b, c] => pure (a, b, c)
  | xs => refuse (.inputCount 3 (some 3) xs.length)

/-- The five operands. -/
def five : List ValueInfo → Outcome (ValueInfo × ValueInfo × ValueInfo × ValueInfo × ValueInfo)
  | [a, b, c, d, e] => pure (a, b, c, d, e)
  | xs => refuse (.inputCount 5 (some 5) xs.length)

/-- Two operands, and at most one more that is not looked at. -/
def twoOrThree : List ValueInfo → Outcome (ValueInfo × ValueInfo)
  | [a, b] => pure (a, b)
  | [a, b, _] => pure (a, b)
  | xs => refuse (.inputCount 2 (some 3) xs.length)

/-- The first operand and the ones after it. -/
def oneOrMore : List ValueInfo → Outcome (ValueInfo × List ValueInfo)
  | a :: rest => pure (a, rest)
  | [] => refuse (.inputCount 1 none 0)

/-- Three operands, and any number more that are not looked at. -/
def threeOrMore : List ValueInfo → Outcome (ValueInfo × ValueInfo × ValueInfo)
  | a :: b :: c :: _ => pure (a, b, c)
  | xs => refuse (.inputCount 3 none xs.length)

/-- The first three of exactly `count` operands, `count` being at least three. -/
def threeOf (count : Nat) : List ValueInfo → Outcome (ValueInfo × ValueInfo × ValueInfo)
  | a :: b :: c :: rest =>
    if rest.length + 3 = count then pure (a, b, c)
    else refuse (.inputCount count (some count) (rest.length + 3))
  | xs => refuse (.inputCount count (some count) xs.length)

end ShapeFlow.Operands
