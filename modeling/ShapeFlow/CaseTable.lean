import ShapeFlow.Fault

/-! Tables of test cases. Every case is tried, also after one has failed; the cases that failed are
    then reported together, in the order of the table. -/

namespace ShapeFlow.CaseTable

/-- The cases whose test fails. The test is called once for each case, from the left. -/
def failures {m : Type → Type} [Monad m] {α : Type} (test : α → m Bool) : List α → m (List α)
  | [] => pure []
  | case :: rest => do
    let passed ← test case
    let failed ← failures test rest
    pure (if passed then failed else case :: failed)

/-- Tries every case and faults with the descriptions of those that failed, if any did. -/
def run {m : Type → Type} [Monad m] {α : Type} (describe : α → String) (test : α → m Bool)
    (cases : List α) : m (Except Fault Unit) := do
  match ← failures test cases with
  | [] => pure (.ok ())
  | failed => pure (.error (.casesFailed (failed.map describe)))

end ShapeFlow.CaseTable
