import ShapeFlow.Inference.Event

/-! The settings of a run, and how they are read from an environment. A variable whose bytes are not
    UTF-8 counts as not set. -/

namespace ShapeFlow

/-- Settings: which operators hold fused graphs, whether the offsets of embedding bags close with an
    end offset, and whether a result is dumped to the records. -/
structure Options where
  fusionMark : String
  endOffset : Bool
  dump : Bool
  deriving DecidableEq, Repr

/-- The settings where nothing else is said. -/
def Options.default : Options := ⟨"glow::FusionGroup", true, false⟩

/-- The operator begins with the mark of fused graphs. -/
def Options.marks (o : Options) (op : String) : Bool :=
  o.fusionMark.toList.isPrefixOf op.toList

/-- The variables that hold settings, each with its bytes if it is set. -/
structure Environment where
  fusionMark : Option ByteArray
  endOffset : Option ByteArray
  dump : Option ByteArray

namespace Environment

/-- The text of a variable. -/
def text? (raw? : Option ByteArray) : Option String := raw?.bind String.fromUTF8?

/-- The truth value that a word stands for. -/
def truth? (word : String) : Option Bool :=
  if word ∈ ["1", "true", "t", "yes", "y"] then some true
  else if word ∈ ["0", "false", "f", "no", "n"] then some false
  else none

/-- A flag, or `standard` where it is not set. A word that is no truth value is recorded and turns
    the flag off. -/
def flag (raw? : Option ByteArray) (standard : Bool) : Bool × List Event :=
  match text? raw? with
  | none => (standard, [])
  | some word =>
    match truth? word with
    | some value => (value, [])
    | none => (false, [.badFlag word])

/-- The default settings with those of the environment put in their place. An empty mark is passed
    over. -/
def options (env : Environment) : Options × List Event :=
  let mark := match text? env.fusionMark with
    | some mark => if mark.isEmpty then Options.default.fusionMark else mark
    | none => Options.default.fusionMark
  let (endOffset, first) := flag env.endOffset Options.default.endOffset
  let (dump, second) := flag env.dump Options.default.dump
  (⟨mark, endOffset, dump⟩, first ++ second)

end Environment

end ShapeFlow
