import ShapeFlow.Proofs.Rule.Builtin
import ShapeFlow.Proofs.Rule.Words

/-! A split can be had in two ways. One node makes a list of the chunks and a second one takes it apart, or
    a single node has the number of its outputs written on it. The first way checks the number after
    the split and the second one before, and they come to the same. -/

namespace ShapeFlow

namespace Chunk

variable {x count axis : ValueInfo} {k d : Int}

/-- The operands of a split, once its number and its axis are read. -/
theorem chunk_eq (hk : count.asInt = .ok k) (hd : axis.asInt = .ok d) :
    chunk [x, count, axis] = (do
      let parts ← shapes (← x.asTensor) k d
      pure [.tensorList parts x.elem]) := by
  simp only [chunk, Operands.three, pure_bind, hk, hd, Outcome.ok_bind]

theorem constantChunk_eq (k d : Int) :
    constantChunk k d [x] = (do
      let parts ← shapes (← x.asTensor) k d
      pure (parts.map fun dims => .tensor dims x.elem)) := by
  simp only [constantChunk, Operands.one, pure_bind]

/-- A list of chunks that is taken apart holds the chunks of the fixed split, if it is of that length. -/
theorem unpack_chunk (hk : count.asInt = .ok k) (hd : axis.asInt = .ok d) (n : Nat) :
    (chunk [x, count, axis] >>= Listing.unpack n) = (do
      let made ← constantChunk k d [x]
      if made.length ≠ n then refuse (.outputCount n made.length) else pure made) := by
  rw [chunk_eq hk hd, constantChunk_eq]
  simp only [bind_assoc, pure_bind, Listing.unpack, Operands.one,
    ValueInfo.asTensorList_tensorList, Outcome.ok_bind, List.length_map]
  rfl

/-- With as many outputs as chunks, or with a number of chunks that is refused anyhow, nothing is left to
    check after the split. -/
theorem unpack_chunk_of_count (hk : count.asInt = .ok k) (hd : axis.asInt = .ok d) {n : Nat}
    (h : k = n ∨ k ≤ 0) :
    (chunk [x, count, axis] >>= Listing.unpack n) = constantChunk k d [x] := by
  rw [unpack_chunk hk hd]
  cases hmade : constantChunk k d [x] with
  | error halt => rfl
  | ok made =>
    have hlength := length_constantChunk k d [x] made hmade
    have hpos := pos_of_constantChunk hmade
    rw [Outcome.ok_bind, if_neg (by omega)]
    rfl

/-- Another number of outputs is refused, if the split itself is not. -/
theorem unpack_chunk_refused (hx : x.InWords) (hk : count.asInt = .ok k) (hd : axis.asInt = .ok d)
    {n : Nat} (hpos : 0 < k) (hne : k ≠ n) :
    ∃ error, (chunk [x, count, axis] >>= Listing.unpack n) = refuse error := by
  rw [unpack_chunk hk hd]
  cases hmade : constantChunk k d [x] with
  | error halt =>
    cases halt with
    | refused error => exact ⟨error, rfl⟩
    | faulted fault =>
      have hnever : FaultsOnly (fun _ => False) (constantChunk k d [x]) :=
        faultsOnly_constantChunk_of_inWords (by simpa using hx) k d
      exact (hnever fault hmade).elim
  | ok made =>
    have hlength := length_constantChunk k d [x] made hmade
    rw [Outcome.ok_bind, if_pos (by omega)]
    exact ⟨_, rfl⟩

end Chunk

/-- What the second of two nodes makes of the outputs of the first. -/
def ShapeFn.pipe (first second : ShapeFn) (inputs : List ValueInfo) (site site' : CallSite) :
    Outcome (List ValueInfo) := do
  let made ← first inputs site
  second made site'

/-- At a node whose number of chunks is not that of its outputs, the split does not come to be tried. -/
theorem Rule.Kind.shapeFn_constantChunk {site : CallSite} {k d : Int} (x : ValueInfo)
    (hchunks : site.attrs.get? "chunks" = some (.int k))
    (hdim : site.attrs.get? "dim" = some (.int d)) :
    Rule.Kind.constantChunk.shapeFn [x] site =
      if 0 < k ∧ k ≠ site.outputCount then refuse (.outputCount site.outputCount k.toNat)
      else Chunk.constantChunk k d [x] := by
  have hcast : (0 < k ∧ k.toNat ≠ site.outputCount) ↔ (0 < k ∧ k ≠ site.outputCount) := by omega
  simp only [Rule.Kind.shapeFn, Rule.Kind.ruleAt, Rule.constantChunkAt,
    CallSite.requiredInt_of_get? hchunks, CallSite.requiredInt_of_get? hdim, Outcome.ok_bind, hcast]
  split
  · rfl
  · rfl

/-- AGREE: splitting into a list that a second node takes apart and splitting at one node come to the
    same values or to none, and the values are one for each output. Where the number of chunks is
    that of the outputs, or is not positive, they also come to the same refusal; where it is positive
    and another, both refuse. -/
theorem RuleBook.builtin_chunk_agree {chunk unpack constant : ShapeFn}
    (hchunk : builtin.get? "aten::chunk" = some chunk)
    (hunpack : builtin.get? "prim::ListUnpack" = some unpack)
    (hconstant : builtin.get? "prim::ConstantChunk" = some constant)
    {x count axis : ValueInfo} {k d : Int} (hx : x.InWords)
    (hk : count.asInt = .ok k) (hd : axis.asInt = .ok d)
    {chunkSite unpackSite site : CallSite} (hcount : unpackSite.outputCount = site.outputCount)
    (hchunks : site.attrs.get? "chunks" = some (.int k))
    (hdim : site.attrs.get? "dim" = some (.int d)) :
    (∀ made, ShapeFn.pipe chunk unpack [x, count, axis] chunkSite unpackSite = .ok made ↔
        constant [x] site = .ok made) ∧
      (∀ made, constant [x] site = .ok made → made.length = site.outputCount) ∧
      (k = site.outputCount ∨ k ≤ 0 →
        ShapeFn.pipe chunk unpack [x, count, axis] chunkSite unpackSite = constant [x] site) ∧
      (0 < k → k ≠ site.outputCount →
        (∃ error, ShapeFn.pipe chunk unpack [x, count, axis] chunkSite unpackSite = refuse error) ∧
          ∃ error, constant [x] site = refuse error) := by
  obtain rfl : Rule.Kind.chunk.shapeFn = chunk := Option.some.inj hchunk
  obtain rfl : Rule.Kind.listUnpack.shapeFn = unpack := Option.some.inj hunpack
  obtain rfl : Rule.Kind.constantChunk.shapeFn = constant := Option.some.inj hconstant
  have hpipe : ShapeFn.pipe Rule.Kind.chunk.shapeFn Rule.Kind.listUnpack.shapeFn
      [x, count, axis] chunkSite unpackSite
        = Chunk.chunk [x, count, axis] >>= Listing.unpack site.outputCount := by
    rw [← hcount]
    rfl
  rw [hpipe, Rule.Kind.shapeFn_constantChunk x hchunks hdim]
  by_cases hoff : 0 < k ∧ k ≠ site.outputCount
  · -- the numbers do not go together, so neither way comes to anything
    obtain ⟨error, hlisted⟩ := Chunk.unpack_chunk_refused hx hk hd hoff.1 hoff.2
    rw [if_pos hoff, hlisted]
    refine ⟨fun made => ?_, fun made h => ?_, fun h => ?_, fun _ _ => ⟨⟨_, rfl⟩, _, rfl⟩⟩
    · simp [refuse]
    · cases h
    · omega
  · have hlisted : (Chunk.chunk [x, count, axis] >>= Listing.unpack site.outputCount)
        = Chunk.constantChunk k d [x] := Chunk.unpack_chunk_of_count hk hd (by omega)
    rw [if_neg hoff, hlisted]
    refine ⟨fun made => Iff.rfl, fun made h => ?_, fun _ => rfl, fun hpos hne => ?_⟩
    · have hlength := Chunk.length_constantChunk k d [x] made h
      have hpos := Chunk.pos_of_constantChunk h
      omega
    · exact absurd ⟨hpos, hne⟩ hoff

/-- The node that splits a last axis into three, with this number of outputs. -/
def CallSite.thirds (outputs : Nat) : CallSite :=
  ⟨"prim::ConstantChunk", (Keyed.empty.set "chunks" (.int 3)).set "dim" (.int (-1)), outputs, true⟩

/-- Ten columns in three chunks, with three outputs and with two. -/
theorem RuleBook.builtin_chunk_agree_thirds :
    ShapeFn.pipe Rule.Kind.chunk.shapeFn Rule.Kind.listUnpack.shapeFn
        [.tensor [2, 10] (some .float), .scalar 3 .int64, .scalar (-1) .int64] (.thirds 1) (.thirds 3)
      = .ok [.tensor [2, 4] (some .float), .tensor [2, 4] (some .float), .tensor [2, 2] (some .float)] ∧
    ((∃ error, ShapeFn.pipe Rule.Kind.chunk.shapeFn Rule.Kind.listUnpack.shapeFn
        [.tensor [2, 10] (some .float), .scalar 3 .int64, .scalar (-1) .int64] (.thirds 1) (.thirds 2)
          = refuse error) ∧
      ∃ error, Rule.Kind.constantChunk.shapeFn [.tensor [2, 10] (some .float)] (.thirds 2)
          = refuse error) := by
  have hx : (ValueInfo.tensor [2, 10] (some .float)).InWords := .tensor (by decide) _
  have hmade : Rule.Kind.constantChunk.shapeFn [.tensor [2, 10] (some .float)] (.thirds 3)
      = .ok [.tensor [2, 4] (some .float), .tensor [2, 4] (some .float),
          .tensor [2, 2] (some .float)] := rfl
  constructor
  · exact ((RuleBook.builtin_chunk_agree rfl rfl rfl hx rfl rfl rfl rfl rfl).1 _).2 hmade
  · exact (RuleBook.builtin_chunk_agree rfl rfl rfl hx rfl rfl rfl rfl rfl).2.2.2
      (by decide) (by decide)

end ShapeFlow
