import ShapeFlow.Proofs.Rule.Words

/-! Embedding bags over packed tables. All rules count the bags in the same way and differ in how many
    entries they take a stored row to have. The number is worked out within the words and stops at
    their limits. A number that stops at the lower limit is no width and is refused; so where the
    number of entries is a word a packed table has the bags and the width of a plain one with
    as many entries. Two entries in a byte can be more than the greatest word, and then the
    greatest word is reported for a width. -/

namespace ShapeFlow

/-! ### Stored rows -/

namespace Packing

/-- The entries in a stored row, counted over the integers. -/
def entries : Packing → Int → Int
  | plain, row => row
  | byteRow, row => row - 8
  | fourBitRow, row => 2 * (row - 4)

/-- The size of a stored row with this many entries. -/
def rowSize : Packing → Int → Int
  | plain, count => count
  | byteRow, count => count + 8
  | fourBitRow, count => count / 2 + 4

variable (packing : Packing) {row : Int}

/-- A width is the number of entries, up to the limits of the words. -/
theorem width_eq_clamp (hrow : Word.Fits row) :
    packing.width row = Word.clamp (packing.entries row) := by
  rw [Word.fits_iff] at hrow
  cases packing with
  | plain => exact (Word.clamp_of_fits (Word.fits_iff.2 hrow)).symm
  | byteRow => rfl
  | fourBitRow =>
    simp only [width, entries, Word.satMul, Word.satSub, Word.clamp, Word.least, Word.greatest]
    omega

/-- A number of entries that is a word is the width. -/
theorem width_of_fits (h : Word.Fits (packing.entries row)) :
    packing.width row = packing.entries row := by
  cases packing with
  | plain => rfl
  | byteRow => exact Word.clamp_of_fits h
  | fourBitRow =>
    simp only [entries, Word.fits_iff] at h
    simp only [width, entries, Word.satMul, Word.satSub, Word.clamp, Word.least, Word.greatest]
    omega

end Packing

/-! ### Bags and widths -/

namespace EmbeddingBag

variable {packing : Packing} {table indices offsets : ValueInfo} {rest : List ValueInfo}
  {endOffset : Bool} {front : Dims} {row : Int}

/-- The bags are counted, and then the width is worked out. -/
theorem pool_eq (packing : Packing) (endOffset : Bool) (indices offsets : ValueInfo)
    (ht : table.asTensor = .ok (front ++ [row])) (hrest : rest.length + 3 = packing.operandCount) :
    pool packing endOffset (table :: indices :: offsets :: rest) = (do
      let rows ← bags indices offsets endOffset
      if packing.width row ≤ 0 then refuse (.invalidValue (.rowTooSmall row))
      else pure [.tensor [rows, packing.width row] (packing.elem table)]) := by
  rw [pool, Operands.threeOf, if_pos hrest, pure_bind]
  refine bind_congr fun rows => ?_
  rw [width, ht, Outcome.ok_bind, List.getLast?_concat]
  dsimp only
  split
  · rfl
  · rfl

/-- Where the indices are not of rank 1, nobody looks at the offsets. -/
theorem bags_congr (h : ∀ size, indices.asTensor ≠ .ok [size]) (offsets offsets' : ValueInfo)
    (b b' : Bool) : bags indices offsets b = bags indices offsets' b' := by
  rw [bags, bags]
  cases hd : indices.asTensor with
  | error halt => rfl
  | ok dims =>
    match dims with
    | [] => rfl
    | [size] => exact absurd hd (h size)
    | [n, size] => rfl
    | _ :: _ :: _ :: _ => rfl

theorem pool_congr (h : ∀ size, indices.asTensor ≠ .ok [size]) (packing : Packing)
    (table offsets offsets' : ValueInfo) (rest : List ValueInfo) (b b' : Bool) :
    pool packing b (table :: indices :: offsets :: rest)
      = pool packing b' (table :: indices :: offsets' :: rest) := by
  rw [pool, pool, Operands.threeOf, Operands.threeOf]
  split
  · simp only [pure_bind, bags_congr h offsets offsets' b b']
  · rfl

/-- Counting bags is refused where it has no result, unless offsets of the least size end in a closing
    entry. -/
theorem bags_refused (hwords : offsets.InWords)
    (hleast : ∀ dims, offsets.asTensor = .ok dims → Word.least ∉ dims) {halt : Halt}
    (h : bags indices offsets endOffset = .error halt) : ∃ error, halt = .refused error := by
  cases halt with
  | refused error => exact ⟨error, rfl⟩
  | faulted fault =>
    obtain ⟨-, -, -, hoff⟩ := faultsOnly_bags_of_inWords indices hwords endOffset fault h
    exact absurd List.mem_cons_self (hleast _ hoff)

end EmbeddingBag

open EmbeddingBag in
/-- UNPACKED: a packed table and a plain one with as many entries in a row are pooled to the same sizes, the
    packed one to floats. Otherwise both are refused, and for the same cause, but for the size of the
    stored row where it has no entries. Where the indices have not rank 1 neither the offsets nor
    whether they close with an end offset makes a difference. -/
theorem Rule.infer_embeddingBag_unpacked {packing : Packing} {packed plain offsets : ValueInfo}
    {row width : Int} (endOffset : Bool) (indices : ValueInfo) (rest rest' : List ValueInfo)
    (front : Dims) (hpacking : packing ≠ .plain) (hwidth : packing.entries row = width)
    (hfits : Word.Fits width) (hpacked : packed.asTensor = .ok (front ++ [row]))
    (hplain : plain.asTensor = .ok (front ++ [width])) (hwords : offsets.InWords)
    (hleast : ∀ dims, offsets.asTensor = .ok dims → Word.least ∉ dims)
    (hrest : rest.length + 3 = packing.operandCount)
    (hrest' : rest'.length + 3 = Packing.plain.operandCount) :
    ((∃ rows,
        (Rule.embeddingBag packing endOffset).infer (packed :: indices :: offsets :: rest)
          = .ok [.tensor [rows, width] (some .float)] ∧
        (Rule.embeddingBag .plain endOffset).infer (plain :: indices :: offsets :: rest')
          = .ok [.tensor [rows, width] plain.elem]) ∨
      (∃ error,
        (Rule.embeddingBag packing endOffset).infer (packed :: indices :: offsets :: rest)
          = refuse error ∧
        (Rule.embeddingBag .plain endOffset).infer (plain :: indices :: offsets :: rest')
          = refuse error) ∨
      ((Rule.embeddingBag packing endOffset).infer (packed :: indices :: offsets :: rest)
          = refuse (.invalidValue (.rowTooSmall row)) ∧
        (Rule.embeddingBag .plain endOffset).infer (plain :: indices :: offsets :: rest')
          = refuse (.invalidValue (.rowTooSmall width)))) ∧
    ((∀ size, indices.asTensor ≠ .ok [size]) →
      ∀ (packing : Packing) (table offsets' : ValueInfo) (rest : List ValueInfo) (endOffset' : Bool),
        (Rule.embeddingBag packing endOffset).infer (table :: indices :: offsets :: rest)
          = (Rule.embeddingBag packing endOffset').infer (table :: indices :: offsets' :: rest)) := by
  have hentries : packing.width row = width := by
    rw [packing.width_of_fits (hwidth ▸ hfits), hwidth]
  have hplainEntries : Packing.plain.width width = width := rfl
  have helem : packing.elem packed = some .float := by
    cases packing with
    | plain => exact absurd rfl hpacking
    | byteRow => rfl
    | fourBitRow => rfl
  simp only [infer]
  refine ⟨?_, fun hrank packing table offsets' rest endOffset' => pool_congr hrank _ _ _ _ _ _ _⟩
  rw [pool_eq packing endOffset _ _ hpacked hrest, pool_eq .plain endOffset _ _ hplain hrest',
    hentries, hplainEntries, helem]
  cases hbags : bags indices offsets endOffset with
  | error halt =>
    obtain ⟨error, rfl⟩ := bags_refused hwords hleast hbags
    exact .inr (.inl ⟨error, rfl, rfl⟩)
  | ok rows =>
    simp only [Outcome.ok_bind]
    by_cases hpos : width ≤ 0
    · rw [if_pos hpos, if_pos hpos]
      exact .inr (.inr ⟨rfl, rfl⟩)
    · rw [if_neg hpos, if_neg hpos]
      exact .inl ⟨rows, rfl, rfl⟩

/-- Rows of a byte per entry without an entry, with bags that close with an end offset; and two entries per
    byte, with a row of indices for each bag. -/
theorem Rule.infer_embeddingBag_unpacked_rows :
    ((Rule.embeddingBag .byteRow true).infer [.tensor [5, 8] (some .uint8), .tensor [20] none,
          .tensor [4] none, .absent, .absent, .absent, .absent, .absent]
        = refuse (.invalidValue (.rowTooSmall 8)) ∧
      (Rule.embeddingBag .plain true).infer [.tensor [5, 0] (some .half), .tensor [20] none,
          .tensor [4] none, .absent, .absent, .absent, .absent, .absent]
        = refuse (.invalidValue (.rowTooSmall 0))) ∧
    (Rule.embeddingBag .fourBitRow true).infer [.tensor [5, 12] (some .uint8), .tensor [6, 3] none,
          .tensor [4] none, .absent, .absent, .absent, .absent, .absent, .absent]
        = .ok [.tensor [6, 16] (some .float)] ∧
      (Rule.embeddingBag .plain true).infer [.tensor [5, 16] (some .half), .tensor [6, 3] none,
          .tensor [4] none, .absent, .absent, .absent, .absent, .absent]
        = .ok [.tensor [6, 16] (some .half)] ∧
      (Rule.embeddingBag .fourBitRow true).infer [.tensor [5, 12] (some .uint8), .tensor [6, 3] none,
          .tensor [4] none, .absent, .absent, .absent, .absent, .absent, .absent]
        = (Rule.embeddingBag .fourBitRow false).infer [.tensor [5, 12] (some .uint8),
            .tensor [6, 3] none, .tensorList [] none, .absent, .absent, .absent, .absent, .absent,
            .absent] := by
  have hwords : (ValueInfo.tensor [4] none).InWords := .tensor (by decide) none
  have hleast : ∀ dims, (ValueInfo.tensor [4] none).asTensor = .ok dims → Word.least ∉ dims := by
    rintro _ ⟨⟩
    decide
  constructor
  · obtain ⟨⟨rows, hmade, -⟩ | ⟨error, hpacked, hplain⟩ | hsmall, -⟩ :=
      Rule.infer_embeddingBag_unpacked true (.tensor [20] none) (List.replicate 5 .absent)
        (List.replicate 5 .absent) [5] (by decide : Packing.byteRow ≠ .plain) rfl (by decide)
        (ValueInfo.asTensor_tensor [5, 8] (some .uint8))
        (ValueInfo.asTensor_tensor [5, 0] (some .half)) hwords hleast rfl rfl
    · cases hmade
    · cases hpacked.trans hplain.symm
    · exact hsmall
  · obtain ⟨⟨rows, hpacked, hplain⟩ | ⟨error, hpacked, -⟩ | ⟨hpacked, -⟩, hrank⟩ :=
      Rule.infer_embeddingBag_unpacked true (.tensor [6, 3] none) (List.replicate 6 .absent)
        (List.replicate 5 .absent) [5] (by decide : Packing.fourBitRow ≠ .plain) rfl (by decide)
        (ValueInfo.asTensor_tensor [5, 12] (some .uint8))
        (ValueInfo.asTensor_tensor [5, 16] (some .half)) hwords hleast rfl rfl
    · have hsame := hrank (by rintro size ⟨⟩) .fourBitRow (.tensor [5, 12] (some .uint8))
        (.tensorList [] none) (List.replicate 6 .absent) false
      cases hpacked
      exact ⟨rfl, hplain, hsame⟩
    · cases hpacked
    · cases hpacked

/-! ### Widths -/

namespace Packing

/-- Embedding bags over some table with rows of this size have a result of this width. -/
def Reports (packing : Packing) (row width : Int) : Prop :=
  ∃ (table indices offsets : ValueInfo) (rest : List ValueInfo) (front : Dims) (endOffset : Bool)
    (rows : Int), table.asTensor = .ok (front ++ [row]) ∧
    (Rule.embeddingBag packing endOffset).infer (table :: indices :: offsets :: rest)
      = .ok [.tensor [rows, width] (packing.elem table)]

end Packing

namespace EmbeddingBag

theorem pool_ok_iff (packing : Packing) (endOffset : Bool) (indices offsets : ValueInfo)
    (rest : List ValueInfo) (ht : table.asTensor = .ok (front ++ [row])) {made : List ValueInfo} :
    pool packing endOffset (table :: indices :: offsets :: rest) = .ok made ↔
      rest.length + 3 = packing.operandCount ∧ ∃ rows, bags indices offsets endOffset = .ok rows ∧
        0 < packing.width row ∧ made = [.tensor [rows, packing.width row] (packing.elem table)] := by
  by_cases hrest : rest.length + 3 = packing.operandCount
  · rw [pool_eq packing endOffset indices offsets ht hrest, Outcome.bind_ok_iff]
    simp only [hrest, true_and]
    refine exists_congr fun rows => and_congr_right fun _ => ?_
    split
    · next hsmall => simp [refuse, Int.not_lt.2 hsmall]
    · next hpos => simp [Int.not_le.1 hpos, pure, Except.pure, eq_comm]
  · rw [pool, Operands.threeOf, if_neg hrest]
    simp [hrest, refuse]

end EmbeddingBag

/-- A width is reported for every row with an entry: its number of entries, but no more than the greatest
    word. -/
theorem Packing.reports_iff (packing : Packing) {row width : Int} (hrow : Word.Fits row) :
    packing.Reports row width ↔
      0 < packing.entries row ∧ width = min (packing.entries row) Word.greatest := by
  have hclamp := packing.width_eq_clamp hrow
  simp only [Word.clamp, Word.least, Word.greatest] at hclamp ⊢
  constructor
  · rintro ⟨table, indices, offsets, rest, front, endOffset, rows, ht, h⟩
    obtain ⟨-, rows', -, hpos, hmade⟩ :=
      (EmbeddingBag.pool_ok_iff packing endOffset indices offsets rest ht).1 h
    cases hmade
    omega
  · rintro ⟨hpos, rfl⟩
    have hwidth : packing.width row = min (packing.entries row) 9223372036854775807 := by omega
    have htable : (ValueInfo.tensor [row] none).asTensor = .ok ([] ++ [row]) := rfl
    obtain ⟨rest, hrest⟩ : ∃ rest : List ValueInfo, rest.length + 3 = packing.operandCount :=
      ⟨List.replicate (packing.operandCount - 3) .absent, by cases packing <;> rfl⟩
    refine ⟨_, .tensor [1, 1] none, .absent, rest, _, false, 1, htable, ?_⟩
    refine (EmbeddingBag.pool_ok_iff packing false _ _ rest htable).2 ⟨hrest, 1, rfl, by omega, ?_⟩
    rw [hwidth]

/-- WIDTHS: rows of a byte per entry report the entries that they have, and every such number that is not
    zero. Rows with two entries per byte do so too, as long as these are no more than the greatest
    word, and report the greatest word for all that have more. So the size of a stored row can be worked
    out from the width, and no other row has it, exactly where the entries are a word. -/
theorem Rule.infer_embeddingBag_widths {row : Int} (hrow : Word.Fits row) :
    (∀ width, Packing.byteRow.Reports row width ↔ 1 ≤ width ∧ width + 8 = row) ∧
    (∀ width, Packing.fourBitRow.Reports row width ↔
      1 ≤ width ∧ width = min (2 * (row - 4)) Word.greatest) ∧
    ∀ (packing : Packing) (width : Int), packing.Reports row width →
      (packing.rowSize width = row ↔ packing.entries row ≤ Word.greatest) ∧
      ∀ row', Word.Fits row' → packing.Reports row' width →
        row' = row ∨ Word.greatest < packing.entries row ∧ Word.greatest < packing.entries row' := by
  have hword := Word.fits_iff.1 hrow
  refine ⟨fun width => ?_, fun width => ?_, fun packing width h => ⟨?_, fun row' hrow' h' => ?_⟩⟩
  · rw [Packing.reports_iff .byteRow hrow, Packing.entries, Word.greatest]
    omega
  · rw [Packing.reports_iff .fourBitRow hrow, Packing.entries, Word.greatest]
    omega
  · obtain ⟨-, rfl⟩ := (packing.reports_iff hrow).1 h
    cases packing <;> simp only [Packing.rowSize, Packing.entries, Word.greatest] <;> omega
  · obtain ⟨-, hwidth⟩ := (packing.reports_iff hrow).1 h
    obtain ⟨-, hwidth'⟩ := (packing.reports_iff hrow').1 h'
    have hword' := Word.fits_iff.1 hrow'
    cases packing <;> simp only [Packing.entries, Word.greatest] at hwidth hwidth' ⊢ <;> omega

/-- The greatest row of a byte per entry, and of two the greatest one whose entries are a word. The greatest
    row of all reports a width that it does not have. -/
theorem Rule.infer_embeddingBag_widths_greatest :
    Packing.byteRow.Reports Word.greatest 9223372036854775799 ∧
    (Packing.fourBitRow.Reports 4611686018427387907 9223372036854775806 ∧
      Packing.fourBitRow.rowSize 9223372036854775806 = 4611686018427387907) ∧
    Packing.fourBitRow.Reports Word.greatest Word.greatest ∧
      Packing.fourBitRow.rowSize Word.greatest ≠ Word.greatest := by
  have hrow : Word.Fits 4611686018427387907 := by decide
  have hgreatest : Word.Fits Word.greatest := by decide
  have hreports : Packing.fourBitRow.Reports 4611686018427387907 9223372036854775806 :=
    ((Rule.infer_embeddingBag_widths hrow).2.1 _).2 (by decide)
  have hlimit : Packing.fourBitRow.Reports Word.greatest Word.greatest :=
    ((Rule.infer_embeddingBag_widths hgreatest).2.1 _).2 (by decide)
  refine ⟨((Rule.infer_embeddingBag_widths hgreatest).1 _).2 (by decide), ⟨hreports, ?_⟩, hlimit, ?_⟩
  · exact ((Rule.infer_embeddingBag_widths hrow).2.2 _ _ hreports).1.2 (by decide)
  · exact mt ((Rule.infer_embeddingBag_widths hgreatest).2.2 _ _ hlimit).1.1 (by decide)

/-- A row with one entry more than the greatest word: the greatest word is reported for its width. -/
theorem Rule.infer_embeddingBag_clamped :
    (Rule.embeddingBag .fourBitRow true).infer [.tensor [1, 4611686018427387908] (some .uint8),
        .tensor [6, 3] (some .int64), .tensor [4] (some .int64), .scalar 0 .int64, .scalar 0 .int64,
        .scalar 0 .int64, .scalar 0 .int64, .scalar 0 .int64, .scalar 0 .int64]
      = .ok [.tensor [6, Word.greatest] (some .float)] ∧
    Word.greatest ≠ 2 * (4611686018427387908 - 4) :=
  ⟨rfl, by decide⟩

end ShapeFlow
