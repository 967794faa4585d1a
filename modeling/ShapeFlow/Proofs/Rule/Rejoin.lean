import ShapeFlow.Proofs.Rule.Chunk
import Mathlib.Algebra.Order.BigOperators.Group.List

/-! Chunks put together again. The chunks of a tensor are its cuts from one multiple of the share to the
    next, the last one up to the end of the axis. Joined along that axis, their sizes add up to the
    size there was. The sum takes in one chunk after the other, and as no chunk is smaller than an
    empty one, no sum on the way is more than the last. -/

namespace ShapeFlow

namespace Dims

variable {dims : Dims} {i : Nat}

theorem set_getD_self (dims : Dims) (i : Nat) : dims.set i (dims.getD i 0) = dims := by
  by_cases hi : i < dims.length
  · simp [hi]
  · rw [List.set_eq_of_length_le (Nat.not_lt.1 hi)]

theorem set_of_getElem? {size : Int} (h : dims[i]? = some size) : dims.set i size = dims := by
  obtain ⟨hi, rfl⟩ := List.getElem?_eq_some_iff.1 h
  exact List.set_getElem_self hi

theorem map_getD_map_set (hi : i < dims.length) (sizes : List Int) :
    ((sizes.map (dims.set i)).map fun cut => cut.getD i 0) = sizes := by
  simp [Function.comp_def, hi]

theorem mapM_replace (hi : i < dims.length) (sizes : List Int) :
    sizes.mapM (replace dims i) = .ok (sizes.map (dims.set i)) := by
  induction sizes with
  | nil => rfl
  | cons size sizes ih =>
    rw [List.mapM_cons, replace_of_lt size hi, ih]
    rfl

end Dims

theorem ValueInfo.mapM_asTensor_tensor (parts : List Dims) (e : Option ElemType) :
    (parts.map fun dims => tensor dims e).mapM asTensor = .ok parts := by
  induction parts with
  | nil => rfl
  | cons dims parts ih =>
    rw [List.map_cons, List.mapM_cons, ih]
    rfl

/-! ### The shapes of the chunks -/

namespace Chunk

/-- A chunk goes from one multiple of the share to the next, or to the end of the axis. -/
theorem Splits.part {size chunks : Int} (h : Splits size chunks) {i : Nat} {part : Int}
    (hp : (parts size chunks)[i]? = some part) :
    (i * share size chunks ≤ min ((i + 1) * share size chunks) size) ∧
      part = min ((i + 1) * share size chunks) size - i * share size chunks := by
  obtain ⟨hpos, hsize⟩ := h.bounds
  have hshare : 0 ≤ share size chunks := share_nonneg hsize hpos.le
  have hleading : share size chunks * (chunks - 1) ≤ size := by
    obtain ⟨-, ⟨rfl, rfl⟩ | ⟨-, hlt⟩⟩ := h
    · simp
    · exact hlt.le
  have hnext : ((i : Int) + 1) * share size chunks
      = i * share size chunks + share size chunks := by ring
  rw [parts, List.getElem?_append, List.length_replicate] at hp
  split at hp
  · -- a whole share, which ends before the last chunk begins
    next hi =>
    rw [List.getElem?_replicate, if_pos hi, Option.some.injEq] at hp
    have hend : ((i : Int) + 1) * share size chunks ≤ (chunks - 1) * share size chunks :=
      mul_le_mul_of_nonneg_right (by omega) hshare
    rw [min_eq_left (by linarith)]
    constructor <;> linarith
  · -- the rest, for which a whole share suffices
    next hi =>
    obtain ⟨hlast, rfl⟩ := List.getElem?_eq_some_iff.1 hp
    rw [List.length_singleton] at hlast
    have hi' : (i : Int) = chunks - 1 := by omega
    obtain ⟨-, hcover⟩ := (share_eq_iff hpos).1 (Eq.refl (share size chunks))
    rw [List.getElem_singleton, hnext, hi', min_eq_right (by linarith)]
    constructor <;> linarith

/-- No chunk is smaller than an empty one. -/
theorem Splits.nonneg_of_mem {size chunks : Int} (h : Splits size chunks) :
    ∀ part ∈ parts size chunks, 0 ≤ part := by
  intro part hp
  obtain ⟨i, hi⟩ := List.mem_iff_getElem?.1 hp
  obtain ⟨hle, rfl⟩ := h.part hi
  omega

/-- The shapes differ from that of the tensor at the split axis alone, where they have the chunks. -/
theorem shapes_ok_iff {dims : Dims} (hw : ∀ size ∈ dims, Word.Fits size) {k d : Int}
    {made : List Dims} :
    shapes dims k d = .ok made ↔
      ∃ position size, Axis.resolve dims.length d = .ok position ∧ dims[position]? = some size ∧
        Splits size k ∧ made = (parts size k).map (dims.set position) := by
  constructor
  · intro h
    obtain ⟨position, hr, h⟩ := Outcome.bind_ok_iff.1 h
    obtain ⟨size, hentry, h⟩ := Outcome.bind_ok_iff.1 h
    obtain ⟨sizes, hsizes, h⟩ := Outcome.bind_ok_iff.1 h
    have hlt := Axis.lt_of_resolve hr
    rw [Dims.entry_of_lt hlt, Except.ok.injEq] at hentry
    obtain ⟨hsplits, rfl⟩ := (sizes_ok_iff (hw size (hentry ▸ List.getElem_mem hlt))).1 hsizes
    rw [Dims.mapM_replace hlt, Except.ok.injEq] at h
    exact ⟨position, size, hr, List.getElem?_eq_some_iff.2 ⟨hlt, hentry⟩, hsplits, h.symm⟩
  · rintro ⟨position, size, hr, hsize, hsplits, rfl⟩
    obtain ⟨hlt, rfl⟩ := List.getElem?_eq_some_iff.1 hsize
    have hsizes := (sizes_ok_iff (hw _ (List.getElem_mem hlt))).2 ⟨hsplits, rfl⟩
    simp only [shapes, hr, Dims.entry_of_lt hlt, hsizes, Outcome.ok_bind]
    exact Dims.mapM_replace hlt _

end Chunk

/-! ### Cuts -/

namespace Slice

/-- A range inside of the axis has as many positions as there are from its begin to its end. -/
theorem length_of_within {size lo hi : Int} (hs : Word.Fits size) (hlo : 0 ≤ lo) (hle : lo ≤ hi)
    (hhi : hi ≤ size) : length size lo hi 1 = .ok (hi - lo) := by
  rw [length_of_nonneg hs (by omega) lo hi (by decide), edge_of_mem hlo (by omega),
    edge_of_mem (by omega) hhi, steps_one hle]

end Slice

/-! ### Joins -/

namespace Concat

/-- Shapes that differ at one axis alone can be joined along it. -/
theorem joinable_set (dims : Dims) (axis : Nat) (size other : Int) :
    Joinable axis (dims.set axis size) (dims.set axis other) := by
  constructor
  · simp
  · simp [List.eraseIdx_set_eq]

/-- Joining on from a shape adds the sizes at the axis, as long as they add up to a word. -/
theorem foldlM_extend_eq {first joined : Dims} {axis : Nat} (ha : axis < first.length)
    (hj : joined.length = first.length) {rest : List Dims}
    (hrest : ∀ other ∈ rest, Joinable axis first other)
    (hnonneg : ∀ other ∈ rest, 0 ≤ other.getD axis 0) (hstart : 0 ≤ joined.getD axis 0)
    (hfits : Word.Fits (joined.getD axis 0 + (rest.map fun dims => dims.getD axis 0).sum)) :
    rest.foldlM (extend first axis) joined
      = .ok (joined.set axis
          (joined.getD axis 0 + (rest.map fun dims => dims.getD axis 0).sum)) := by
  induction rest generalizing joined with
  | nil =>
    rw [List.map_nil, List.sum_nil, Int.add_zero, Dims.set_getD_self]
    rfl
  | cons other rest ih =>
    rw [List.forall_mem_cons] at hrest hnonneg
    have hsum : 0 ≤ (rest.map fun dims => dims.getD axis 0).sum :=
      List.sum_nonneg (List.forall_mem_map.2 hnonneg.2)
    rw [List.map_cons, List.sum_cons, ← Int.add_assoc] at hfits ⊢
    have hstep : Word.add (joined.getD axis 0) (other.getD axis 0)
        = .ok (joined.getD axis 0 + other.getD axis 0) := by
      rw [Word.fits_iff] at hfits
      exact Word.add_of_fits (Word.fits_iff.2 (by omega))
    have hset := Dims.getD_set_self (hj ▸ ha) (joined.getD axis 0 + other.getD axis 0)
    have hlength : (joined.set axis (joined.getD axis 0 + other.getD axis 0)).length
        = first.length := by rw [List.length_set, hj]
    rw [List.foldlM_cons, extend_of_joinable ha hj hrest.1, hstep]
    show rest.foldlM (extend first axis) (joined.set axis _) = _
    rw [ih hlength hrest.2 hnonneg.2 (by rw [hset]; omega) (by rw [hset]; exact hfits), hset,
      List.set_set]

theorem shapes_cons_cons (first second : Dims) (rest : List Dims) (dim : Int) :
    shapes (first :: second :: rest) dim = (do
      let axis ← Axis.resolve first.length dim
      (second :: rest).foldlM (extend first axis) first) := rfl

/-- Cuts of one shape along an axis join to that shape, with the sum of the cuts at the axis. -/
theorem shapes_map_set {dims : Dims} {d : Int} {axis : Nat}
    (hr : Axis.resolve dims.length d = .ok axis) {sizes : List Int} (hne : sizes ≠ [])
    (hnonneg : ∀ size ∈ sizes, 0 ≤ size) (hfits : Word.Fits sizes.sum) :
    shapes (sizes.map (dims.set axis)) d = .ok (dims.set axis sizes.sum) := by
  have ha := Axis.lt_of_resolve hr
  match sizes with
  | [] => exact absurd rfl hne
  | [size] => simp [shapes, pure, Except.pure]
  | first :: second :: rest =>
    rw [List.forall_mem_cons] at hnonneg
    have hfirst := Dims.getD_set_self ha first
    have hresolve : Axis.resolve (dims.set axis first).length d = .ok axis := by
      rw [List.length_set, hr]
    have hsizes := Dims.map_getD_map_set ha (second :: rest)
    have hjoin : ∀ other ∈ (second :: rest).map (dims.set axis),
        Joinable axis (dims.set axis first) other :=
      List.forall_mem_map.2 fun other _ => joinable_set dims axis first other
    have hothers : ∀ other ∈ (second :: rest).map (dims.set axis), 0 ≤ other.getD axis 0 :=
      List.forall_mem_map.2 fun other ho => by
        rw [Dims.getD_set_self ha]
        exact hnonneg.2 other ho
    have hfold : ((second :: rest).map (dims.set axis)).foldlM (extend (dims.set axis first) axis)
        (dims.set axis first) = .ok (dims.set axis (first + (second :: rest).sum)) := by
      rw [foldlM_extend_eq (by rwa [List.length_set]) rfl hjoin hothers
        (by rw [hfirst]; exact hnonneg.1) (by rw [hsizes, hfirst]; exact hfits), hsizes, hfirst,
        List.set_set]
    rw [List.map_cons, List.map_cons, shapes_cons_cons, hresolve]
    exact hfold

/-- Joining a list is joining its shapes, also where it is a list of one. -/
theorem concat_eq {list axis : ValueInfo} {parts : List Dims} {d : Int}
    (hp : list.asTensorList = .ok parts) (hd : axis.asInt = .ok d) :
    concat [list, axis] = (do
      let dims ← shapes parts d
      pure [.tensor dims list.elem]) := by
  simp only [concat, Operands.two, pure_bind, hp, hd, Outcome.ok_bind]
  split
  · rfl
  · rfl

theorem fusedConcat_eq {first : ValueInfo} {rest : List ValueInfo} {parts : List Dims} (d : Int)
    (hp : (first :: rest).mapM ValueInfo.asTensor = .ok parts) :
    fusedConcat d (first :: rest) = (do
      let dims ← shapes parts d
      pure [.tensor dims first.elem]) := by
  simp only [fusedConcat, Operands.oneOrMore, pure_bind, hp, Outcome.ok_bind]

end Concat

/-- Joined along the split axis, the shapes of the chunks are the shape that was split. -/
theorem Chunk.join_of_shapes {dims : Dims} (hw : ∀ size ∈ dims, Word.Fits size) {k d : Int}
    {made : List Dims} (h : shapes dims k d = .ok made) : Concat.shapes made d = .ok dims := by
  obtain ⟨position, size, hr, hsize, hsplits, rfl⟩ := (shapes_ok_iff hw).1 h
  have hsum : (parts size k).sum = size := sum_parts hsplits.1
  have hfits : Word.Fits (parts size k).sum := by
    rw [hsum]
    exact hw size (List.mem_of_getElem? hsize)
  rw [Concat.shapes_map_set hr (by simp [parts]) hsplits.nonneg_of_mem hfits, hsum,
    Dims.set_of_getElem? hsize]

/-- REJOIN: the chunks of a tensor are its cuts between the multiples of the share, as many as were asked
    for. Joined along the axis they were split at they are the tensor again, with its shape and type,
    whether they come as a list or one by one. -/
theorem Rule.infer_chunk_rejoin {x count axis : ValueInfo} {k d : Int} (hx : x.InWords)
    (hk : count.asInt = .ok k) (hd : axis.asInt = .ok d) {made : List ValueInfo}
    (h : Rule.chunk.infer [x, count, axis] = .ok made) :
    ∃ (dims : Dims) (position : Nat) (size : Int) (parts : List Dims),
      x.asTensor = .ok dims ∧ Axis.resolve dims.length d = .ok position ∧
      dims[position]? = some size ∧ made = [.tensorList parts x.elem] ∧ (parts.length : Int) = k ∧
      (∀ (i : Nat) (part : Dims), parts[i]? = some part → ∀ start stop step : ValueInfo,
        start.asInt = .ok (i * Chunk.share size k) →
        stop.asInt = .ok (min ((i + 1) * Chunk.share size k) size) → step.asInt = .ok 1 →
        Rule.slice.infer [x, axis, start, stop, step] = .ok [.tensor part x.elem]) ∧
      Rule.concat.infer (made ++ [axis]) = .ok [.tensor dims x.elem] ∧
      (Rule.constantChunk k d).infer [x] = .ok (parts.map fun part => .tensor part x.elem) ∧
      (Rule.fusedConcat d).infer (parts.map fun part => .tensor part x.elem)
        = .ok [.tensor dims x.elem] := by
  rw [infer, Chunk.chunk_eq hk hd] at h
  obtain ⟨dims, hdims, h⟩ := Outcome.bind_ok_iff.1 h
  obtain ⟨parts, hparts, h⟩ := Outcome.bind_ok_iff.1 h
  cases h
  have hw := hx.asTensor dims hdims
  obtain ⟨position, size, hr, hsize, hsplits, rfl⟩ := (Chunk.shapes_ok_iff hw).1 hparts
  have hfits : Word.Fits size := hw size (List.mem_of_getElem? hsize)
  have hshare := Chunk.share_nonneg hsplits.bounds.2 hsplits.bounds.1.le
  have hne : Chunk.parts size k ≠ [] := by simp [Chunk.parts]
  have hjoined := Chunk.join_of_shapes hw hparts
  refine ⟨dims, position, size, _, hdims, hr, hsize, rfl, ?_, ?_, ?_, ?_, ?_⟩
  · rw [List.length_map]
    exact Chunk.length_parts hsplits.1
  · intro i part hpart start stop step hstart hstop hstep
    rw [List.getElem?_map, Option.map_eq_some_iff] at hpart
    obtain ⟨n, hn, rfl⟩ := hpart
    obtain ⟨hle, rfl⟩ := hsplits.part hn
    have hlo : 0 ≤ i * Chunk.share size k := Int.mul_nonneg (by omega) hshare
    exact Slice.slice_eq hdims hd hr hstart hstop hstep (by decide) hsize
      (Slice.length_of_within hfits hlo hle (min_le_right _ _))
  · rw [infer, List.singleton_append,
      Concat.concat_eq (ValueInfo.asTensorList_tensorList _ _) hd, hjoined]
    rfl
  · rw [infer, Chunk.constantChunk_eq, hdims, Outcome.ok_bind, hparts]
    rfl
  · have hread := ValueInfo.mapM_asTensor_tensor ((Chunk.parts size k).map (dims.set position)) x.elem
    obtain ⟨n, sizes, hcons⟩ := List.exists_cons_of_ne_nil hne
    rw [hcons] at hread hjoined ⊢
    rw [infer, List.map_cons, List.map_cons, Concat.fusedConcat_eq d hread, hjoined]
    rfl

/-- Ten columns in three chunks: the last chunk is the cut from the eighth column on, and joined they
    are ten columns again. -/
theorem Rule.infer_chunk_rejoin_thirds :
    Rule.chunk.infer [.tensor [2, 10] (some .float), .scalar 3 .int64, .scalar (-1) .int64]
      = .ok [.tensorList [[2, 4], [2, 4], [2, 2]] (some .float)] ∧
    Rule.slice.infer [.tensor [2, 10] (some .float), .scalar (-1) .int64, .scalar 8 .int64,
        .scalar 10 .int64, .scalar 1 .int64] = .ok [.tensor [2, 2] (some .float)] ∧
    Rule.concat.infer [.tensorList [[2, 4], [2, 4], [2, 2]] (some .float), .scalar (-1) .int64]
      = .ok [.tensor [2, 10] (some .float)] := by
  have hx : (ValueInfo.tensor [2, 10] (some .float)).InWords := .tensor (by decide) _
  have hmade : Rule.chunk.infer [.tensor [2, 10] (some .float), .scalar 3 .int64,
      .scalar (-1) .int64] = .ok [.tensorList [[2, 4], [2, 4], [2, 2]] (some .float)] := rfl
  obtain ⟨dims, position, size, parts, hdims, hr, hsize, hparts, -, hcut, hjoin, -⟩ :=
    Rule.infer_chunk_rejoin hx rfl rfl hmade
  cases hdims
  cases hr
  cases hsize
  cases hparts
  have hshare : Chunk.share 10 3 = 4 := (Chunk.share_eq_iff (by decide)).2 (by decide)
  refine ⟨hmade, hcut 2 [2, 2] rfl _ _ _ ?_ ?_ rfl, hjoin⟩
  · rw [hshare]
    rfl
  · rw [hshare]
    rfl

end ShapeFlow
