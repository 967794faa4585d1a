import ShapeFlow.Inference.Table
import Mathlib.Data.List.Nodup
import Mathlib.Data.List.Perm.Basic
import Mathlib.Tactic.Common

/-! The table as a finite map. Filling wires one after the other works out exactly when no wire
    comes twice and all were empty, and the table then knows what it was given and what it knew.
    Reading wires works out exactly when all are filled. The listing of a table is its graph as a
    map, in order of number, so two tables that know the same list the same: what can be seen of a
    table that started empty is which pairs it was given, and not when, nor how much room it had. Only
    where it had more slots than there are wires does the listing fault. -/

namespace ShapeFlow.Table

/-- All that one table knows the other knows too. -/
def Within (t t' : Table) : Prop := ∀ w info, t.get? w = some info → t'.get? w = some info

theorem Within.refl (t : Table) : t.Within t := fun _ _ h => h

theorem Within.trans {a b c : Table} (hab : a.Within b) (hbc : b.Within c) : a.Within c :=
  fun w info h => hbc w info (hab w info h)

/-! ### Filling one wire -/

/-- A wire that is filled cannot be filled again. -/
theorem get?_of_insert {t t' : Table} {w : Wire} {info : ValueInfo}
    (h : t.insert w info = .ok t') : t.get? w = none := by
  rw [insert] at h
  split at h
  · cases h
  · assumption

theorem insert_of_get?_some {t : Table} {w : Wire} {info : ValueInfo} (h : t.get? w = some info)
    (info' : ValueInfo) : t.insert w info' = .error (.producedTwice w.index) := by
  rw [insert, h]; rfl

theorem insert_of_get?_none {t : Table} {w : Wire} (info : ValueInfo) (h : t.get? w = none) :
    t.insert w info = .ok ⟨(t.grow (w.index + 1)).slots.setIfInBounds w.index (some info)⟩ := by
  rw [insert, h]; rfl

/-- A table grows up to the wire that is filled and no further. -/
theorem size_slots_insert {t t' : Table} {w : Wire} {info : ValueInfo} (h : t.insert w info = .ok t') :
    t'.slots.size = max t.slots.size (w.index + 1) := by
  rw [insert_of_get?_none info (get?_of_insert h)] at h
  obtain rfl := Except.ok.inj h
  simp only [grow, Array.size_setIfInBounds, Array.size_append, Array.size_replicate]
  omega

/-- Filling a wire that the table has a slot for leaves the number of slots as it is. -/
theorem size_insert {t t' : Table} {w : Wire} {info : ValueInfo} (h : t.insert w info = .ok t')
    (hw : w.index < t.slots.size) : t'.slots.size = t.slots.size := by
  rw [size_slots_insert h]
  exact Nat.max_eq_left hw

/-! ### Filling wires from the left -/

theorem insertAll_cons_ok_iff {t t' : Table} {p : Wire × ValueInfo} {ps : List (Wire × ValueInfo)} :
    t.insertAll (p :: ps) = .ok t' ↔
      ∃ t₁, t.insert p.1 p.2 = .ok t₁ ∧ t₁.insertAll ps = .ok t' := by
  show (t.insert p.1 p.2).bind (fun t => t.insertAll ps) = .ok t' ↔ _
  cases t.insert p.1 p.2 <;> simp [Except.bind]

theorem insertAll_append_of_ok {t t' : Table} {ps : List (Wire × ValueInfo)}
    (h : t.insertAll ps = .ok t') (qs : List (Wire × ValueInfo)) :
    t.insertAll (ps ++ qs) = t'.insertAll qs := by
  have happend : t.insertAll (ps ++ qs) = t.insertAll ps >>= fun t => t.insertAll qs :=
    List.foldlM_append
  rw [happend, h]
  rfl

/-- Filling is only possible where the wires are distinct and empty. -/
theorem free_of_insertAll {t t' : Table} {ps : List (Wire × ValueInfo)}
    (h : t.insertAll ps = .ok t') : (ps.map (·.1)).Nodup ∧ ∀ w ∈ ps.map (·.1), t.get? w = none := by
  induction ps generalizing t with
  | nil => simp
  | cons p ps ih =>
    obtain ⟨t₁, h₁, h₂⟩ := insertAll_cons_ok_iff.1 h
    obtain ⟨hnd, hfree⟩ := ih h₂
    have hne : ∀ w ∈ ps.map (·.1), p.1 ≠ w := by
      intro w hw he
      have := hfree w hw
      rw [get?_insert h₁, if_pos he] at this
      cases this
    refine ⟨List.nodup_cons.2 ⟨fun hm => hne _ hm rfl, hnd⟩, ?_⟩
    rintro w (_ | ⟨_, hw⟩)
    · exact get?_of_insert h₁
    · have := hfree w hw
      rwa [get?_insert h₁, if_neg (hne w hw)] at this

/-- Distinct empty wires can be filled. -/
theorem exists_insertAll {t : Table} {ps : List (Wire × ValueInfo)} (hnd : (ps.map (·.1)).Nodup)
    (hfree : ∀ w ∈ ps.map (·.1), t.get? w = none) : ∃ t', t.insertAll ps = .ok t' := by
  induction ps generalizing t with
  | nil => exact ⟨t, rfl⟩
  | cons p ps ih =>
    rw [List.map_cons, List.nodup_cons] at hnd
    have h₁ := insert_of_get?_none p.2 (hfree p.1 (by simp))
    obtain ⟨t', h₂⟩ := ih hnd.2 fun w hw => by
      rw [get?_insert h₁, if_neg fun he : p.1 = w => hnd.1 (he ▸ hw)]
      exact hfree w (List.mem_cons_of_mem _ hw)
    exact ⟨t', insertAll_cons_ok_iff.2 ⟨_, h₁, h₂⟩⟩

/-- A wire that is no key has no value in a list of pairs. -/
theorem lookup_of_not_mem {ps : List (Wire × ValueInfo)} {w : Wire} (hw : w ∉ ps.map (·.1)) :
    ps.lookup w = none := by
  rw [List.lookup_eq_none_iff]
  intro q hq
  simpa using fun he : w = q.1 => hw (he ▸ List.mem_map_of_mem hq)

/-- A table after filling knows what it was given, and what it knew before. -/
theorem get?_insertAll {t t' : Table} {ps : List (Wire × ValueInfo)} (h : t.insertAll ps = .ok t')
    (w : Wire) : t'.get? w = (ps.lookup w).or (t.get? w) := by
  induction ps generalizing t with
  | nil => obtain rfl := Except.ok.inj h; rfl
  | cons p ps ih =>
    have hnd := (free_of_insertAll h).1
    obtain ⟨t₁, h₁, h₂⟩ := insertAll_cons_ok_iff.1 h
    rw [ih h₂, get?_insert h₁, List.lookup_cons]
    by_cases hw : p.1 = w
    · subst hw
      rw [List.map_cons, List.nodup_cons] at hnd
      simp [lookup_of_not_mem hnd.1]
    · have hw' : (w == p.1) = false := by simpa using fun he : w = p.1 => hw he.symm
      simp [hw, hw']

theorem get?_insertAll_of_not_mem {t t' : Table} {ps : List (Wire × ValueInfo)}
    (h : t.insertAll ps = .ok t') {w : Wire} (hw : w ∉ ps.map (·.1)) : t'.get? w = t.get? w := by
  rw [get?_insertAll h, lookup_of_not_mem hw, Option.none_or]

theorem within_of_insertAll {t t' : Table} {ps : List (Wire × ValueInfo)}
    (h : t.insertAll ps = .ok t') : t.Within t' := by
  intro w info hw
  rw [get?_insertAll_of_not_mem h, hw]
  intro hm
  rw [(free_of_insertAll h).2 w hm] at hw
  cases hw

/-- Each wire that was filled has the value that it was filled with. -/
theorem get?_of_mem_insertAll {t t' : Table} {ps : List (Wire × ValueInfo)}
    (h : t.insertAll ps = .ok t') {p : Wire × ValueInfo} (hp : p ∈ ps) : t'.get? p.1 = some p.2 := by
  induction ps generalizing t with
  | nil => cases hp
  | cons q ps ih =>
    obtain ⟨t₁, h₁, h₂⟩ := insertAll_cons_ok_iff.1 h
    rcases List.mem_cons.1 hp with rfl | hp
    · have hfilled : t₁.get? p.1 = some p.2 := by rw [get?_insert h₁, if_pos rfl]
      exact within_of_insertAll h₂ p.1 p.2 hfilled
    · exact ih h₂ hp

/-- Filling wires that the table has slots for leaves the number of slots as it is. -/
theorem size_insertAll {t t' : Table} {ps : List (Wire × ValueInfo)} (h : t.insertAll ps = .ok t')
    (hb : ∀ w ∈ ps.map (·.1), w.index < t.slots.size) : t'.slots.size = t.slots.size := by
  induction ps generalizing t with
  | nil => obtain rfl := Except.ok.inj h; rfl
  | cons p ps ih =>
    obtain ⟨t₁, h₁, h₂⟩ := insertAll_cons_ok_iff.1 h
    have hs := size_insert h₁ (hb p.1 (by simp))
    rw [ih h₂ fun w hw => hs ▸ hb w (List.mem_cons_of_mem _ hw), hs]

/-- A table that has room enough does not outgrow it. -/
theorem size_slots_insertAll_le {t t' : Table} {ps : List (Wire × ValueInfo)} {room : Nat}
    (h : t.insertAll ps = .ok t') (ht : t.slots.size ≤ room) (hb : ∀ p ∈ ps, p.1.index < room) :
    t'.slots.size ≤ room := by
  induction ps generalizing t with
  | nil =>
    obtain rfl := Except.ok.inj h
    exact ht
  | cons p ps ih =>
    obtain ⟨t₁, h₁, h₂⟩ := insertAll_cons_ok_iff.1 h
    have hgrown : t₁.slots.size ≤ room := by
      rw [size_slots_insert h₁]
      exact Nat.max_le.2 ⟨ht, hb p (.head _)⟩
    exact ih h₂ hgrown fun q hq => hb q (.tail _ hq)

/-- A table does not lose slots. -/
theorem le_size_slots_insertAll {t t' : Table} {ps : List (Wire × ValueInfo)}
    (h : t.insertAll ps = .ok t') : t.slots.size ≤ t'.slots.size := by
  induction ps generalizing t with
  | nil =>
    obtain rfl := Except.ok.inj h
    exact Nat.le_refl _
  | cons p ps ih =>
    obtain ⟨t₁, h₁, h₂⟩ := insertAll_cons_ok_iff.1 h
    have hgrown : t.slots.size ≤ t₁.slots.size := by
      rw [size_slots_insert h₁]
      exact Nat.le_max_left _ _
    exact Nat.le_trans hgrown (ih h₂)

/-! ### Wires filled with a list of values -/

/-- The keys of a zip are the front of the first list. -/
theorem map_fst_zip_eq_take {ws : List Wire} {infos : List ValueInfo} :
    (ws.zip infos).map (·.1) = ws.take infos.length := by
  induction ws generalizing infos with
  | nil => simp
  | cons w ws ih => cases infos <;> simp [ih]

/-- Distinct empty wires can be filled with any values. -/
theorem exists_insertAll_zip {t : Table} {ws : List Wire} (hnd : ws.Nodup)
    (hfree : ∀ w ∈ ws, t.get? w = none) (infos : List ValueInfo) :
    ∃ t', t.insertAll (ws.zip infos) = .ok t' := by
  refine exists_insertAll ?_ fun w hw => ?_
  · rw [map_fst_zip_eq_take]
    exact hnd.sublist (List.take_sublist _ _)
  · rw [map_fst_zip_eq_take] at hw
    exact hfree w (List.mem_of_mem_take hw)

/-- The wires that get a value are filled, and the others stay as they were. -/
theorem isSome_insertAll_zip {t t' : Table} {ws : List Wire} {infos : List ValueInfo}
    (h : t.insertAll (ws.zip infos) = .ok t') (w : Wire) :
    (t'.get? w).isSome ↔ (t.get? w).isSome ∨ w ∈ ws.take infos.length := by
  rw [← map_fst_zip_eq_take]
  by_cases hw : w ∈ (ws.zip infos).map (·.1)
  · have : ((ws.zip infos).lookup w).isSome := by
      obtain ⟨q, hq, rfl⟩ := List.mem_map.1 hw
      rw [Option.isSome_iff_ne_none]
      intro hn
      simpa using List.lookup_eq_none_iff.1 hn q hq
    rw [get?_insertAll h, Option.isSome_or, this]
    simp [hw]
  · rw [get?_insertAll_of_not_mem h hw]
    simp [hw]

/-- Wires read back as they were filled. -/
theorem map_get?_insertAll_zip {t t' : Table} {ws : List Wire} {infos : List ValueInfo}
    (h : t.insertAll (ws.zip infos) = .ok t') (hl : infos.length = ws.length) :
    ws.map t'.get? = infos.map some := by
  induction ws generalizing t infos with
  | nil => simp_all
  | cons w ws ih =>
    obtain _ | ⟨info, infos⟩ := infos
    · cases hl
    · obtain ⟨t₁, h₁, h₂⟩ := insertAll_cons_ok_iff.1 h
      have hw : t₁.get? w = some info := by rw [get?_insert h₁, if_pos rfl]
      rw [List.map_cons, List.map_cons, within_of_insertAll h₂ w info hw,
        ih h₂ (Nat.succ.inj hl)]

/-! ### Reading wires -/

theorem readAll_cons_ok_iff {t : Table} {w : Wire} {ws : List Wire} {infos : List ValueInfo} :
    t.readAll (w :: ws) = .ok infos ↔
      ∃ info rest, t.get? w = some info ∧ t.readAll ws = .ok rest ∧ infos = info :: rest := by
  simp only [readAll, List.mapM_cons, read]
  cases t.get? w with
  | none => simp [bind, Except.bind, throw, throwThe, MonadExceptOf.throw]
  | some info =>
    cases ws.mapM t.read <;> simp [bind, Except.bind, pure, Except.pure, eq_comm]

/-- Wires are read exactly when all are filled, each with its value. -/
theorem readAll_ok_iff {t : Table} {ws : List Wire} {infos : List ValueInfo} :
    t.readAll ws = .ok infos ↔ ws.map t.get? = infos.map some := by
  induction ws generalizing infos with
  | nil => cases infos <;> simp [readAll, pure, Except.pure]
  | cons w ws ih =>
    rw [readAll_cons_ok_iff, List.map_cons]
    constructor
    · rintro ⟨info, rest, hw, hr, rfl⟩
      rw [hw, ih.1 hr, List.map_cons]
    · intro h
      obtain _ | ⟨info, rest⟩ := infos
      · cases h
      · rw [List.map_cons, List.cons.injEq] at h
        exact ⟨info, rest, h.1, ih.2 h.2, rfl⟩

/-- Filled wires can be read. -/
theorem exists_readAll {t : Table} {ws : List Wire} (h : ∀ w ∈ ws, (t.get? w).isSome) :
    ∃ infos, t.readAll ws = .ok infos := by
  simp only [readAll_ok_iff]
  induction ws with
  | nil => exact ⟨[], rfl⟩
  | cons w ws ih =>
    obtain ⟨info, hi⟩ := Option.isSome_iff_exists.1 (h w (by simp))
    obtain ⟨infos, hs⟩ := ih fun v hv => h v (List.mem_cons_of_mem _ hv)
    exact ⟨info :: infos, by rw [List.map_cons, List.map_cons, hi, hs]⟩

/-- Reading fails over a wire that is empty. -/
theorem exists_of_readAll_error {t : Table} {ws : List Wire} {fault : Fault}
    (h : t.readAll ws = .error fault) :
    ∃ w ∈ ws, t.get? w = none ∧ fault = .readTooEarly w.index := by
  induction ws with
  | nil => cases h
  | cons w ws ih =>
    simp only [readAll] at ih
    simp only [readAll, List.mapM_cons, read] at h
    cases hw : t.get? w with
    | none =>
      rw [hw] at h
      cases h
      exact ⟨w, by simp, hw, rfl⟩
    | some info =>
      rw [hw] at h
      cases hr : ws.mapM t.read with
      | ok infos => rw [hr] at h; cases h
      | error f =>
        rw [hr] at h
        cases h
        obtain ⟨v, hv, hn, he⟩ := ih hr
        exact ⟨v, List.mem_cons_of_mem _ hv, hn, he⟩

/-- Wires that were read are filled. -/
theorem isSome_of_readAll {t : Table} {ws : List Wire} {infos : List ValueInfo}
    (h : t.readAll ws = .ok infos) : ∀ w ∈ ws, (t.get? w).isSome := by
  intro w hw
  have hm : t.get? w ∈ infos.map some := readAll_ok_iff.1 h ▸ List.mem_map_of_mem hw
  obtain ⟨info, -, hi⟩ := List.mem_map.1 hm
  exact hi ▸ rfl

/-- Each value read is that of a wire. -/
theorem exists_of_mem_readAll {t : Table} {ws : List Wire} {infos : List ValueInfo}
    (h : t.readAll ws = .ok infos) {info : ValueInfo} (hi : info ∈ infos) :
    ∃ w ∈ ws, t.get? w = some info := by
  have hm : some info ∈ ws.map t.get? := readAll_ok_iff.1 h ▸ List.mem_map_of_mem hi
  exact List.mem_map.1 hm

theorem length_of_readAll {t : Table} {ws : List Wire} {infos : List ValueInfo}
    (h : t.readAll ws = .ok infos) : infos.length = ws.length := by
  have := congrArg List.length (readAll_ok_iff.1 h)
  rw [List.length_map, List.length_map] at this
  exact this.symm

/-- Wires read one after the other give values one after the other. -/
theorem prefix_of_readAll {t : Table} {ws ws' : List Wire} {infos infos' : List ValueInfo}
    (hp : ws <+: ws') (h : t.readAll ws = .ok infos) (h' : t.readAll ws' = .ok infos') :
    infos <+: infos' := by
  rw [readAll_ok_iff] at h h'
  have hmap := hp.map t.get?
  rw [h, h'] at hmap
  exact (List.prefix_map_iff_of_injective fun _ _ => Option.some.inj).1 hmap

/-- What was read stays readable as a table learns more. -/
theorem Within.readAll {t t' : Table} (h : t.Within t') {ws : List Wire} {infos : List ValueInfo}
    (hr : t.readAll ws = .ok infos) : t'.readAll ws = .ok infos := by
  rw [readAll_ok_iff] at hr ⊢
  rw [← hr]
  refine List.map_congr_left fun w hw => ?_
  obtain ⟨info, hi⟩ := Option.isSome_iff_exists.1 (isSome_of_readAll (readAll_ok_iff.2 hr) w hw)
  rw [hi, h w info hi]

/-! ### Listing a table -/

/-- The filled slots, numbered from `n`. -/
def listing (n : Nat) : List (Option ValueInfo) → List (Wire × ValueInfo)
  | [] => []
  | none :: slots => listing (n + 1) slots
  | some info :: slots => (⟨n⟩, info) :: listing (n + 1) slots

theorem filterMap_zipIdx_eq_listing (slots : List (Option ValueInfo)) (n : Nat) :
    ((slots.zipIdx n).filterMap fun (slot, i) => slot.map fun info => (⟨i⟩, info))
      = listing n slots := by
  induction slots generalizing n with
  | nil => rfl
  | cons slot slots ih => cases slot <;> simp [listing, List.zipIdx_cons, ih]

/-- Slots taken with their wires make the same listing. -/
theorem filterMap_zip_eq_listing (slots : List (Option ValueInfo)) (n : Nat) :
    (((List.range' n slots.length).map Wire.mk).zip slots).filterMap
        (fun (w, slot) => slot.map fun info => (w, info))
      = listing n slots := by
  induction slots generalizing n with
  | nil => rfl
  | cons slot slots ih => cases slot <;> simp [listing, List.range'_succ, ih]

theorem known_eq_listing (t : Table) : t.known = listing 0 t.slots.toList :=
  filterMap_zipIdx_eq_listing t.slots.toList 0

theorem le_of_mem_listing {slots : List (Option ValueInfo)} {n : Nat} {p : Wire × ValueInfo}
    (h : p ∈ listing n slots) : n ≤ p.1.index := by
  induction slots generalizing n with
  | nil => cases h
  | cons slot slots ih =>
    cases slot with
    | none => exact Nat.le_of_succ_le (ih h)
    | some info =>
      rcases List.mem_cons.1 h with rfl | h
      · exact Nat.le_refl n
      · exact Nat.le_of_succ_le (ih h)

theorem pairwise_listing (slots : List (Option ValueInfo)) (n : Nat) :
    (listing n slots).Pairwise fun p q => p.1.index < q.1.index := by
  induction slots generalizing n with
  | nil => exact .nil
  | cons slot slots ih =>
    cases slot with
    | none => exact ih (n + 1)
    | some info => exact .cons (fun q hq => le_of_mem_listing hq) (ih (n + 1))

theorem length_listing (slots : List (Option ValueInfo)) (n : Nat) :
    (listing n slots).length = slots.countP Option.isSome := by
  induction slots generalizing n with
  | nil => rfl
  | cons slot slots ih => cases slot <;> simp [listing, ih]

/-- The listing holds what the table knows, and nothing else. -/
theorem mem_known_iff {t : Table} {w : Wire} {info : ValueInfo} :
    (w, info) ∈ t.known ↔ t.get? w = some info := by
  obtain ⟨i⟩ := w
  simp only [known, get?, List.mem_filterMap, Option.map_eq_some_iff, Prod.exists, Prod.mk.injEq,
    Wire.mk.injEq, List.mem_zipIdx_iff_getElem?, Array.getElem?_toList]
  constructor
  · rintro ⟨slot, j, hj, info', rfl, rfl, rfl⟩
    rw [hj]; rfl
  · intro h
    rw [Option.join_eq_some_iff] at h
    exact ⟨some info, i, h, info, rfl, rfl, rfl⟩

/-- Wires are listed by number, each once. -/
theorem pairwise_known (t : Table) :
    t.known.Pairwise fun p q => p.1.index < q.1.index := by
  rw [known_eq_listing]
  exact pairwise_listing _ 0

theorem size_eq_length_known (t : Table) : t.size = t.known.length := by
  rw [known_eq_listing, length_listing]
  rfl

/-- A wire is listed at most once. -/
theorem nodup_map_fst_known (t : Table) : (t.known.map (·.1)).Nodup :=
  List.pairwise_map.2 ((pairwise_known t).imp fun {p q} h he => by
    rw [show p.1 = q.1 from he] at h
    exact Nat.lt_irrefl _ h)

/-- The number of filled wires is the length of any list of them without repetition. -/
theorem size_eq_length {t : Table} {ws : List Wire} (hnd : ws.Nodup)
    (h : ∀ w, (t.get? w).isSome ↔ w ∈ ws) : t.size = ws.length := by
  have hm : ∀ w, w ∈ t.known.map (·.1) ↔ w ∈ ws := by
    intro w
    rw [← h, Option.isSome_iff_exists, List.mem_map]
    constructor
    · rintro ⟨⟨v, info⟩, hv, rfl⟩
      exact ⟨info, mem_known_iff.1 hv⟩
    · rintro ⟨info, hi⟩
      exact ⟨(w, info), mem_known_iff.2 hi, rfl⟩
  rw [size_eq_length_known, ← List.length_map Prod.fst]
  exact ((List.perm_ext_iff_of_nodup (nodup_map_fst_known t) hnd).2 hm).length_eq

theorem nodup_known (t : Table) : t.known.Nodup := (nodup_map_fst_known t).of_map

/-- The listing is, but for its order, any list without repetition of what the table knows. -/
theorem perm_known {t : Table} {ps : List (Wire × ValueInfo)} (hnd : ps.Nodup)
    (h : ∀ w info, t.get? w = some info ↔ (w, info) ∈ ps) : t.known.Perm ps := by
  refine (List.perm_ext_iff_of_nodup (nodup_known t) hnd).2 ?_
  rintro ⟨w, info⟩
  rw [mem_known_iff, h]

/-- Tables that know the same list the same, however many slots they have. -/
theorem known_congr {t t' : Table} (h : ∀ w, t.get? w = t'.get? w) : t.known = t'.known := by
  have hperm : t.known.Perm t'.known :=
    perm_known (nodup_known t') fun w info => by rw [h, mem_known_iff]
  refine hperm.eq_of_pairwise ?_ (pairwise_known t) (pairwise_known t')
  intro p q _ _ hpq hqp
  omega

/-- A table that has no more slots than there are wires lists what it knows. -/
theorem entries_of_size_le {t : Table} (h : t.slots.size ≤ Wire.limit) : t.entries = .ok t.known := by
  have hwires : ∀ n ∈ List.range t.slots.size, n < Wire.limit :=
    fun n hn => Nat.lt_of_lt_of_le (List.mem_range.1 hn) h
  have hlisted := filterMap_zip_eq_listing t.slots.toList 0
  rw [Array.length_toList, ← List.range_eq_range'] at hlisted
  rw [entries, Wire.mapM_ofIndex_of_lt hwires, known_eq_listing, ← hlisted]
  rfl

/-- The listing gets no further than the first slot without a wire. -/
theorem entries_of_lt_size {t : Table} (h : Wire.limit < t.slots.size) :
    t.entries = .error .wireOverflow := by
  rw [entries, Wire.mapM_ofIndex_of_mem (List.mem_range.2 h) (Nat.le_refl _)]
  rfl

/-! ### Filling a table from empty -/

section OfSize

variable {n : Nat} {pairs : List (Wire × ValueInfo)} {t : Table}

/-- An empty table, whatever its size, takes any wires that are distinct. -/
theorem exists_insertAll_ofSize (n : Nat) (hnd : (pairs.map (·.1)).Nodup) :
    ∃ t, (ofSize n).insertAll pairs = .ok t :=
  exists_insertAll hnd fun w _ => get?_ofSize n w

/-- The table is then the map of these pairs. -/
theorem get?_insertAll_ofSize_iff (h : (ofSize n).insertAll pairs = .ok t) {w : Wire}
    {info : ValueInfo} : t.get? w = some info ↔ (w, info) ∈ pairs := by
  constructor
  · intro hw
    by_cases hm : w ∈ pairs.map (·.1)
    · obtain ⟨p, hp, rfl⟩ := List.mem_map.1 hm
      rw [get?_of_mem_insertAll h hp] at hw
      obtain rfl := Option.some.inj hw
      exact hp
    · rw [get?_insertAll_of_not_mem h hm, get?_ofSize] at hw
      cases hw
  · exact get?_of_mem_insertAll h

theorem perm_known_insertAll_ofSize (h : (ofSize n).insertAll pairs = .ok t) :
    t.known.Perm pairs :=
  perm_known (free_of_insertAll h).1.of_map fun _ _ => get?_insertAll_ofSize_iff h

theorem size_insertAll_ofSize (h : (ofSize n).insertAll pairs = .ok t) :
    t.size = pairs.length := by
  rw [size_eq_length_known, (perm_known_insertAll_ofSize h).length_eq]

/-- The table has slots within the wires if it started so, and then it can be listed. -/
theorem entries_insertAll_ofSize (h : (ofSize n).insertAll pairs = .ok t) (hn : n ≤ Wire.limit)
    (hb : ∀ p ∈ pairs, p.1.index < Wire.limit) : t.entries = .ok t.known := by
  have hstart : (ofSize n).slots.size ≤ Wire.limit := by rwa [ofSize, Array.size_replicate]
  exact entries_of_size_le (size_slots_insertAll_le h hstart hb)

/-- Slots past the wires to begin with are never given up. -/
theorem entries_insertAll_ofSize_of_lt (h : (ofSize n).insertAll pairs = .ok t)
    (hn : Wire.limit < n) : t.entries = .error .wireOverflow := by
  have hstart : Wire.limit < (ofSize n).slots.size := by rwa [ofSize, Array.size_replicate]
  exact entries_of_lt_size (Nat.lt_of_lt_of_le hstart (le_size_slots_insertAll h))

/-- Neither the order of the pairs nor the number of slots to begin with can be seen. -/
theorem get?_insertAll_ofSize_congr {n' : Nat} {pairs' : List (Wire × ValueInfo)} {t' : Table}
    (hp : pairs.Perm pairs') (h : (ofSize n).insertAll pairs = .ok t)
    (h' : (ofSize n').insertAll pairs' = .ok t') (w : Wire) : t.get? w = t'.get? w := by
  ext info
  rw [get?_insertAll_ofSize_iff h, get?_insertAll_ofSize_iff h', hp.mem_iff]

/-- The first wire that comes again stops the filling. -/
theorem insertAll_ofSize_twice (n : Nat) (hnd : (pairs.map (·.1)).Nodup) {p : Wire × ValueInfo}
    (hp : p.1 ∈ pairs.map (·.1)) (after : List (Wire × ValueInfo)) :
    (ofSize n).insertAll (pairs ++ p :: after) = .error (.producedTwice p.1.index) := by
  obtain ⟨t, h⟩ := exists_insertAll_ofSize n hnd
  obtain ⟨q, hq, he⟩ := List.mem_map.1 hp
  have hfilled : t.get? p.1 = some q.2 := he ▸ get?_of_mem_insertAll h hq
  have hcons : t.insertAll (p :: after) = t.insert p.1 p.2 >>= fun t => t.insertAll after :=
    List.foldlM_cons
  rw [insertAll_append_of_ok h, hcons, insert_of_get?_some hfilled]
  rfl

end OfSize

/-- FINITE MAP: distinct wires can be filled in any order, in a table that starts with any number of empty
    slots, below or above the wires. The table then knows the pairs that it was given and nothing else,
    and counts them. If it starts with no more slots than there are wires it lists the pairs by number,
    and if it starts with more its listing faults. Tables that start with different numbers of slots and
    are given the same pairs in different orders cannot be told apart, but by such a fault. A wire that
    comes again faults. -/
theorem insertAll_finite_map :
    (∀ (n : Nat) (pairs : List (Wire × ValueInfo)), (pairs.map (·.1)).Nodup →
      ∃ t, (ofSize n).insertAll pairs = .ok t ∧
        (∀ p ∈ pairs, t.get? p.1 = some p.2) ∧
        (∀ w, w ∉ pairs.map (·.1) → t.get? w = none) ∧
        t.size = pairs.length ∧
        (t.isEmpty = true ↔ pairs = []) ∧
        (n ≤ Wire.limit → (∀ p ∈ pairs, p.1.index < Wire.limit) →
          ∃ listed, t.entries = .ok listed ∧ listed.Perm pairs ∧
            listed.Pairwise fun p q => p.1.index < q.1.index) ∧
        (Wire.limit < n → t.entries = .error .wireOverflow)) ∧
    (∀ (n n' : Nat) (pairs pairs' : List (Wire × ValueInfo)) (t t' : Table),
      pairs.Perm pairs' → (ofSize n).insertAll pairs = .ok t →
      (ofSize n').insertAll pairs' = .ok t' →
        (∀ w, t.get? w = t'.get? w) ∧ t.size = t'.size ∧ t.isEmpty = t'.isEmpty ∧
        ((∀ p ∈ pairs, p.1.index < Wire.limit) → n ≤ Wire.limit → n' ≤ Wire.limit →
          t.entries = t'.entries)) ∧
    ∀ (n : Nat) (before : List (Wire × ValueInfo)) (p : Wire × ValueInfo)
      (after : List (Wire × ValueInfo)), (before.map (·.1)).Nodup → p.1 ∈ before.map (·.1) →
        (ofSize n).insertAll (before ++ p :: after) = .error (.producedTwice p.1.index) := by
  refine ⟨?_, ?_, ?_⟩
  · intro n pairs hnd
    obtain ⟨t, h⟩ := exists_insertAll_ofSize n hnd
    have hsize := size_insertAll_ofSize h
    refine ⟨t, h, fun p hp => get?_of_mem_insertAll h hp, ?_, hsize, ?_, fun hn hb => ?_,
      entries_insertAll_ofSize_of_lt h⟩
    · intro w hw
      rw [get?_insertAll_of_not_mem h hw, get?_ofSize]
    · rw [isEmpty, beq_iff_eq, hsize, List.length_eq_zero_iff]
    · exact ⟨t.known, entries_insertAll_ofSize h hn hb, perm_known_insertAll_ofSize h,
        pairwise_known t⟩
  · intro n n' pairs pairs' t t' hp h h'
    have hget : ∀ w, t.get? w = t'.get? w := get?_insertAll_ofSize_congr hp h h'
    have hknown : t.known = t'.known := known_congr hget
    have hsize : t.size = t'.size := by
      rw [size_eq_length_known, size_eq_length_known, hknown]
    refine ⟨hget, hsize, by rw [isEmpty, isEmpty, hsize], fun hb hn hn' => ?_⟩
    have hb' : ∀ p ∈ pairs', p.1.index < Wire.limit := fun p hm => hb p (hp.mem_iff.2 hm)
    rw [entries_insertAll_ofSize h hn hb, entries_insertAll_ofSize h' hn' hb', hknown]
  · intro n before p after hnd hp
    exact insertAll_ofSize_twice n hnd hp after

/-- Three wires filled out of order, one of them past the two slots that there are. -/
def scattered : List (Wire × ValueInfo) :=
  [(⟨4⟩, .scalar 5 .int64), (⟨1⟩, .tensor [2, 3] none), (⟨0⟩, .absent)]

theorem insertAll_finite_map_scattered :
    (∃ t, (ofSize 2).insertAll scattered = .ok t ∧ t.size = 3 ∧ t.get? ⟨4⟩ = some (.scalar 5 .int64) ∧
      t.get? ⟨2⟩ = none ∧ t.entries = .ok scattered.reverse ∧
      ∃ t', (ofSize 0).insertAll scattered.reverse = .ok t' ∧ t.entries = t'.entries) ∧
    (∃ t, (ofSize (Wire.limit + 1)).insertAll scattered = .ok t ∧ t.size = 3 ∧
      t.entries = .error .wireOverflow) ∧
    (ofSize 2).insertAll (scattered ++ [(⟨1⟩, .absent)]) = .error (.producedTwice 1) := by
  obtain ⟨hmap, hsame, htwice⟩ := insertAll_finite_map
  have hnd : (scattered.map (·.1)).Nodup := by decide
  have hwires : ∀ p ∈ scattered, p.1.index < Wire.limit := by decide
  obtain ⟨t, h, hget, hnone, hsize, -, hlisted, -⟩ := hmap 2 scattered hnd
  obtain ⟨t', h', -⟩ := hmap 0 scattered.reverse (by decide)
  obtain ⟨-, -, -, hentries⟩ := hsame 2 0 _ _ t t' scattered.reverse_perm.symm h h'
  obtain ⟨large, hlarge, -, -, hcount, -, -, hfault⟩ := hmap (Wire.limit + 1) scattered hnd
  refine ⟨⟨t, h, hsize, hget (⟨4⟩, .scalar 5 .int64) (.head _), hnone ⟨2⟩ (by decide), ?_, t', h',
    hentries hwires (by decide) (by decide)⟩, ⟨large, hlarge, hcount, hfault (Nat.lt_succ_self _)⟩,
    htwice 2 scattered (⟨1⟩, .absent) [] hnd (by decide)⟩
  cases h
  rfl

/-- One pair in a table that starts with a slot more than there are wires: it is known and counted, as
    in a table that starts with no slots, but only the latter can be listed. -/
theorem entries_past_limit :
    Wire.limit + 1 = 4294967296 ∧
    ∃ t t', (ofSize (Wire.limit + 1)).insertAll [(⟨1⟩, .tensor [2, 3] none)] = .ok t ∧
      (ofSize 0).insertAll [(⟨1⟩, .tensor [2, 3] none)] = .ok t' ∧
      (∀ w, t.get? w = t'.get? w) ∧ t.size = 1 ∧ t'.entries = .ok [(⟨1⟩, .tensor [2, 3] none)] ∧
      t.entries = .error .wireOverflow ∧ ∀ listed, t.entries ≠ .ok listed := by
  have hnd : ([(⟨1⟩, .tensor [2, 3] none)].map fun p : Wire × ValueInfo => p.1).Nodup :=
    List.nodup_singleton _
  obtain ⟨t, h⟩ := exists_insertAll_ofSize (Wire.limit + 1) hnd
  obtain ⟨t', h'⟩ := exists_insertAll_ofSize 0 hnd
  have hfault : t.entries = .error .wireOverflow :=
    entries_insertAll_ofSize_of_lt h (Nat.lt_succ_self _)
  refine ⟨rfl, t, t', h, h', get?_insertAll_ofSize_congr (.refl _) h h', size_insertAll_ofSize h, ?_,
    hfault, fun listed hl => ?_⟩
  · cases h'
    rfl
  · rw [hfault] at hl
    cases hl

end ShapeFlow.Table
