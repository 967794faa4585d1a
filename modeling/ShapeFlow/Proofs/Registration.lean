import ShapeFlow.Proofs.Evaluation
import ShapeFlow.Proofs.Keyed
import ShapeFlow.Proofs.Layers
import Mathlib.Data.Finset.Card

/-! What a change to the book can do. Writing under an identity changes the rule of that identity and no
    other, so after any number of registrations the last one under an identity is found there and the
    book holds each identity once. A run looks up the identities of the plain nodes that it evaluates
    and nothing else: the identity of a fused node is compared with the mark and never looked up. So
    books that agree on the identities of plain nodes run alike. -/

namespace ShapeFlow

/-! ### Registrations -/

/-- A call that changes a book. An operator is registered by how its rule is read off a node, anything
    else by its shape function. -/
inductive Registration where
  | reader (op : String) (read : CallSite → Outcome (List ValueInfo → Outcome (List ValueInfo)))
  | fn (op : String) (shapeFn : ShapeFn)

namespace Registration

/-- The identity written under. -/
def op : Registration → String
  | reader op _ => op
  | fn op _ => op

/-- The shape function written: one that is read off the node is then applied. -/
def shapeFn : Registration → ShapeFn
  | reader _ read => fun inputs site => do
    let infer ← read site
    infer inputs
  | fn _ shapeFn => shapeFn

/-- The registration of a built-in rule. -/
def ofKind (op : String) (kind : Rule.Kind) : Registration :=
  reader op fun site => (kind.ruleAt site).map Rule.infer

theorem shapeFn_ofKind (op : String) (kind : Rule.Kind) :
    (ofKind op kind).shapeFn = kind.shapeFn := by
  funext inputs site
  show ((kind.ruleAt site).map Rule.infer >>= fun infer => infer inputs) = _
  rw [Rule.Kind.shapeFn]
  cases kind.ruleAt site <;> rfl

end Registration

namespace RuleBook

/-- The book after some registrations, from the left. -/
def registerAll (book : RuleBook) (calls : List Registration) : RuleBook :=
  book.setAll (calls.map fun r => (r.op, r.shapeFn))

/-- The built-in book comes of registering the built-in rules. -/
theorem builtin_eq_registerAll :
    builtin = registerAll .empty (builtinKinds.map fun p => .ofKind p.1 p.2) := by
  have hpairs : builtinKinds.map (fun p => (p.1, p.2.shapeFn))
      = (builtinKinds.map fun p => Registration.ofKind p.1 p.2).map fun r => (r.op, r.shapeFn) := by
    rw [List.map_map]
    exact List.map_congr_left fun p _ => Prod.ext rfl (Registration.shapeFn_ofKind p.1 p.2).symm
  rw [builtin, registerAll, hpairs]

variable {book book' : RuleBook} {calls : List Registration} {op : String}

theorem mem_names_registerAll :
    op ∈ (book.registerAll calls).names ↔ op ∈ book.names ∨ ∃ r ∈ calls, r.op = op := by
  rw [registerAll, Keyed.mem_names_setAll]
  simp

/-- A book that holds each identity once does so after registrations. -/
theorem nodup_names_registerAll (h : book.names.Nodup) : (book.registerAll calls).names.Nodup :=
  Keyed.nodup_names_setAll h

theorem nodup_names_builtin : builtin.names.Nodup := by
  rw [builtin_eq_registerAll]
  exact nodup_names_registerAll List.nodup_nil

theorem get?_registerAll_of_last {before after : List Registration} {r : Registration}
    (h : ∀ s ∈ after, s.op ≠ r.op) :
    (book.registerAll (before ++ r :: after)).get? r.op = some r.shapeFn := by
  rw [registerAll, List.map_append, List.map_cons]
  exact Keyed.get?_setAll_of_last (p := (r.op, r.shapeFn)) (by simpa using h)

theorem get?_registerAll_of_ne (h : ∀ r ∈ calls, r.op ≠ op) :
    (book.registerAll calls).get? op = book.get? op :=
  Keyed.get?_setAll_of_ne (by simpa using h)

/-- The size of a book is the number of identities that ever came. -/
theorem size_registerAll (h : book.names.Nodup) :
    (book.registerAll calls).size = (book.names ++ calls.map (·.op)).toFinset.card := by
  rw [Keyed.size_eq_length_names, ← List.toFinset_card_of_nodup (nodup_names_registerAll h)]
  congr 1
  ext op
  simp [mem_names_registerAll]

end RuleBook

/-! ### Runs under two books -/

/-- Books that agree on the operators of plain nodes run alike. -/
theorem Graph.infer_congr_book {book book' : RuleBook} {g : Graph}
    (h : ∀ op, g.Uses op → book.get? op = book'.get? op) (options : Options)
    (inputs : List RuntimeInput) :
    g.infer ⟨book, options⟩ inputs = g.infer ⟨book', options⟩ inputs := by
  have hreport : Run.report ⟨book, options⟩ g inputs = Run.report ⟨book', options⟩ g inputs := by
    refine Run.report_congr fun n given he => ?_
    obtain ⟨k, hk, hn⟩ := he.exists_holds
    rw [Setup.AgreeAt]
    split
    · next attrs hb =>
      have hbook := h n.op ⟨k, hk, n, hn, by simp [Node.inner?, hb], rfl⟩
      rw [Walk.applyRule, Walk.applyRule, show n.label.op = n.op from rfl, hbook]
    · rfl
  rw [Graph.infer, Graph.infer, hreport]

/-- CONSERVATIVE: after any registrations the last one under an identity is found there, other
    identities keep what they have, and the size of a book that held each identity once is the number
    of identities that ever came. Two books that agree on the operators of plain nodes, at any depth,
    give the same run; so registrations under other identities, those of fused nodes among them,
    change nothing. -/
theorem Graph.infer_registered :
    (∀ (book : RuleBook) (calls : List Registration),
      (∀ before r after, calls = before ++ r :: after → (∀ s ∈ after, s.op ≠ r.op) →
        (book.registerAll calls).get? r.op = some r.shapeFn) ∧
      (∀ op, (∀ r ∈ calls, r.op ≠ op) → (book.registerAll calls).get? op = book.get? op) ∧
      (∀ op, ((book.registerAll calls).get? op).isSome ↔
        op ∈ book.names ∨ ∃ r ∈ calls, r.op = op) ∧
      (book.names.Nodup →
        (book.registerAll calls).size = (book.names ++ calls.map (·.op)).toFinset.card)) ∧
    (∀ (book book' : RuleBook) (g : Graph) (options : Options) (inputs : List RuntimeInput),
      (∀ op, g.Uses op → book.get? op = book'.get? op) →
        g.infer ⟨book, options⟩ inputs = g.infer ⟨book', options⟩ inputs) ∧
    ∀ (book : RuleBook) (calls : List Registration) (g : Graph) (options : Options)
      (inputs : List RuntimeInput), (∀ r ∈ calls, ¬ g.Uses r.op) →
        g.infer ⟨book.registerAll calls, options⟩ inputs = g.infer ⟨book, options⟩ inputs := by
  refine ⟨fun book calls => ⟨?_, ?_, ?_, RuleBook.size_registerAll⟩, ?_, ?_⟩
  · rintro before r after rfl hlast
    exact RuleBook.get?_registerAll_of_last hlast
  · exact fun op hne => RuleBook.get?_registerAll_of_ne hne
  · intro op
    rw [Keyed.isSome_get?_iff, RuleBook.mem_names_registerAll]
  · exact fun book book' g options inputs h => Graph.infer_congr_book h options inputs
  · intro book calls g options inputs h
    refine Graph.infer_congr_book (fun op hop => ?_) options inputs
    refine RuleBook.get?_registerAll_of_ne fun r hr he => h r hr ?_
    rw [he]
    exact hop

/-! ### Registrations that a run does not notice -/

/-- The operator of a fused node, twice, and an operator with another rule than it had. -/
def strayCalls : List Registration :=
  [.fn "glow::FusionGroup" fun _ _ => pure [], .ofKind "aten::tanh" .reshape,
    .fn "glow::FusionGroup" fun given _ => pure given]

/-- A fused operator around `aten::relu`, under the built-in book, under one that knows nothing else,
    and under the built-in one after registrations that it does not use. -/
theorem Graph.infer_registered_layered :
    (RuleBook.builtin.registerAll strayCalls).get? "glow::FusionGroup"
        = some (fun given _ => pure given) ∧
      (RuleBook.builtin.registerAll strayCalls).get? "aten::add" = RuleBook.builtin.get? "aten::add" ∧
      (RuleBook.builtin.registerAll strayCalls).size
        = (RuleBook.builtin.names ++ strayCalls.map (·.op)).toFinset.card ∧
      (RuleBook.builtin.registerAll strayCalls).size = 31 ∧
      (layered "glow::FusionGroup" "f" (singleGraph "aten::relu")).infer
          ⟨.registerAll .empty [.ofKind "aten::relu" .unary], .default⟩ [.tensor [2] .float]
        = (layered "glow::FusionGroup" "f" (singleGraph "aten::relu")).infer
          ⟨.builtin, .default⟩ [.tensor [2] .float] ∧
      (layered "glow::FusionGroup" "f" (singleGraph "aten::relu")).infer
          ⟨RuleBook.builtin.registerAll strayCalls, .default⟩ [.tensor [2] .float]
        = (layered "glow::FusionGroup" "f" (singleGraph "aten::relu")).infer
          ⟨.builtin, .default⟩ [.tensor [2] .float] := by
  obtain ⟨hbook, hagree, hstray⟩ := Graph.infer_registered
  obtain ⟨hlast, hother, -, hsize⟩ := hbook .builtin strayCalls
  refine ⟨hlast [_, _] (.fn "glow::FusionGroup" fun given _ => pure given) [] rfl (by simp),
    hother "aten::add" (by decide), hsize RuleBook.nodup_names_builtin, rfl, ?_, ?_⟩
  · refine hagree _ _ _ _ _ fun op hop => ?_
    obtain ⟨n, hn, hp, rfl⟩ := Graph.uses_iff.1 hop
    have honly : ∀ n ∈ (layered "glow::FusionGroup" "f" (singleGraph "aten::relu")).allNodes,
        n.inner?.isNone → n.op = "aten::relu" := by decide
    rw [honly n hn hp]
    exact congrArg some (Registration.shapeFn_ofKind "aten::relu" .unary)
  · exact hstray _ _ _ _ _ (by decide)

end ShapeFlow
