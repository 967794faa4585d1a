import ShapeFlow.Proofs.Failure

/-! What a run records. A run goes through the nodes of its graph in order, and where it comes to a fused
    node it goes through the graph held there before it goes on; a plain node leaves one record and a
    fused one two, around those of its graph. So the records of a run that succeeds are the traversal
    of the graph, and those of a run that fails are the traversal cut short at the site of the failure,
    with the graphs on the way down still open. The path of the error has a name for each of these
    and one more. -/

namespace ShapeFlow

/-! ### Traversals -/

/-- A record without the values in it. -/
def Event.outline : Event → Event
  | .inferred op _ _ => .inferred op [] []
  | event => event

mutual

/-- The records of a node with the operator, below how many graphs. -/
def Body.traversal (depth : Nat) (op : String) : Body → List Event
  | .plain _ => [.inferred op [] []]
  | .fused inner =>
    .entered op (depth + 1) inner.nodes.length :: (inner.traversal (depth + 1) ++ [.left op])
termination_by structural body => body

def Node.traversal (depth : Nat) : Node → List Event
  | ⟨op, _, _, _, body⟩ => body.traversal depth op
termination_by structural node => node

/-- The records of nodes from the left. -/
def traversalOf (depth : Nat) : List Node → List Event
  | [] => []
  | node :: rest => node.traversal depth ++ traversalOf depth rest
termination_by structural nodes => nodes

/-- The records of a graph that is gone through, below how many others. -/
def Graph.traversal (depth : Nat) : Graph → List Event
  | ⟨_, nodes, _, _⟩ => traversalOf depth nodes
termination_by structural graph => graph

end

/-- The error is over the outputs of a node, which has been worked out when it arises. -/
def InferenceError.overOutputs : InferenceError → Bool
  | tooManyOutputs _ _ _ => true
  | innerOutputs _ _ _ => true
  | _ => false

/-- The traversal of a graph cut short at a site: the nodes before it are behind, and so is the node
    there if it is `worked` out; the graphs on the way down are entered and not left. -/
def Site.traversal (worked : Bool) : Nat → Graph → Site → List Event
  | _, _, .input _ => []
  | _, _, .count => []
  | depth, g, .node position =>
    traversalOf depth (g.nodes.take (if worked then position + 1 else position))
  | depth, g, .inside position site =>
    traversalOf depth (g.nodes.take position) ++
      match g.nodes[position]? with
      | some ⟨op, _, _, _, .fused inner⟩ =>
        .entered op (depth + 1) inner.nodes.length :: site.traversal worked (depth + 1) inner
      | _ => []

theorem traversalOf_append (depth : Nat) (as bs : List Node) :
    traversalOf depth (as ++ bs) = traversalOf depth as ++ traversalOf depth bs := by
  induction as with
  | nil => rfl
  | cons n as ih => rw [List.cons_append, traversalOf, traversalOf, ih, List.append_assoc]

theorem Graph.traversal_eq (depth : Nat) (g : Graph) :
    g.traversal depth = traversalOf depth g.nodes := by
  cases g
  rfl

theorem Node.traversal_eq (depth : Nat) (n : Node) :
    n.traversal depth = n.body.traversal depth n.op := by
  cases n
  rfl

/-- A traversal that is cut short is a first part of the whole. -/
theorem Site.traversal_prefix (worked : Bool) (depth : Nat) (g : Graph) (site : Site) :
    site.traversal worked depth g <+: g.traversal depth := by
  have htake : ∀ (depth : Nat) (g : Graph) (i : Nat),
      traversalOf depth (g.nodes.take i) <+: g.traversal depth := fun depth g i => by
    rw [Graph.traversal_eq]
    nth_rewrite 2 [← List.take_append_drop i g.nodes]
    rw [traversalOf_append]
    exact List.prefix_append _ _
  induction site generalizing depth g with
  | input => exact List.nil_prefix
  | count => exact List.nil_prefix
  | node position => exact htake depth g _
  | inside position site ih =>
    rw [Site.traversal]
    split
    · next op name ins outs inner hn =>
      -- the whole traversal goes on with the same node, whose graph the shorter one breaks off in
      obtain ⟨hlt, hat⟩ := List.getElem?_eq_some_iff.1 hn
      have hsplit : g.nodes = g.nodes.take position
          ++ ⟨op, name, ins, outs, .fused inner⟩ :: g.nodes.drop (position + 1) := by
        rw [← hat, ← List.drop_eq_getElem_cons hlt, List.take_append_drop]
      rw [Graph.traversal_eq]
      nth_rewrite 2 [hsplit]
      rw [traversalOf_append, List.prefix_append_right_inj, traversalOf, Node.traversal,
        Body.traversal, List.cons_append, List.prefix_cons_inj, List.append_assoc]
      exact (ih (depth + 1) inner).trans (List.prefix_append _ _)
    · rw [List.append_nil]
      exact htake depth g position

/-! ### Open graphs -/

/-- The operators of the graphs that are open after a record, innermost first, unless the record is out
    of place: a graph is entered one deeper than there are graphs open, and only the innermost one
    is left. -/
def Event.nest (ops : List String) : Event → Option (List String)
  | .entered op depth _ => if depth = ops.length + 1 then some (op :: ops) else none
  | .left op => if ops.head? = some op then some ops.tail else none
  | _ => some ops

/-- A graph is entered. -/
def Event.enters : Event → Bool
  | .entered _ _ _ => true
  | _ => false

/-- A graph is left. -/
def Event.leaves : Event → Bool
  | .left _ => true
  | _ => false

theorem Event.nest_outline (ops : List String) (event : Event) :
    event.outline.nest ops = event.nest ops := by
  cases event <;> rfl

theorem Event.foldlM_nest_outline (events : List Event) (ops : List String) :
    (events.map outline).foldlM nest ops = events.foldlM nest ops := by
  rw [List.foldlM_map]
  simp only [nest_outline]

/-- One more graph is open after a record that enters one, and one less after a record that leaves
    one. -/
theorem Event.length_nest {event : Event} {ops ops' : List String}
    (h : event.nest ops = some ops') :
    ops.length + (if event.enters then 1 else 0) = ops'.length + if event.leaves then 1 else 0 := by
  cases event with
  | entered op depth nodes =>
    rw [nest, Option.ite_none_right_eq_some] at h
    obtain rfl := Option.some.inj h.2
    simp [enters, leaves]
  | left op =>
    rw [nest, Option.ite_none_right_eq_some] at h
    obtain ⟨hop, hops⟩ := h
    obtain rfl := Option.some.inj hops
    cases ops with
    | nil => cases hop -- nothing is left where no graph is open
    | cons => simp [enters, leaves]
  | _ =>
    obtain rfl := Option.some.inj h
    rfl

/-- Each graph that is open has been entered and not left. -/
theorem Event.countP_enters {events : List Event} {ops ops' : List String}
    (h : events.foldlM nest ops = some ops') :
    ops.length + events.countP enters = ops'.length + events.countP leaves := by
  induction events generalizing ops with
  | nil =>
    obtain rfl := Option.some.inj h
    rfl
  | cons event events ih =>
    rw [List.foldlM_cons] at h
    obtain ⟨ops₁, hstep, hrest⟩ := Option.bind_eq_some_iff.1 h
    have hhead := Event.length_nest hstep
    have htail := ih hrest
    rw [List.countP_cons, List.countP_cons]
    omega

mutual

theorem Body.nest_traversal (op : String) (ops : List String) : ∀ body : Body,
    (body.traversal ops.length op).foldlM Event.nest ops = some ops
  | .plain _ => rfl
  | .fused inner => by
    have hinner : (inner.traversal (ops.length + 1)).foldlM Event.nest (op :: ops)
        = some (op :: ops) := Graph.nest_traversal (op :: ops) inner
    rw [Body.traversal, List.foldlM_cons, Event.nest, if_pos rfl]
    simp [hinner, Event.nest]

theorem Node.nest_traversal (ops : List String) : ∀ n : Node,
    (n.traversal ops.length).foldlM Event.nest ops = some ops
  | ⟨op, _, _, _, body⟩ => Body.nest_traversal op ops body

theorem nest_traversalOf (ops : List String) : ∀ nodes : List Node,
    (traversalOf ops.length nodes).foldlM Event.nest ops = some ops
  | [] => rfl
  | n :: nodes => by
    rw [traversalOf, List.foldlM_append, Node.nest_traversal ops n]
    exact nest_traversalOf ops nodes

/-- A traversal leaves all graphs that it enters, each where it is the innermost. -/
theorem Graph.nest_traversal (ops : List String) : ∀ g : Graph,
    (g.traversal ops.length).foldlM Event.nest ops = some ops
  | ⟨_, nodes, _, _⟩ => nest_traversalOf ops nodes

end

mutual

theorem Body.debug_traversal (depth : Nat) (op : String) : ∀ body : Body,
    ∀ event ∈ body.traversal depth op, event.level = .debug
  | .plain _ => by simp [Body.traversal, Event.level]
  | .fused inner => by
    have hinner := Graph.debug_traversal (depth + 1) inner
    intro event he
    simp only [Body.traversal, List.mem_cons, List.mem_append, List.not_mem_nil, or_false] at he
    rcases he with rfl | he | rfl
    · rfl
    · exact hinner event he
    · rfl

theorem Node.debug_traversal (depth : Nat) : ∀ n : Node,
    ∀ event ∈ n.traversal depth, event.level = .debug
  | ⟨op, _, _, _, body⟩ => Body.debug_traversal depth op body

theorem debug_traversalOf (depth : Nat) : ∀ nodes : List Node,
    ∀ event ∈ traversalOf depth nodes, event.level = .debug
  | [] => nofun
  | n :: nodes => by
    intro event he
    rcases List.mem_append.1 he with he | he
    · exact Node.debug_traversal depth n event he
    · exact debug_traversalOf depth nodes event he

/-- All records of a traversal are for debugging. -/
theorem Graph.debug_traversal (depth : Nat) : ∀ g : Graph,
    ∀ event ∈ g.traversal depth, event.level = .debug
  | ⟨_, nodes, _, _⟩ => debug_traversalOf depth nodes

end

/-- Records that outline a part of a traversal are all for debugging. -/
theorem Event.debug_of_prefix {events : List Event} {depth : Nat} {g : Graph}
    (h : events.map outline <+: g.traversal depth) : ∀ event ∈ events, event.level = .debug := by
  intro event he
  have hlevel : event.outline.level = event.level := by cases event <;> rfl
  rw [← hlevel]
  exact g.debug_traversal depth _ (h.subset (List.mem_map_of_mem he))

/-! ### Wording -/

/-- The text of the record is that of an operator with what it is given and what it makes, of a graph
    that is entered, or of one that is left. -/
def Event.Told (event : Event) : Prop :=
  (∃ op given made, event = .inferred op given made ∧
    event.message = op ++ " (" ++ ", ".intercalate (given.map ValueInfo.text) ++ ") -> ("
      ++ ", ".intercalate (made.map ValueInfo.text) ++ ")") ∨
  (∃ op depth nodes, event = .entered op depth nodes ∧
    event.message = "Entering subgraph of " ++ op ++ " at depth " ++ toString depth ++ " with "
      ++ toString nodes ++ " nodes") ∨
  ∃ op, event = .left op ∧ event.message = "Leaving subgraph of " ++ op

/-- Records for debugging tell of operators and of graphs. -/
theorem Event.told_of_debug {event : Event} (h : event.level = .debug) : event.Told := by
  cases event with
  | inferred op given made => exact .inl ⟨op, given, made, rfl, rfl⟩
  | entered op depth nodes => exact .inr (.inl ⟨op, depth, nodes, rfl, rfl⟩)
  | left op => exact .inr (.inr ⟨op, rfl, rfl⟩)
  | dumped text => cases h
  | badFlag text => cases h

/-- Records that outline a part of a traversal are for debugging, and tell of it. -/
theorem Event.told_of_prefix {events : List Event} {depth : Nat} {g : Graph}
    (h : events.map outline <+: g.traversal depth) :
    ∀ event ∈ events, event.level = .debug ∧ event.Told := by
  intro event he
  have hdebug := Event.debug_of_prefix h event he
  exact ⟨hdebug, Event.told_of_debug hdebug⟩

/-- The text of a report has one line for each entry: the name of the value or its number, and its
    sizes. -/
theorem Report.text_eq (r : Report) :
    r.text = String.join (r.entries.map fun (w, info) =>
      (r.graph.valueName? w).getD ("%" ++ toString w.index) ++ ": "
        ++ (match info.extent with
          | .tensor dims => "[" ++ " ".intercalate (dims.map toString) ++ "]"
          | .list shapes => "[" ++ " ".intercalate (shapes.map fun dims =>
              "[" ++ " ".intercalate (dims.map toString) ++ "]") ++ "]")
        ++ "\n") := by
  refine congrArg String.join (List.map_congr_left ?_)
  rintro ⟨w, info⟩ -
  have hname : nameText r.graph w = (r.graph.valueName? w).getD ("%" ++ toString w.index) := by
    rw [nameText]
    cases r.graph.valueName? w <;> rfl
  simp only [hname]
  cases info.extent <;> rfl

/-! ### Records of walks -/

namespace Walk

@[simp] theorem events_start (count : Nat) (inputs : List Wire) (given : List ValueInfo) :
    (start count inputs given).events = [] := by
  rw [start]
  split
  · exact Traced.events_ofFault _
  · rfl

@[simp] theorem events_seeds (setup : Setup) (node : Label) (given : List ValueInfo) :
    (seeds setup node given).events = [] := by
  rw [seeds]
  split
  · split <;> rfl
  · rfl

@[simp] theorem events_collect (node : Label) (asked : List Wire) (count : Nat) (t : Table) :
    (collect node asked count t).events = [] := by
  rw [collect]
  split
  · exact Traced.events_ofFault _
  · rfl

@[simp] theorem events_store (node : Label) (outputs : List Wire) (made : List ValueInfo)
    (t : Table) : (store node outputs made t).events = [] := by
  rw [store]
  split
  · rfl
  · exact Traced.events_ofFault _

/-- A rule that works out leaves one record, and one that does not leaves none. -/
theorem events_applyRule (setup : Setup) (node : Label) (attrs : Attributes) (count : Nat)
    (given : List ValueInfo) :
    (applyRule setup node attrs count given).events
      = match (applyRule setup node attrs count given).outcome with
        | .ok made => [.inferred node.op given made]
        | .error _ => [] := by
  rw [applyRule]
  split
  · rfl
  · split <;> rfl

/-- No rule reports the outputs of its node. -/
theorem overOutputs_of_applyRule {setup : Setup} {node : Label} {attrs : Attributes} {count : Nat}
    {given : List ValueInfo} {error : InferenceError}
    (h : (applyRule setup node attrs count given).outcome = .error (.failed error)) :
    error.overOutputs = false := by
  obtain rfl | ⟨cause, rfl⟩ := applyRule_failed h <;> rfl

end Walk

section

variable {setup : Setup}

mutual

/-- A node that is worked out leaves the records of its traversal. -/
theorem Body.events_make (depth : Nat) (node : Label) (count : Nat) : ∀ (body : Body)
    {given made : List ValueInfo}, (body.make setup depth node count given).outcome = .ok made →
      (body.make setup depth node count given).events.map Event.outline
        = body.traversal depth node.op
  | .plain attrs, given, made, h => by
    have hrule : (Walk.applyRule setup node attrs count given).outcome = .ok made := h
    have hevents := Walk.events_applyRule setup node attrs count given
    rw [hrule] at hevents
    rw [Body.make, hevents]
    rfl
  | .fused inner, given, made, h => by
    obtain ⟨seeds, hs, h⟩ := Traced.bind_ok_iff.1 h
    rw [Traced.outcome_emit_bind] at h
    obtain ⟨t, ht, h⟩ := Traced.bind_ok_iff.1 h
    have hwalk := Graph.events_walk (depth + 1) inner (Traced.outcome_inside_eq_ok_iff.1 ht)
    rw [Body.make, Traced.events_bind_of_ok hs, Traced.events_emit_bind,
      Traced.events_bind_of_ok ht]
    simp [hwalk, Body.traversal, Event.outline]

theorem Node.events_visit (depth : Nat) : ∀ (n : Node) {t t' : Table},
    (n.visit setup depth t).outcome = .ok t' →
      (n.visit setup depth t).events.map Event.outline = n.traversal depth
  | ⟨op, name, inputs, outputs, body⟩, t, t', h => by
    obtain ⟨given, hg, h⟩ := Traced.bind_ok_iff.1 h
    obtain ⟨made, hm, hs⟩ := Traced.bind_ok_iff.1 h
    have hmake := Body.events_make depth ⟨op, name⟩ outputs.length body hm
    rw [Node.visit, Traced.events_bind_of_ok hg, Traced.events_bind_of_ok hm]
    simpa [Node.traversal] using hmake

theorem events_walkNodes (depth : Nat) : ∀ (nodes : List Node) {t t' : Table},
    (walkNodes setup depth nodes t).outcome = .ok t' →
      (walkNodes setup depth nodes t).events.map Event.outline = traversalOf depth nodes
  | [], _, _, _ => rfl
  | n :: nodes, t, t', h => by
    obtain ⟨t₁, hv, hw⟩ := walkNodes_cons_ok_iff.1 h
    rw [walkNodes, Traced.events_bind_of_ok hv, List.map_append, Node.events_visit depth n hv,
      events_walkNodes depth nodes hw, traversalOf]

/-- A walk that finishes leaves the records of the traversal of its graph. -/
theorem Graph.events_walk (depth : Nat) : ∀ (g : Graph) {given : List ValueInfo} {t : Table},
    (g.walk setup depth given).outcome = .ok t →
      (g.walk setup depth given).events.map Event.outline = g.traversal depth
  | ⟨names, nodes, inputs, outputs⟩, given, t, h => by
    obtain ⟨t₀, hs, hw⟩ := Traced.bind_ok_iff.1 h
    rw [Graph.walk, Traced.events_bind_of_ok hs, Walk.events_start, List.nil_append,
      events_walkNodes depth nodes hw, Graph.traversal]

end

/-- What fails on the values read leaves no record, unless a graph with the wrong number of outputs has
    been gone through. -/
theorem Body.events_make_failed {depth : Nat} {node : Label} {count : Nat} {body : Body}
    {given : List ValueInfo} {error : InferenceError}
    (h : (body.make setup depth node count given).outcome = .error (.failed error))
    (hb : error.Bare) :
    (body.make setup depth node count given).events.map Event.outline
      = if error.overOutputs then body.traversal depth node.op else [] := by
  cases body with
  | plain attrs =>
    have hevents := Walk.events_applyRule setup node attrs count given
    have hrule : (Walk.applyRule setup node attrs count given).outcome
        = .error (.failed error) := h
    rw [hrule] at hevents
    rw [Body.make, hevents, if_neg (by simp [Walk.overOutputs_of_applyRule hrule])]
    rfl
  | fused inner =>
    rw [Body.make]
    rcases Traced.bind_error_iff.1 h with h | ⟨seeds, hs, h⟩
    · obtain ⟨cause, rfl⟩ := Walk.seeds_failed h
      rw [Traced.events_bind_of_error h, Walk.events_seeds]
      rfl
    rw [Traced.outcome_emit_bind] at h
    rcases Traced.bind_error_iff.1 h with h | ⟨t, ht, h⟩
    · -- what fails inside comes out wrapped
      obtain ⟨stop, -, he⟩ := Traced.inside_error_iff.1 h
      cases stop with
      | failed last => exact absurd (Stop.failed.inj he) (hb node last)
      | faulted fault => cases he
    · have hwalk := inner.events_walk (depth + 1) (Traced.outcome_inside_eq_ok_iff.1 ht)
      rw [Traced.outcome_emit_bind] at h
      rw [Walk.collect_failed h, Traced.events_bind_of_ok hs, Traced.events_emit_bind,
        Traced.events_bind_of_ok ht]
      simp [hwalk, Body.traversal, Event.outline, InferenceError.overOutputs]

/-- A visit that fails of itself leaves the records of its node if that has been worked out. -/
theorem Node.events_visit_failed {depth : Nat} {n : Node} {t : Table} {error : InferenceError}
    (h : (n.visit setup depth t).outcome = .error (.failed error)) (hb : error.Bare) :
    (n.visit setup depth t).events.map Event.outline
      = if error.overOutputs then n.traversal depth else [] := by
  obtain ⟨given, hr, hm | ⟨made, hm, -, rfl⟩⟩ := Node.visit_failed h
  · rw [Node.visit_eq, Node.traversal_eq, Traced.events_bind_of_ok (Traced.ofFault_ok_iff.2 hr),
      Traced.events_ofFault, List.nil_append, Traced.events_bind_of_error hm]
    exact Body.events_make_failed hm hb
  · rw [Node.visit_eq, Node.traversal_eq, Traced.events_bind_of_ok (Traced.ofFault_ok_iff.2 hr),
      Traced.events_ofFault, List.nil_append, Traced.events_bind_of_ok hm, Walk.events_store,
      List.append_nil]
    exact n.body.events_make depth n.label n.outputs.length hm

/-- The visit of a fused node whose graph stops leaves the graph open. -/
theorem Node.events_visit_of_walk {depth : Nat} {n : Node} {t : Table} {inner : Graph}
    {given seeds : List ValueInfo} {stop : Stop} (hb : n.body = .fused inner)
    (hr : t.readAll n.inputs = .ok given)
    (hs : (Walk.seeds setup n.label given).outcome = .ok seeds)
    (h : (inner.walk setup (depth + 1) seeds).outcome = .error stop) :
    (n.visit setup depth t).events
      = .entered n.op (depth + 1) inner.nodes.length
        :: (inner.walk setup (depth + 1) seeds).events := by
  have hinside : ((inner.walk setup (depth + 1) seeds).inside n.label).outcome
      = .error (stop.inside n.label) := Traced.inside_error_iff.2 ⟨stop, h, rfl⟩
  have hmake : ((Body.fused inner).make setup depth n.label n.outputs.length given).outcome
      = .error (stop.inside n.label) := by
    refine Traced.bind_error_iff.2 (.inr ⟨seeds, hs, ?_⟩)
    rw [Traced.outcome_emit_bind]
    exact Traced.bind_error_iff.2 (.inl hinside)
  rw [Node.visit_eq, Traced.events_bind_of_ok (Traced.ofFault_ok_iff.2 hr), hb,
    Traced.events_bind_of_error hmake, Body.make, Traced.events_bind_of_ok hs,
    Traced.events_emit_bind, Traced.events_bind_of_error hinside, Walk.events_seeds,
    Traced.events_ofFault, Traced.events_inside]
  rfl

end

/-! ### Records of walks that fail -/

theorem Site.traversal_node {depth : Nat} {g : Graph} {done rest : List Node} {n : Node}
    (hsplit : g.nodes = done ++ n :: rest) (worked : Bool) :
    (Site.node done.length).traversal worked depth g
      = traversalOf depth done ++ if worked then n.traversal depth else [] := by
  rw [Site.traversal, hsplit]
  cases worked with
  | false => simp
  | true =>
    rw [if_pos rfl, if_pos rfl, List.take_length_add_append, traversalOf_append]
    simp [traversalOf]

theorem Site.traversal_inside {depth : Nat} {g inner : Graph} {done rest : List Node} {n : Node}
    (hsplit : g.nodes = done ++ n :: rest) (hb : n.body = .fused inner) (worked : Bool)
    (site : Site) :
    (Site.inside done.length site).traversal worked depth g
      = traversalOf depth done ++ .entered n.op (depth + 1) inner.nodes.length
        :: site.traversal worked (depth + 1) inner := by
  obtain ⟨op, name, inputs, outputs, body⟩ := n
  obtain rfl : body = .fused inner := hb
  rw [Site.traversal, hsplit]
  simp

namespace Call

variable {setup : Setup} {c : Call}

/-- Where a visit stops, the records are those of the nodes before it and then its own. -/
theorem At.events_walk {done rest : List Node} {n : Node} {t : Table} {stop : Stop}
    (hat : c.At setup done n rest t) (hv : (n.visit setup c.depth t).outcome = .error stop) :
    (c.walk setup).events.map Event.outline
      = traversalOf c.depth done ++ (n.visit setup c.depth t).events.map Event.outline := by
  obtain ⟨t₀, hs, hd⟩ := hat.exists_start
  have hrest : (walkNodes setup c.depth (n :: rest) t).events = (n.visit setup c.depth t).events :=
    Traced.events_bind_of_error hv _
  rw [walk, Graph.walk_eq_walkNodes, hat.split, Traced.events_bind_of_ok hs, Walk.events_start,
    List.nil_append, walkNodes_append, Traced.events_bind_of_ok hd, hrest, List.map_append,
    events_walkNodes c.depth done hd]

/-- A walk that fails leaves the traversal of its graph cut short at the site. -/
theorem FailsAt.events_walk {site : Site} {labels : List Label} {last : InferenceError}
    (h : FailsAt setup c site labels last) :
    (c.walk setup).events.map Event.outline
      = site.traversal last.overOutputs c.depth c.graph := by
  induction h with
  | @count c h =>
    have hstart : (Walk.start c.graph.valueCount c.graph.inputs c.given).outcome
        = .error (.failed (.inputCount c.graph.inputs.length c.given.length)) :=
      Walk.start_failed_iff.2 ⟨h, rfl⟩
    rw [Call.walk, Graph.walk_eq_walkNodes, Traced.events_bind_of_error hstart, Walk.events_start]
    rfl
  | node hat hv hl =>
    rw [hat.events_walk hv, Node.events_visit_failed hv (InferenceError.bare_of_label hl),
      Site.traversal_node hat.split]
  | inside hbelow h ih =>
    obtain ⟨hat, hb, hr, hs⟩ := hbelow
    rw [hat.events_walk (Node.visit_error_of_walk hb hr hs h.walk),
      Node.events_visit_of_walk hb hr hs h.walk, List.map_cons, Site.traversal_inside hat.split hb]
    exact congrArg (traversalOf _ _ ++ Event.entered _ _ _ :: ·) ih

/-- Where a walk fails, the graphs on the way down are open, the last one entered first. -/
theorem FailsAt.nest_traversal {site : Site} {labels : List Label} {last : InferenceError}
    (h : FailsAt setup c site labels last) (ops : List String) (hd : c.depth = ops.length)
    (worked : Bool) :
    (site.traversal worked c.depth c.graph).foldlM Event.nest ops
      = some ((labels.map (·.op)).reverse ++ ops) := by
  induction h generalizing ops with
  | count => rfl
  | @node c done rest n _ _ hat =>
    rw [Site.traversal_node hat.split, hd, List.foldlM_append, nest_traversalOf]
    cases worked with
    | false => rfl
    | true => exact n.nest_traversal ops
  | inside hbelow h ih =>
    obtain @⟨done, rest, n, t, inner, given, seeds, hat, hb, hr, hs⟩ := hbelow
    -- the graph of the node is entered and stays open, so its operator goes on top
    have hinner := ih (n.op :: ops) (congrArg (· + 1) hd)
    rw [Site.traversal_inside hat.split hb, hd, List.foldlM_append, nest_traversalOf]
    show (Event.nest ops (.entered n.op (ops.length + 1) inner.nodes.length)).bind _ = _
    rw [Event.nest, if_pos rfl, Option.bind_some, ← hd, hinner, List.map_cons, List.reverse_cons,
      List.append_assoc]
    rfl

end Call

/-! ### Records of runs -/

namespace Run

/-- Converting the inputs leaves no records. -/
@[simp] theorem events_infos (index : Nat) (inputs : List RuntimeInput) :
    (infos index inputs).events = [] := by
  induction inputs generalizing index with
  | nil => rfl
  | cons input rest ih =>
    rw [infos]
    split
    · cases h : (infos (index + 1) rest).outcome with
      | ok others => rw [Traced.events_bind_of_ok h, ih]; rfl
      | error stop => rw [Traced.events_bind_of_error h, ih]
    · rfl

/-- The records of a run are those of its walk. -/
theorem events_report {setup : Setup} {g : Graph} {inputs : List RuntimeInput}
    {given : List ValueInfo} (h : (infos 0 inputs).outcome = .ok given) :
    (report setup g inputs).events = (g.walk setup 0 given).events := by
  rw [report, Traced.events_bind_of_ok h, events_infos, List.nil_append]
  cases hw : (g.walk setup 0 given).outcome with
  | error stop => exact Traced.events_bind_of_error hw _
  | ok t =>
    rw [Traced.events_bind_of_ok hw]
    cases ho : (Traced.ofFault (t.readAll g.outputs)).outcome with
    | ok outs => rw [Traced.events_bind_of_ok ho, Traced.events_ofFault]; exact List.append_nil _
    | error stop => rw [Traced.events_bind_of_error ho, Traced.events_ofFault, List.append_nil]

/-- A run that fails leaves the traversal of its graph cut short at the site. -/
theorem FailsAt.events_report {setup : Setup} {g : Graph} {inputs : List RuntimeInput}
    {site : Site} {labels : List Label} {last : InferenceError}
    (h : FailsAt setup g inputs site labels last) :
    (report setup g inputs).events.map Event.outline = site.traversal last.overOutputs 0 g := by
  rcases failsAt_iff.1 h with ⟨index, kind, hi, rfl, rfl, rfl⟩ | ⟨given, hg, h⟩
  · rw [report, Traced.events_bind_of_error hi, events_infos]
    rfl
  · rw [Run.events_report hg]
    exact h.events_walk

/-- Where a run fails, the graphs on the way down are open, the last one entered first. -/
theorem FailsAt.nest_traversal {setup : Setup} {g : Graph} {inputs : List RuntimeInput}
    {site : Site} {labels : List Label} {last : InferenceError}
    (h : FailsAt setup g inputs site labels last) (worked : Bool) :
    (site.traversal worked 0 g).foldlM Event.nest [] = some (labels.map (·.op)).reverse := by
  rcases failsAt_iff.1 h with ⟨index, kind, hi, rfl, rfl, rfl⟩ | ⟨given, hg, h⟩
  · rfl
  · have hopen := h.nest_traversal [] rfl worked
    rwa [List.append_nil] at hopen

/-- The dump is the last record of a run that succeeds, and a run that fails has none. -/
theorem events_infer (setup : Setup) (g : Graph) (inputs : List RuntimeInput) :
    (g.infer setup inputs).events = (report setup g inputs).events ++
      match (report setup g inputs).outcome with
      | .ok r => if setup.options.dump then [.dumped r.text] else []
      | .error _ => [] := by
  rw [Graph.infer]
  cases h : (report setup g inputs).outcome with
  | error stop => rw [Traced.events_bind_of_error h, List.append_nil]
  | ok r =>
    rw [Traced.events_bind_of_ok h]
    congr 1
    split <;> rfl

end Run

namespace Graph

/-- TRACED: the records of a run that succeeds are the traversal of its graph, each graph that is
    entered being left again, and then the dump if it is asked for. Those of a run that fails are the
    traversal cut short at the site of the failure: the graphs on the way down are entered and
    not left, there is no dump, and the path of the error is one longer than there are graphs open.
    The dump alone is there to inform, and has a line for each value that is known; all other records
    are for debugging, and tell of operators and of graphs entered and left. -/
theorem infer_traversal (setup : Setup) (g : Graph) (inputs : List RuntimeInput) :
    (∀ r, (g.infer setup inputs).outcome = .ok r →
      ∃ records, (g.infer setup inputs).events
          = records ++ (if setup.options.dump then [.dumped r.text] else []) ∧
        records.map Event.outline = g.traversal 0 ∧
        (∀ event ∈ records, event.level = .debug ∧ event.Told) ∧
        records.foldlM Event.nest [] = some [] ∧
        (Event.dumped r.text).level = .info ∧
        (Event.dumped r.text).message
          = "Inferred shapes:\n" ++ String.join (r.entries.map fun (w, info) =>
              (g.valueName? w).getD ("%" ++ toString w.index) ++ ": "
                ++ (match info.extent with
                  | .tensor dims => "[" ++ " ".intercalate (dims.map toString) ++ "]"
                  | .list shapes => "[" ++ " ".intercalate (shapes.map fun dims =>
                      "[" ++ " ".intercalate (dims.map toString) ++ "]") ++ "]")
                ++ "\n")) ∧
    ∀ error, (g.infer setup inputs).outcome = .error (.failed error) →
      ∃ site labels last, Run.FailsAt setup g inputs site labels last ∧
        error = labels.foldr .inside last ∧
        (g.infer setup inputs).events.map Event.outline = site.traversal last.overOutputs 0 g ∧
        site.traversal last.overOutputs 0 g <+: g.traversal 0 ∧
        (∀ event ∈ (g.infer setup inputs).events, event.level = .debug ∧ event.Told) ∧
        (g.infer setup inputs).events.foldlM Event.nest [] = some (labels.map (·.op)).reverse ∧
        (g.infer setup inputs).events.countP Event.enters + 1
          = (g.infer setup inputs).events.countP Event.leaves + error.path.length := by
  constructor
  · intro r h
    obtain ⟨given, hg, hw, -, hgraph⟩ := infer_ok_iff.1 h
    rw [Run.outcome_infer] at h
    have hout : (Run.report setup g inputs).events.map Event.outline = g.traversal 0 := by
      rw [Run.events_report hg]
      exact g.events_walk 0 hw
    refine ⟨(Run.report setup g inputs).events, ?_, hout, ?_, ?_, rfl, ?_⟩
    · rw [Run.events_infer, h]
    · have hall : (Run.report setup g inputs).events.map Event.outline <+: g.traversal 0 :=
        ⟨[], by rw [List.append_nil, hout]⟩
      exact Event.told_of_prefix hall
    · rw [← Event.foldlM_nest_outline, hout]
      exact g.nest_traversal []
    · have htext := r.text_eq
      rw [hgraph] at htext
      exact congrArg ("Inferred shapes:\n" ++ ·) htext
  · intro error h
    obtain ⟨site, labels, last, hf, rfl⟩ := infer_failed_iff.1 h
    have hevents : (g.infer setup inputs).events = (Run.report setup g inputs).events := by
      rw [Run.outcome_infer] at h
      rw [Run.events_infer, h, List.append_nil]
    have hout := hf.events_report
    rw [← hevents] at hout
    have hprefix := Site.traversal_prefix last.overOutputs 0 g site
    have hopen : (g.infer setup inputs).events.foldlM Event.nest []
        = some (labels.map (·.op)).reverse := by
      rw [← Event.foldlM_nest_outline, hout, hf.nest_traversal]
    refine ⟨site, labels, last, hf, rfl, hout, hprefix, ?_, hopen, ?_⟩
    · exact Event.told_of_prefix (hout.symm ▸ hprefix)
    · have hcount := Event.countP_enters hopen
      simp only [List.length_nil, List.length_reverse, List.length_map] at hcount
      rw [InferenceError.path_foldr_inside, hf.bare.path, List.length_append, List.length_map,
        List.length_singleton]
      omega

end Graph

/-- Two fused nodes and one more, of which the second comes to an operator that no book has. -/
def halfwayGraph : Graph :=
  (Graph.empty.withInput "x" ⟨0⟩)
    |>.withNode "glow::FusionGroup" [⟨0⟩] (.fused (singleGraph "aten::relu")) [⟨1⟩]
    |>.withNode "glow::FusionGroup" [⟨1⟩] (.fused strangeGraph) [⟨2⟩]
    |>.withNode "aten::relu" [⟨2⟩] (.plain Keyed.empty) [⟨3⟩]
    |>.addOutput ⟨3⟩

theorem Graph.infer_traversal_halfwayGraph :
    (∃ r records,
      ((layered "glow::FusionGroup" "outer" (singleGraph "aten::relu")).infer
        ⟨.builtin, ⟨"glow::", true, true⟩⟩ [.tensor [2] .float]).outcome = .ok r ∧
      ((layered "glow::FusionGroup" "outer" (singleGraph "aten::relu")).infer
        ⟨.builtin, ⟨"glow::", true, true⟩⟩ [.tensor [2] .float]).events
          = records ++ [.dumped r.text] ∧
      records.map Event.outline
        = [.entered "glow::FusionGroup" 1 1, .inferred "aten::relu" [] [],
          .left "glow::FusionGroup"] ∧
      (∀ event ∈ records, event.level = .debug ∧ event.Told) ∧
      records.map Event.message
        = ["Entering subgraph of glow::FusionGroup at depth 1 with 1 nodes",
          "aten::relu (f32 [2]) -> (f32 [2])", "Leaving subgraph of glow::FusionGroup"] ∧
      (Event.dumped r.text).level = .info ∧
      (Event.dumped r.text).message = "Inferred shapes:\nx: [2]\n%1: [2]\n") ∧
    ∃ error, (halfwayGraph.infer ⟨.builtin, .default⟩ [.tensor [2] .float]).outcome
        = .error (.failed error) ∧ error.path = [none, none] ∧
      (halfwayGraph.infer ⟨.builtin, .default⟩ [.tensor [2] .float]).events.map Event.outline
        = [.entered "glow::FusionGroup" 1 1, .inferred "aten::relu" [] [],
          .left "glow::FusionGroup", .entered "glow::FusionGroup" 1 1] ∧
      (∀ event ∈ (halfwayGraph.infer ⟨.builtin, .default⟩ [.tensor [2] .float]).events,
        event.level = .debug ∧ event.Told) ∧
      (halfwayGraph.infer ⟨.builtin, .default⟩ [.tensor [2] .float]).events.countP Event.enters + 1
        = (halfwayGraph.infer ⟨.builtin, .default⟩ [.tensor [2] .float]).events.countP Event.leaves
          + error.path.length := by
  constructor
  · obtain ⟨records, hevents, hout, htold, -, hlevel, hdump⟩ := (Graph.infer_traversal
      ⟨.builtin, ⟨"glow::", true, true⟩⟩ (layered "glow::FusionGroup" "outer"
        (singleGraph "aten::relu")) [.tensor [2] .float]).1 _ rfl
    obtain rfl := List.append_cancel_right hevents
    refine ⟨_, _, rfl, hevents, hout, htold, ?_, hlevel, ?_⟩
    · decide
    · rw [hdump]
      decide
  · obtain ⟨site, labels, last, -, -, -, -, htold, -, hcount⟩ := (Graph.infer_traversal
      ⟨.builtin, .default⟩ halfwayGraph [.tensor [2] .float]).2
        (.inside ⟨"glow::FusionGroup", none⟩ (.unknownOperator ⟨"my::op", none⟩)) rfl
    exact ⟨_, rfl, rfl, rfl, htold, hcount⟩

end ShapeFlow
