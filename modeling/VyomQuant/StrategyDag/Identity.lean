/-
  VyomQuant.StrategyDag.Identity

  What a graph's hash identifies.  The payload says everything of the version and the nodes,
  but of an edge only its address as one text (`hashPayload_eq_iff`), and an id may hold an
  arrow.  So two valid graphs have one hash exactly when they are one strategy, unless
  different edges are written the same or one edge is drawn more often (`identityLaw_iff`).
-/

import VyomQuant.StrategyDag.HashText
import VyomQuant.StrategyDag.Parameters

namespace VyomQuant.StrategyDag

variable {registry : Registry} {options : Options} {g h : StrategyGraph}

/-! ## The text of a value -/

mutual

def sortKeys : Value → Value
  | .scalar s => .scalar s
  | .list items => .list (sortKeysItems items)
  | .dict members => .dict (sortedByKey (sortKeysMembers members))

def sortKeysItems : List Value → List Value
  | [] => []
  | item :: rest => sortKeys item :: sortKeysItems rest

def sortKeysMembers : List (String × Value) → List (String × Value)
  | [] => []
  | (key, value) :: rest => (key, sortKeys value) :: sortKeysMembers rest

end

theorem sortedByKey_map {α β : Type} (f : α → β) (l : List (String × α)) :
    sortedByKey (l.map fun member => (member.1, f member.2))
      = (sortedByKey l).map fun member => (member.1, f member.2) := by
  unfold sortedByKey
  rw [List.map_insertionSort _ (fun a b : String × β => a.1 ≤ b.1)]
  exact fun _ _ _ _ => Iff.rfl

theorem sortedByKey_sortedByKey {α : Type} (l : List (String × α)) :
    sortedByKey (sortedByKey l) = sortedByKey l := by
  have : Std.Total fun a b : String × α => a.1 ≤ b.1 := ⟨fun a b => le_total _ _⟩
  have : IsTrans (String × α) fun a b => a.1 ≤ b.1 := ⟨fun _ _ _ => le_trans⟩
  exact (List.pairwise_insertionSort _ l).insertionSort_eq

theorem joined_cons (text : List Char) (rest : List (List Char)) :
    joined (text :: rest) = text ++ rest.flatMap fun text => ',' :: text := by
  unfold joined
  induction rest generalizing text with
  | nil => simp
  | cons next rest ih => rw [List.intercalate_cons_cons, ih]; simp

theorem writtenMore_eq (items : List Value) :
    writtenMore items = (items.map written).flatMap (fun text => ',' :: text) ++ [']'] := by
  induction items with
  | nil => rfl
  | cons item rest ih => rw [writtenMore, ih]; simp

theorem writtenItems_eq (items : List Value) :
    writtenItems items = joined (items.map written) ++ [']'] := by
  cases items with
  | nil => rfl
  | cons item rest => rw [writtenItems, writtenMore_eq, List.map_cons, joined_cons, List.append_assoc]

def memberText (member : String × List Char) : List Char := quoted member.1 ++ ':' :: member.2

theorem writtenMoreMembers_eq (members : List (String × Value)) :
    writtenMoreMembers members =
      (members.map fun member => memberText (member.1, written member.2)).flatMap
        (fun text => ',' :: text) ++ ['\x7d'] := by
  induction members with
  | nil => rfl
  | cons member rest ih => rw [writtenMoreMembers, ih]; simp [memberText]

theorem writtenMembers_eq (members : List (String × Value)) :
    writtenMembers members =
      joined (members.map fun member => memberText (member.1, written member.2)) ++ ['\x7d'] := by
  cases members with
  | nil => rfl
  | cons member rest =>
    rw [writtenMembers, writtenMoreMembers_eq, List.map_cons, joined_cons, memberText]
    simp

mutual

theorem dumps_eq : ∀ value : Value, dumps value = written (sortKeys value)
  | .scalar s => by rw [dumps, sortKeys, written]
  | .list items => by
    rw [dumps, sortKeys, written, writtenItems_eq, dumpsItems_eq items, List.cons_append]
  | .dict members => by
    rw [dumps, sortKeys, written, writtenMembers_eq, dumpsMembers_eq members, sortedByKey_map,
      List.map_map, List.cons_append]
    rfl

theorem dumpsItems_eq : ∀ items : List Value, dumpsItems items = (sortKeysItems items).map written
  | [] => rfl
  | item :: rest => by rw [dumpsItems, sortKeysItems, List.map_cons, dumps_eq item, dumpsItems_eq rest]

theorem dumpsMembers_eq : ∀ members : List (String × Value),
    dumpsMembers members = (sortKeysMembers members).map fun member => (member.1, written member.2)
  | [] => rfl
  | (key, value) :: rest => by
    rw [dumpsMembers, sortKeysMembers, List.map_cons, dumps_eq value, dumpsMembers_eq rest]

end

theorem sortKeysMembers_eq (members : List (String × Value)) :
    sortKeysMembers members = members.map fun member => (member.1, sortKeys member.2) := by
  induction members with
  | nil => rfl
  | cons member rest ih => rw [sortKeysMembers, List.map_cons, ih]

theorem canonicalizeMembers_eq (members : List (String × Value)) :
    canonicalizeMembers members = members.map fun member => (member.1, canonicalize member.2) := by
  induction members with
  | nil => rfl
  | cons member rest ih => rw [canonicalizeMembers, List.map_cons, ih]

mutual

theorem sortKeys_canonicalize : ∀ value : Value, sortKeys (canonicalize value) = canonicalize value
  | .scalar s => by rw [canonicalize, sortKeys]
  | .list items => by rw [canonicalize, sortKeys, sortKeysItems_canonicalize items]
  | .dict members => by
    rw [canonicalize, sortKeys, sortKeysMembers_eq, ← sortedByKey_map, sortedByKey_sortedByKey,
      ← sortKeysMembers_eq, sortKeysMembers_canonicalize members]

theorem sortKeysItems_canonicalize : ∀ items : List Value,
    sortKeysItems (canonicalizeItems items) = canonicalizeItems items
  | [] => rfl
  | item :: rest => by
    rw [canonicalizeItems, sortKeysItems, sortKeys_canonicalize item, sortKeysItems_canonicalize rest]

theorem sortKeysMembers_canonicalize : ∀ members : List (String × Value),
    sortKeysMembers (canonicalizeMembers members) = canonicalizeMembers members
  | [] => rfl
  | (key, value) :: rest => by
    rw [canonicalizeMembers, sortKeysMembers, sortKeys_canonicalize value,
      sortKeysMembers_canonicalize rest]

end

/-! ## One text, one value -/

theorem SameScalar.text_eq {s t : Scalar} (h : SameScalar s t) : scalarText s = scalarText t := by
  unfold SameScalar at h
  split at h
  · exact h
  · rw [h]

mutual

theorem Same.written_eq : ∀ a b : Value, Same a b → written a = written b
  | .scalar s, .scalar t, h => by
    rw [Same] at h
    rw [written, written, h.text_eq]
  | .list items, .list items', h => by
    rw [Same] at h
    rw [written, written, SameItems.writtenItems_eq items items' h]
  | .dict members, .dict members', h => by
    rw [Same] at h
    rw [written, written, SameMembers.writtenMembers_eq members members' h]
  | .scalar _, .list _, h => by simp [Same] at h
  | .scalar _, .dict _, h => by simp [Same] at h
  | .list _, .scalar _, h => by simp [Same] at h
  | .list _, .dict _, h => by simp [Same] at h
  | .dict _, .scalar _, h => by simp [Same] at h
  | .dict _, .list _, h => by simp [Same] at h

theorem SameItems.writtenItems_eq : ∀ items items' : List Value, SameItems items items' →
    writtenItems items = writtenItems items'
  | [], [], _ => rfl
  | item :: rest, item' :: rest', h => by
    rw [SameItems] at h
    rw [writtenItems, writtenItems, Same.written_eq item item' h.1,
      SameItems.writtenMore_eq rest rest' h.2]
  | [], _ :: _, h => by simp [SameItems] at h
  | _ :: _, [], h => by simp [SameItems] at h

theorem SameItems.writtenMore_eq : ∀ items items' : List Value, SameItems items items' →
    writtenMore items = writtenMore items'
  | [], [], _ => rfl
  | item :: rest, item' :: rest', h => by
    rw [SameItems] at h
    rw [writtenMore, writtenMore, Same.written_eq item item' h.1,
      SameItems.writtenMore_eq rest rest' h.2]
  | [], _ :: _, h => by simp [SameItems] at h
  | _ :: _, [], h => by simp [SameItems] at h

theorem SameMembers.writtenMembers_eq : ∀ members members' : List (String × Value),
    SameMembers members members' → writtenMembers members = writtenMembers members'
  | [], [], _ => rfl
  | (key, value) :: rest, (key', value') :: rest', h => by
    rw [SameMembers] at h
    rw [writtenMembers, writtenMembers, h.1, Same.written_eq value value' h.2.1,
      SameMembers.writtenMoreMembers_eq rest rest' h.2.2]
  | [], _ :: _, h => by simp [SameMembers] at h
  | _ :: _, [], h => by simp [SameMembers] at h

theorem SameMembers.writtenMoreMembers_eq : ∀ members members' : List (String × Value),
    SameMembers members members' → writtenMoreMembers members = writtenMoreMembers members'
  | [], [], _ => rfl
  | (key, value) :: rest, (key', value') :: rest', h => by
    rw [SameMembers] at h
    rw [writtenMoreMembers, writtenMoreMembers, h.1, Same.written_eq value value' h.2.1,
      SameMembers.writtenMoreMembers_eq rest rest' h.2.2]
  | [], _ :: _, h => by simp [SameMembers] at h
  | _ :: _, [], h => by simp [SameMembers] at h

end

theorem written_eq_iff {a b : Value} : written a = written b ↔ Same a b := by
  constructor
  · intro h
    exact (written_append_inj a b Delimited.nil Delimited.nil
      (by rw [h] : written a ++ [] = written b ++ [])).1
  · exact Same.written_eq a b

/-! ## The payload -/

/-- One node: what the hash takes of it, with the parameters in canonical form. -/
structure SameNode (a b : NodeSpec) : Prop where
  id : a.id = b.id
  blockId : a.blockId = b.blockId
  category : a.category = b.category
  params : Same (canonicalize (.dict a.params)) (canonicalize (.dict b.params))

def sortedNodes (g : StrategyGraph) : List NodeSpec :=
  g.nodes.insertionSort fun a b => a.id ≤ b.id

/-- The addresses of the edges as the payload lists them. -/
def addresses (g : StrategyGraph) : List String := (sortedEdges g).map EdgeSpec.address

def writtenNode (node : NodeSpec) : Value :=
  .dict [("block_id", .scalar (.str node.blockId)), ("category", .scalar (.str node.category.value)),
    ("id", .scalar (.str node.id)), ("params", canonicalize (.dict node.params))]

theorem sortKeys_canonicalNode (node : NodeSpec) : sortKeys (canonicalNode node) = writtenNode node := by
  rw [canonicalNode, sortKeys, sortKeysMembers_eq]
  simp only [List.map_cons, List.map_nil, sortKeys_canonicalize]
  simp only [sortKeys]
  unfold writtenNode sortedByKey
  have h_blockId : ("block_id" : String) ≤ "category" := by decide
  have h_category : ("category" : String) ≤ "params" := by decide
  have h_id : ¬ ("id" : String) ≤ "block_id" := by decide
  have h_id' : ¬ ("id" : String) ≤ "category" := by decide
  have h_id'' : ("id" : String) ≤ "params" := by decide
  simp [List.insertionSort, List.orderedInsert, h_blockId, h_category, h_id, h_id', h_id'']

theorem sortKeysItems_eq (items : List Value) : sortKeysItems items = items.map sortKeys := by
  induction items with
  | nil => rfl
  | cons item rest ih => rw [sortKeysItems, List.map_cons, ih]

theorem hashPayload_eq (g : StrategyGraph) :
    hashPayload g = written (.dict
      [("edges", .list ((addresses g).map fun address => .scalar (.str address))),
        ("nodes", .list ((sortedNodes g).map writtenNode)),
        ("schema_version", .scalar (.int g.schemaVersion))]) := by
  rw [hashPayload, dumps_eq, sortKeys, sortKeysMembers_eq]
  have h_nodes : (canonicalNodes g).map sortKeys = (sortedNodes g).map writtenNode := by
    unfold canonicalNodes sortedNodes
    rw [List.map_map]
    exact List.map_congr_left fun node _ => sortKeys_canonicalNode node
  have h_edges : (canonicalEdges g).map sortKeys
      = (addresses g).map fun address => .scalar (.str address) := by
    unfold canonicalEdges addresses
    rw [List.map_map, List.map_map]
    exact List.map_congr_left fun edge _ => by rw [Function.comp_apply, sortKeys]; rfl
  simp only [List.map_cons, List.map_nil, sortKeys, sortKeysItems_eq, h_nodes, h_edges]
  unfold sortedByKey
  have h_version : ¬ ("schema_version" : String) ≤ "edges" := by decide
  have h_version' : ¬ ("schema_version" : String) ≤ "nodes" := by decide
  have h_order : ¬ ("nodes" : String) ≤ "edges" := by decide
  simp [List.insertionSort, List.orderedInsert, h_version, h_version', h_order]

theorem sameScalar_str_iff {text text' : String} :
    SameScalar (.str text) (.str text') ↔ text = text' := by
  rw [SameScalar]
  · exact ⟨fun h => Scalar.str.inj h, fun h => by rw [h]⟩
  · intro n d e n' d' e' h
    cases h

theorem sameScalar_int_iff {m n : ℤ} : SameScalar (.int m) (.int n) ↔ m = n := by
  rw [SameScalar]
  · exact ⟨fun h => Scalar.int.inj h, fun h => by rw [h]⟩
  · intro n d e n' d' e' h
    cases h

theorem sameItems_iff {items items' : List Value} :
    SameItems items items' ↔ List.Forall₂ Same items items' := by
  induction items generalizing items' with
  | nil =>
    cases items' with
    | nil => simp [SameItems]
    | cons item' rest' => simp [SameItems]
  | cons item rest ih =>
    cases items' with
    | nil => simp [SameItems]
    | cons item' rest' => rw [SameItems, List.forall₂_cons, ih]

theorem value_injective {a b : BlockCategory} (h : a.value = b.value) : a = b := by
  cases a <;> cases b <;> first | rfl | exact absurd h (by decide)

theorem same_writtenNode_iff {a b : NodeSpec} :
    Same (writtenNode a) (writtenNode b) ↔ SameNode a b := by
  simp only [writtenNode, Same, SameMembers, sameScalar_str_iff, true_and, and_true]
  constructor
  · rintro ⟨h_block, h_category, h_id, h_params⟩
    exact ⟨h_id, h_block, value_injective h_category, h_params⟩
  · rintro ⟨h_id, h_block, h_category, h_params⟩
    exact ⟨h_block, by rw [h_category], h_id, h_params⟩

/-- Two graphs have one payload when they have one version, the same nodes in the order of
    their ids, and edges whose addresses read the same. -/
theorem hashPayload_eq_iff {g h : StrategyGraph} :
    hashPayload g = hashPayload h ↔
      addresses g = addresses h ∧ List.Forall₂ SameNode (sortedNodes g) (sortedNodes h) ∧
        g.schemaVersion = h.schemaVersion := by
  rw [hashPayload_eq, hashPayload_eq, written_eq_iff, Same]
  simp only [SameMembers, Same, true_and, and_true, sameItems_iff, sameScalar_int_iff]
  rw [List.forall₂_map_left_iff, List.forall₂_map_right_iff, List.forall₂_map_left_iff,
    List.forall₂_map_right_iff]
  simp only [Same, sameScalar_str_iff, same_writtenNode_iff, List.forall₂_eq_eq_eq]

/-! ## The strategy of a graph -/

def SameNodes (g h : StrategyGraph) : Prop :=
  (∀ a ∈ g.nodes, ∃ b ∈ h.nodes, SameNode a b) ∧ ∀ b ∈ h.nodes, ∃ a ∈ g.nodes, SameNode a b

/-- The same set of edges, by their two ends and ports. -/
def SameEdges (g h : StrategyGraph) : Prop :=
  ∀ key, key ∈ g.edges.map EdgeSpec.addressKey ↔ key ∈ h.edges.map EdgeSpec.addressKey

structure SameStrategy (g h : StrategyGraph) : Prop where
  schemaVersion : g.schemaVersion = h.schemaVersion
  nodes : SameNodes g h
  edges : SameEdges g h

theorem mem_sortedNodes {node : NodeSpec} : node ∈ sortedNodes g ↔ node ∈ g.nodes :=
  List.mem_insertionSort _

theorem pairwise_sortedIds (h_nodup : g.nodeIds.Nodup) :
    ((sortedNodes g).map NodeSpec.id).Pairwise fun a b => a < b := by
  have : Std.Total fun a b : NodeSpec => a.id ≤ b.id := ⟨fun a b => le_total _ _⟩
  have : IsTrans NodeSpec fun a b => a.id ≤ b.id := ⟨fun _ _ _ => le_trans⟩
  have h_le : ((sortedNodes g).map NodeSpec.id).Pairwise fun a b => a ≤ b :=
    List.pairwise_map.mpr (List.pairwise_insertionSort _ g.nodes)
  have h_ne : ((sortedNodes g).map NodeSpec.id).Nodup :=
    (((List.perm_insertionSort _ g.nodes).map NodeSpec.id).nodup_iff).mpr h_nodup
  exact (h_le.and h_ne).imp fun h => lt_of_le_of_ne h.1 h.2

/-- Node by node in the order of their ids, where the ids are distinct. -/
theorem sameNodes_iff (h_g : g.nodeIds.Nodup) (h_h : h.nodeIds.Nodup) :
    SameNodes g h ↔ List.Forall₂ SameNode (sortedNodes g) (sortedNodes h) := by
  constructor
  · intro h_same
    have h_ids : (sortedNodes g).map NodeSpec.id = (sortedNodes h).map NodeSpec.id := by
      refine (List.Perm.eq_of_pairwise (fun _ _ _ _ h_lt h_gt => absurd h_lt h_gt.asymm)
        (pairwise_sortedIds h_g) (pairwise_sortedIds h_h))
        ((List.perm_ext_iff_of_nodup (pairwise_sortedIds h_g).nodup
          (pairwise_sortedIds h_h).nodup).mpr fun id => ?_)
      simp only [List.mem_map, mem_sortedNodes]
      constructor
      · rintro ⟨a, h_a, rfl⟩
        obtain ⟨b, h_b, h_ab⟩ := h_same.1 a h_a
        exact ⟨b, h_b, h_ab.id.symm⟩
      · rintro ⟨b, h_b, rfl⟩
        obtain ⟨a, h_a, h_ab⟩ := h_same.2 b h_b
        exact ⟨a, h_a, h_ab.id⟩
    have h_pairs : List.Forall₂ (fun a b : NodeSpec => a.id = b.id) (sortedNodes g)
        (sortedNodes h) := by
      refine List.forall₂_map_right_iff.mp (List.forall₂_map_left_iff.mp ?_)
      rw [h_ids]
      exact List.forall₂_refl _
    obtain ⟨h_length, h_zip⟩ := List.forall₂_iff_zip.mp h_pairs
    refine List.forall₂_iff_zip.mpr ⟨h_length, fun {a b} h_mem => ?_⟩
    -- the node that `a` is the same as has the id of `b`, so it is `b`
    obtain ⟨h_a, h_b⟩ := List.of_mem_zip h_mem
    obtain ⟨b', h_b', h_ab⟩ := h_same.1 a (mem_sortedNodes.mp h_a)
    have h_eq : b' = b := List.inj_on_of_nodup_map h_h h_b' (mem_sortedNodes.mp h_b)
      (h_ab.id.symm.trans (h_zip h_mem))
    exact h_eq ▸ h_ab
  · intro h_pairs
    constructor
    · intro a h_a
      obtain ⟨b, h_b, h_ab⟩ := exists_of_mem_forall₂ h_pairs (mem_sortedNodes.mpr h_a)
      exact ⟨b, mem_sortedNodes.mp h_b, h_ab⟩
    · intro b h_b
      obtain ⟨a, h_a, h_ab⟩ := exists_of_mem_forall₂ h_pairs.flip (mem_sortedNodes.mpr h_b)
      exact ⟨a, mem_sortedNodes.mp h_a, h_ab⟩

/-! ## Reading a stored plan -/

/-- `plan.matches_graph`. -/
def CompiledPlan.matchesGraph (plan : CompiledPlan) (g : StrategyGraph) : Bool :=
  plan.dagHash = computeDagHash g

structure LoadedPlan where
  plan : CompiledPlan
  reused : Bool

/-- `load_plan`, given the plans of the columns that could be read. -/
def loadPlan (registry : Registry) (options : Options) (columns : List (Option CompiledPlan))
    (g : StrategyGraph) : Except CompileError LoadedPlan :=
  match columns.reduceOption with
  | stored :: _ =>
    if stored.matchesGraph g then .ok { plan := stored, reused := true }
    else (compilePlan registry options g).map fun plan => { plan := plan, reused := false }
  | [] => (compilePlan registry options g).map fun plan => { plan := plan, reused := false }

theorem loadPlan_reuses_iff {columns : List (Option CompiledPlan)} {stored : CompiledPlan}
    (h_stored : columns.reduceOption.head? = some stored) :
    loadPlan registry options columns g = .ok { plan := stored, reused := true } ↔
      stored.dagHash = computeDagHash g := by
  obtain ⟨rest, h_columns⟩ := List.head?_eq_some_iff.mp h_stored
  unfold loadPlan
  rw [h_columns]
  dsimp only
  by_cases h_matches : stored.matchesGraph g
  · rw [if_pos h_matches]
    exact ⟨fun _ => of_decide_eq_true h_matches, fun _ => rfl⟩
  · rw [if_neg h_matches]
    refine ⟨fun h_ok => ?_, fun h_eq => absurd (decide_eq_true h_eq) h_matches⟩
    cases h_plan : compilePlan registry options g with
    | error error =>
      rw [h_plan] at h_ok
      cases h_ok
    | ok plan =>
      rw [h_plan] at h_ok
      cases h_ok

/-- The hash is the identity of the strategy, and a plan stored for one of two graphs is
    served for the other exactly when they are one strategy. -/
structure IdentityLaw (registry : Registry) (options : Options) (g h : StrategyGraph) : Prop where
  hash : computeDagHash g = computeDagHash h ↔ SameStrategy g h
  reused : ∀ columns stored, columns.reduceOption.head? = some stored →
    stored.dagHash = computeDagHash g →
      (loadPlan registry options columns h = .ok { plan := stored, reused := true } ↔
        SameStrategy g h)

/-- Edges that read the same are the same, and the other way round. -/
def WrittenApart (g h : StrategyGraph) : Prop :=
  g.schemaVersion = h.schemaVersion → SameNodes g h →
    (addresses g = addresses h ↔ SameEdges g h)

/-- Of two valid graphs whose payloads the digest tells apart, the hash is the identity
    exactly when their edges are written apart. -/
theorem identityLaw_iff (h_g : Validates registry options g) (h_h : Validates registry options h)
    (h_digest : computeDagHash g = computeDagHash h → hashPayload g = hashPayload h) :
    IdentityLaw registry options g h ↔ WrittenApart g h := by
  have h_nodes : SameNodes g h ↔ List.Forall₂ SameNode (sortedNodes g) (sortedNodes h) :=
    sameNodes_iff (validates_iff.mp h_g).resolved.nodup (validates_iff.mp h_h).resolved.nodup
  have h_hash : computeDagHash g = computeDagHash h ↔
      addresses g = addresses h ∧ SameNodes g h ∧ g.schemaVersion = h.schemaVersion := by
    rw [h_nodes, ← hashPayload_eq_iff]
    refine ⟨h_digest, fun h_payload => ?_⟩
    rw [computeDagHash, computeDagHash, h_payload]
  constructor
  · intro h_law h_version h_same
    constructor
    · intro h_addresses
      exact (h_law.hash.mp (h_hash.mpr ⟨h_addresses, h_same, h_version⟩)).edges
    · intro h_edges
      exact (h_hash.mp (h_law.hash.mpr ⟨h_version, h_same, h_edges⟩)).1
  · intro h_apart
    have h_law : computeDagHash g = computeDagHash h ↔ SameStrategy g h := by
      rw [h_hash]
      constructor
      · rintro ⟨h_addresses, h_same, h_version⟩
        exact ⟨h_version, h_same, (h_apart h_version h_same).mp h_addresses⟩
      · rintro ⟨h_version, h_same, h_edges⟩
        exact ⟨(h_apart h_version h_same).mpr h_edges, h_same, h_version⟩
    refine ⟨h_law, fun columns stored h_stored h_plan => ?_⟩
    rw [loadPlan_reuses_iff h_stored, h_plan, h_law]

/-! ## Two strategies with one hash -/

def feedCalled (id : String) : NodeSpec := { feedNode "BTC/USDT" with id := id }

/-- Two comparisons with a constant, each with its order.  What they compare is given. -/
def tangled (lefts : List EdgeSpec) : StrategyGraph :=
  { schemaVersion := 2, strategyId := "s1", version := "1", name := "strategy"
    nodes :=
      [feedCalled "a", feedCalled "e", feedCalled "a.close->b", feedCalled "e.close->b",
        plainNode "z" "constant" .MATH, plainNode "b.close->c" "gt" .LOGIC,
        plainNode "c" "gt" .LOGIC, plainNode "s1" "to_signal" .LOGIC,
        plainNode "s2" "to_signal" .LOGIC, plainNode "x1" "action_buy_market" .ACTION,
        plainNode "x2" "action_buy_market" .ACTION]
    edges := lefts ++
      [edgeFrom "z" "value" "b.close->c" "right", edgeFrom "z" "value" "c" "right",
        edgeFrom "b.close->c" "out" "s1" "condition", edgeFrom "c" "out" "s2" "condition",
        edgeFrom "s1" "out" "x1" "signal", edgeFrom "s2" "out" "x2" "signal"]
    migrationIssues := [], validationState := .UNVALIDATED }

/-- The first comparison is of `a`, the second of `e.close->b`. -/
def directFeeds : StrategyGraph :=
  tangled [{ edgeFrom "a" "close" "b.close->c" "left" with id := "left1" },
    { edgeFrom "e.close->b" "close" "c" "left" with id := "left2" }]

/-- The first comparison is of `e`, the second of `a.close->b`. -/
def crossedFeeds : StrategyGraph :=
  tangled [{ edgeFrom "e" "close" "b.close->c" "left" with id := "left1" },
    { edgeFrom "a.close->b" "close" "c" "left" with id := "left2" }]

theorem directFeeds_validates : Validates orderRegistry {} directFeeds :=
  validates_of_run (by decide +kernel)

theorem crossedFeeds_validates : Validates orderRegistry {} crossedFeeds :=
  validates_of_run (by decide +kernel)

theorem SameNode.refl (node : NodeSpec) : SameNode node node :=
  ⟨rfl, rfl, rfl, written_eq_iff.mp rfl⟩

theorem hashPayload_crossedFeeds : hashPayload directFeeds = hashPayload crossedFeeds := by
  refine hashPayload_eq_iff.mpr ⟨by decide +kernel, ?_, rfl⟩
  have h_nodes : sortedNodes directFeeds = sortedNodes crossedFeeds := rfl
  rw [h_nodes]
  exact List.forall₂_same.mpr fun node _ => SameNode.refl node

theorem identityLaw_crossedFeeds :
    IdentityLaw orderRegistry {} directFeeds crossedFeeds ↔
      WrittenApart directFeeds crossedFeeds :=
  identityLaw_iff directFeeds_validates crossedFeeds_validates fun _ => hashPayload_crossedFeeds

/-- The two strategies compare other feeds, and have one hash. -/
theorem not_identityLaw :
    ¬ ∀ (registry : Registry) (options : Options) (g h : StrategyGraph),
      Validates registry options g → Validates registry options h →
        (computeDagHash g = computeDagHash h → hashPayload g = hashPayload h) →
          IdentityLaw registry options g h := by
  intro h
  have h_law := h orderRegistry {} directFeeds crossedFeeds directFeeds_validates
    crossedFeeds_validates fun _ => hashPayload_crossedFeeds
  have h_hash : computeDagHash directFeeds = computeDagHash crossedFeeds := by
    rw [computeDagHash, computeDagHash, hashPayload_crossedFeeds]
  have h_same := (h_law.hash.mp h_hash).edges ["a", "close", "b.close->c", "left"]
  exact absurd (h_same.mp (by decide)) (by decide)

end VyomQuant.StrategyDag
