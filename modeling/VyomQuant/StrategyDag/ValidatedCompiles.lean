/-
  VyomQuant.StrategyDag.ValidatedCompiles

  When a validated graph compiles.  The order and the levels of the plan are always good:
  the validator has ruled out every cycle.  The market of an action is not: the stages ask
  that some action is reached from a data node, and that no action has two symbols as they
  are written, while the compiler needs one trimmed, non-blank symbol for every action.

  So a validated graph compiles exactly when each of its actions has one
  (`compilePlan_canonicalGraph_iff`).
-/

import VyomQuant.StrategyDag.ClientFields
import VyomQuant.StrategyDag.Plan

namespace VyomQuant.StrategyDag

open Digraph (Arc Reaches converse sorted TopologicalOrder Levelling)

variable {registry : Registry} {options : Options} {g g' : StrategyGraph}

/-! ## Canonical graphs -/

/-- A graph that says what the registry publishes, and whose edges end in it. -/
structure Published (registry : Registry) (g : StrategyGraph) : Prop where
  resolved : Resolved registry g
  category : ∀ node ∈ g.nodes, ∀ descriptor, registry node.blockId = some descriptor →
    node.category = descriptor.category
  ends : ∀ edge ∈ g.edges, edge.source ∈ g.nodeIds ∧ edge.target ∈ g.nodeIds

theorem Clear.published (h_clear : Clear registry options g) (state : ValidationState) :
    Published registry (recomputeGraph registry g state) where
  resolved := h_clear.resolved.congr authored_recomputeGraph.symm
  category := by
    intro node h_node descriptor h_descriptor
    obtain ⟨submitted, h_submitted, rfl⟩ := List.mem_map.mp h_node
    have h_block : (recomputeNode registry g submitted).blockId = submitted.blockId :=
      congrArg AuthoredNode.blockId (authored_recomputeNode submitted)
    have h_published : descriptorOf registry g submitted.id = registry submitted.blockId :=
      descriptorOf_of_mem h_clear.resolved.nodup h_submitted
    rw [h_block, ← h_published] at h_descriptor
    rw [recomputeNode, h_descriptor]
  ends := by
    intro edge h_edge
    obtain ⟨submitted, h_submitted, rfl⟩ := List.mem_map.mp h_edge
    rw [nodeIds_recomputeGraph]
    exact (structuralIssues_eq_nil_iff.mp h_clear.structural).2.2.2.2.1 submitted h_submitted

variable {category : BlockCategory}

namespace Published

variable (h : Published registry g)
include h

theorem mem_arcs_iff {arc : String × String} :
    arc ∈ arcs g ↔ ∃ edge ∈ g.edges, edge.source = arc.1 ∧ edge.target = arc.2 := by
  rw [mem_arcs]
  constructor
  · rintro ⟨edge, h_edge, h_source, h_target, -⟩
    exact ⟨edge, h_edge, h_source, h_target⟩
  · rintro ⟨edge, h_edge, h_source, h_target⟩
    have h_ends := h.ends edge h_edge
    rw [h_source, h_target] at h_ends
    exact ⟨edge, h_edge, h_source, h_target, h_ends⟩

theorem mem_sortedArcs {arc : String × String} :
    arc ∈ (sortedEdges g).map (fun edge => (edge.target, edge.source)) ↔ arc ∈ converse (arcs g) := by
  obtain ⟨v, w⟩ := arc
  have h_converse : (v, w) ∈ converse (arcs g) ↔ (w, v) ∈ arcs g := Digraph.arc_converse
  rw [h_converse, h.mem_arcs_iff, List.mem_map]
  simp only [sortedEdges, List.mem_insertionSort, Prod.mk.injEq, and_comm]

theorem mem_predecessors {source target : String} :
    source ∈ predecessors g target ↔ Arc (arcs g) source target := by
  have h_arc : Arc (arcs g) source target ↔ (source, target) ∈ arcs g := Iff.rfl
  rw [h_arc, h.mem_arcs_iff, predecessors, sorted, List.mem_insertionSort, List.mem_eraseDups,
    List.mem_map]
  simp only [sortedEdges, List.mem_filter, List.mem_insertionSort, decide_eq_true_eq, and_assoc,
    and_comm]

theorem mem_upstreamDataNodes {root : String} {node : NodeSpec} :
    node ∈ upstreamDataNodes g root ↔
      node ∈ g.nodes ∧ node.category = .DATA ∧ Reaches (arcs g) node.id root := by
  have h_reaches : Reaches ((sortedEdges g).map fun edge => (edge.target, edge.source))
      = Reaches (converse (arcs g)) := Digraph.Reaches.congr fun _ => h.mem_sortedArcs
  rw [upstreamDataNodes]
  simp only [List.mem_insertionSort, List.mem_filter, List.mem_filterMap, Digraph.mem_reachableFrom,
    List.mem_singleton, exists_eq_left, decide_eq_true_eq, h_reaches, Digraph.reaches_converse]
  constructor
  · rintro ⟨⟨nodeId, h_upstream, h_index⟩, h_data⟩
    obtain ⟨h_mem, rfl⟩ := StrategyGraph.nodeIndex_eq_some h_index
    exact ⟨h_mem, h_data, h_upstream⟩
  · rintro ⟨h_mem, h_data, h_upstream⟩
    exact ⟨⟨node.id, h_upstream, StrategyGraph.nodeIndex_of_mem h.resolved.nodup h_mem⟩, h_data⟩

theorem category_eq_iff {node : NodeSpec} (h_node : node ∈ g.nodes) :
    node.category = category ↔
      ∃ descriptor, registry node.blockId = some descriptor ∧ descriptor.category = category := by
  obtain ⟨descriptor, h_descriptor⟩ := h.resolved.published node h_node
  rw [h.category node h_node descriptor h_descriptor]
  constructor
  · exact fun h_category => ⟨descriptor, h_descriptor, h_category⟩
  · rintro ⟨other, h_other, h_category⟩
    rw [Option.some.inj (h_descriptor.symm.trans h_other)]
    exact h_category

end Published

/-! ## Markets -/

/-- A DATA node upstream of an action names this symbol. -/
def TradesUpstream (registry : Registry) (g : StrategyGraph) (actionId symbol : String) : Prop :=
  ∃ node ∈ g.nodes, (∃ descriptor, registry node.blockId = some descriptor ∧
      descriptor.category = .DATA) ∧ Reaches (arcs g) node.id actionId ∧
    ∃ text, (node.params.get "symbol").text? = some text ∧ strip text = symbol ∧ symbol ≠ ""

/-- Every action has one symbol upstream. -/
def MarketsResolve (registry : Registry) (g : StrategyGraph) : Prop :=
  ∀ node ∈ g.nodes, (∃ descriptor, registry node.blockId = some descriptor ∧
    descriptor.category = .ACTION) → ∃! symbol, TradesUpstream registry g node.id symbol

variable {actionId key : String}

theorem TradesUpstream.congr (h : g.authored = g'.authored) {symbol : String}
    (h_trades : TradesUpstream registry g actionId symbol) :
    TradesUpstream registry g' actionId symbol := by
  obtain ⟨node, h_node, h_data, h_upstream, h_text⟩ := h_trades
  obtain ⟨node', h_node', h_authored⟩ := exists_node h.symm h_node
  have h_id : node'.id = node.id := congrArg AuthoredNode.id h_authored
  have h_block : node'.blockId = node.blockId := congrArg AuthoredNode.blockId h_authored
  have h_params : node'.params = node.params := congrArg AuthoredNode.params h_authored
  refine ⟨node', h_node', ?_, ?_, ?_⟩
  · rw [h_block]
    exact h_data
  · rw [h_id, ← reaches_congr h]
    exact h_upstream
  · rw [h_params]
    exact h_text

theorem MarketsResolve.congr (h : g.authored = g'.authored) (h_markets : MarketsResolve registry g) :
    MarketsResolve registry g' := by
  intro node' h_node' h_action
  obtain ⟨node, h_node, h_authored⟩ := exists_node h h_node'
  have h_id : node.id = node'.id := congrArg AuthoredNode.id h_authored
  have h_block : node.blockId = node'.blockId := congrArg AuthoredNode.blockId h_authored
  rw [← h_block] at h_action
  obtain ⟨symbol, h_symbol, h_unique⟩ := h_markets node h_node h_action
  rw [← h_id]
  exact ⟨symbol, h_symbol.congr h, fun other h_other => h_unique other (h_other.congr h.symm)⟩

theorem mem_declaredTexts {text : String} {nodes : List NodeSpec} :
    text ∈ declaredTexts key nodes ↔ ∃ node ∈ nodes,
      ∃ raw, (node.params.get key).text? = some raw ∧ strip raw = text ∧ text ≠ "" := by
  rw [declaredTexts, List.mem_eraseDups, List.mem_filterMap]
  refine exists_congr fun node => and_congr_right fun _ => ?_
  rw [Option.filter_eq_some_iff, Option.map_eq_some_iff, decide_eq_true_eq]
  constructor
  · rintro ⟨⟨raw, h_raw, h_strip⟩, h_ne⟩
    exact ⟨raw, h_raw, h_strip, h_ne⟩
  · rintro ⟨raw, h_raw, h_strip, h_ne⟩
    exact ⟨⟨raw, h_raw, h_strip⟩, h_ne⟩

theorem Published.mem_declaredTexts_symbol (h : Published registry g) {symbol : String} :
    symbol ∈ declaredTexts "symbol" (upstreamDataNodes g actionId) ↔
      TradesUpstream registry g actionId symbol := by
  rw [mem_declaredTexts, TradesUpstream]
  refine exists_congr fun node => ?_
  rw [h.mem_upstreamDataNodes, and_assoc, and_assoc]
  refine and_congr_right fun h_node => ?_
  rw [h.category_eq_iff h_node]

theorem eq_singleton_of_existsUnique {l : List String} (h_nodup : l.Nodup) (h : ∃! a, a ∈ l) :
    ∃ a, l = [a] := by
  obtain ⟨a, h_a, h_unique⟩ := h
  refine ⟨a, List.perm_singleton.mp ?_⟩
  refine (List.perm_ext_iff_of_nodup h_nodup (List.nodup_singleton a)).mpr fun b => ?_
  rw [List.mem_singleton]
  constructor
  · exact h_unique b
  · rintro rfl
    exact h_a

theorem marketOf_eq_ok {market : String × Option String} (h : marketOf g actionId = .ok market) :
    declaredTexts "symbol" (upstreamDataNodes g actionId) = [market.1] ∧
      ∀ timeframe ∈ market.2,
        declaredTexts "timeframe" (upstreamDataNodes g actionId) = [timeframe] := by
  unfold marketOf at h
  dsimp only at h
  split at h
  · cases h
  · rename_i symbol h_symbols
    split at h
    · rename_i timeframe h_timeframes
      cases h
      exact ⟨h_symbols, fun _ h_mem => by rw [← Option.mem_some_iff.mp h_mem, h_timeframes]⟩
    · cases h
      exact ⟨h_symbols, nofun⟩
  · cases h

theorem exists_marketOf_iff :
    (∃ market, marketOf g actionId = .ok market) ↔
      ∃! symbol, symbol ∈ declaredTexts "symbol" (upstreamDataNodes g actionId) := by
  constructor
  · rintro ⟨market, h_market⟩
    rw [(marketOf_eq_ok h_market).1]
    exact ⟨market.1, List.mem_singleton_self _, fun _ h_other => List.mem_singleton.mp h_other⟩
  · intro h_unique
    have h_nodup : (declaredTexts "symbol" (upstreamDataNodes g actionId)).Nodup :=
      List.nodup_eraseDups _
    obtain ⟨symbol, h_symbol⟩ := eq_singleton_of_existsUnique h_nodup h_unique
    unfold marketOf
    dsimp only
    rw [h_symbol]
    cases declaredTexts "timeframe" (upstreamDataNodes g actionId) with
    | nil => exact ⟨_, rfl⟩
    | cons timeframe rest =>
      cases rest with
      | nil => exact ⟨_, rfl⟩
      | cons other rest => exact ⟨_, rfl⟩

theorem marketEntry_eq_ok {entry : String × String × Option String} :
    marketEntry g actionId = .ok entry ↔ entry.1 = actionId ∧ marketOf g actionId = .ok entry.2 := by
  unfold marketEntry
  rw [Except.bind_eq_ok]
  constructor
  · rintro ⟨market, h_market, h_entry⟩
    rw [Except.pure_eq_ok] at h_entry
    subst h_entry
    exact ⟨rfl, h_market⟩
  · rintro ⟨h_id, h_market⟩
    refine ⟨entry.2, h_market, ?_⟩
    rw [Except.pure_eq_ok, ← h_id]

structure MarketsFound (g : StrategyGraph) (symbols timeframes : List (String × String)) : Prop where
  keys : symbols.map Prod.fst = sorted (declaredIds g .ACTION).eraseDups
  symbol : ∀ entry ∈ symbols, declaredTexts "symbol" (upstreamDataNodes g entry.1) = [entry.2]
  timeframe : ∀ entry ∈ timeframes,
    declaredTexts "timeframe" (upstreamDataNodes g entry.1) = [entry.2]

theorem mapM_marketEntry_keys {ids : List String} {entries : List (String × String × Option String)}
    (h : ids.mapM (marketEntry g) = .ok entries) : entries.map Prod.fst = ids := by
  have h_pairs := Except.forall₂_of_mapM_eq_ok h
  clear h
  induction h_pairs with
  | nil => rfl
  | cons h_head _ ih => rw [List.map_cons, ih, (marketEntry_eq_ok.mp h_head).1]

variable {symbols timeframes : List (String × String)}

theorem resolveActionMarkets_spec (h : resolveActionMarkets g = .ok (symbols, timeframes)) :
    MarketsFound g symbols timeframes := by
  obtain ⟨entries, h_entries, h_pair⟩ := Except.bind_eq_ok.mp h
  rw [Except.pure_eq_ok, Prod.mk.injEq] at h_pair
  obtain ⟨rfl, rfl⟩ := h_pair
  refine ⟨?_, fun entry h_entry => ?_, fun entry h_entry => ?_⟩
  · rw [List.map_map]
    exact mapM_marketEntry_keys h_entries
  · obtain ⟨found, h_found, rfl⟩ := List.mem_map.mp h_entry
    obtain ⟨actionId, -, h_ok⟩ := Except.exists_of_mem_mapM h_entries h_found
    obtain ⟨h_id, h_market⟩ := marketEntry_eq_ok.mp h_ok
    dsimp only
    rw [h_id]
    exact (marketOf_eq_ok h_market).1
  · obtain ⟨found, h_found, h_timeframe⟩ := List.mem_filterMap.mp h_entry
    obtain ⟨actionId, -, h_ok⟩ := Except.exists_of_mem_mapM h_entries h_found
    obtain ⟨h_id, h_market⟩ := marketEntry_eq_ok.mp h_ok
    obtain ⟨timeframe, h_some, rfl⟩ := Option.map_eq_some_iff.mp h_timeframe
    dsimp only
    rw [h_id]
    exact (marketOf_eq_ok h_market).2 timeframe h_some

theorem exists_resolveActionMarkets_iff :
    (∃ markets, resolveActionMarkets g = .ok markets) ↔ ∀ actionId ∈ declaredIds g .ACTION,
      ∃! symbol, symbol ∈ declaredTexts "symbol" (upstreamDataNodes g actionId) := by
  have h_mem : ∀ actionId, actionId ∈ sorted (declaredIds g .ACTION).eraseDups ↔
      actionId ∈ declaredIds g .ACTION := fun actionId => by
    rw [sorted, List.mem_insertionSort, List.mem_eraseDups]
  constructor
  · rintro ⟨markets, h_markets⟩ actionId h_action
    obtain ⟨entries, h_entries, -⟩ := Except.bind_eq_ok.mp h_markets
    obtain ⟨entry, -, h_entry⟩ := Except.exists_mem_mapM h_entries ((h_mem actionId).mpr h_action)
    exact exists_marketOf_iff.mp ⟨entry.2, (marketEntry_eq_ok.mp h_entry).2⟩
  · intro h_each
    have h_step : ∀ actionId ∈ sorted (declaredIds g .ACTION).eraseDups,
        ∃ entry, marketEntry g actionId = .ok entry := by
      intro actionId h_action
      obtain ⟨market, h_market⟩ := exists_marketOf_iff.mpr (h_each actionId ((h_mem actionId).mp h_action))
      exact ⟨(actionId, market), marketEntry_eq_ok.mpr ⟨rfl, h_market⟩⟩
    obtain ⟨entries, h_entries⟩ := Except.exists_mapM_eq_ok h_step
    exact ⟨_, Except.bind_eq_ok.mpr ⟨entries, h_entries, rfl⟩⟩

theorem Published.exists_markets_iff (h : Published registry g) :
    (∃ markets, resolveActionMarkets g = .ok markets) ↔ MarketsResolve registry g := by
  rw [exists_resolveActionMarkets_iff]
  simp only [h.mem_declaredTexts_symbol, declaredIds, List.forall_mem_map, List.mem_filter,
    decide_eq_true_eq, and_imp]
  refine forall₂_congr fun node h_node => ?_
  rw [h.category_eq_iff h_node]

/-! ## Assembling the plan -/

theorem strip_declaredText {text : String} {nodes : List NodeSpec}
    (h : text ∈ declaredTexts key nodes) : strip text = text ∧ text ≠ "" := by
  obtain ⟨node, -, raw, -, h_strip, h_ne⟩ := mem_declaredTexts.mp h
  rw [← h_strip]
  exact ⟨strip_strip raw, h_strip ▸ h_ne⟩

theorem asTextMap_eq_ok {field : String} {texts : List (String × String)}
    (h : ∀ entry ∈ texts, strip entry.2 = entry.2 ∧ entry.2 ≠ "") : asTextMap field texts = .ok texts := by
  unfold asTextMap
  induction texts with
  | nil => rfl
  | cons entry rest ih =>
    rw [List.forall_mem_cons] at h
    obtain ⟨⟨h_strip, h_ne⟩, h_rest⟩ := h
    rw [List.mapM_cons, ih h_rest, if_neg (by rw [h_strip]; exact h_ne), h_strip]
    rfl

variable {order : List String} {levels : List (List String)} {warmupBars : ℤ}

theorem checked_assembled (h : MarketsFound g symbols timeframes) :
    (CompiledPlan.assembled registry g order levels warmupBars (symbols, timeframes)).checked
      = .ok (CompiledPlan.assembled registry g order levels (max 0 warmupBars)
          (symbols, timeframes)) := by
  have h_hash : ¬ strip (computeDagHash g) = "" := by
    rw [strip_computeDagHash]
    exact computeDagHash_ne_empty g
  have h_symbols : asTextMap "action_symbols" symbols = .ok symbols :=
    asTextMap_eq_ok fun entry h_entry =>
      strip_declaredText (h.symbol entry h_entry ▸ List.mem_singleton_self entry.2)
  have h_timeframes : asTextMap "action_timeframes" timeframes = .ok timeframes :=
    asTextMap_eq_ok fun entry h_entry =>
      strip_declaredText (h.timeframe entry h_entry ▸ List.mem_singleton_self entry.2)
  unfold CompiledPlan.checked CompiledPlan.assembled
  dsimp only
  rw [Except.refuseIf, if_neg h_hash, h_symbols, h_timeframes, strip_computeDagHash]
  rfl

theorem fromGraph_eq_ok_iff (h_nodup : order.Nodup) (h_order : ∀ id, id ∈ order ↔ id ∈ g.nodeIds)
    {plan : CompiledPlan} :
    CompiledPlan.fromGraph registry g order levels warmupBars = .ok plan ↔
      ∃ symbols timeframes, resolveActionMarkets g = .ok (symbols, timeframes) ∧
        plan = CompiledPlan.assembled registry g order levels (max 0 warmupBars)
          (symbols, timeframes) := by
  have h_whole : ¬ ¬ (order.Nodup ∧ ∀ id, id ∈ order ++ g.nodeIds → id ∈ order ∧ id ∈ g.nodeIds) := by
    refine not_not.mpr ⟨h_nodup, fun id h_id => ?_⟩
    rcases List.mem_append.mp h_id with h_id | h_id
    · exact ⟨h_id, (h_order id).mp h_id⟩
    · exact ⟨(h_order id).mpr h_id, h_id⟩
  have h_built : CompiledPlan.fromGraph registry g order levels warmupBars
      = resolveActionMarkets g >>= fun markets =>
        (CompiledPlan.assembled registry g order levels warmupBars markets).checked := by
    unfold CompiledPlan.fromGraph
    rw [Except.refuseIf, if_neg h_whole]
    rfl
  rw [h_built, Except.bind_eq_ok]
  constructor
  · rintro ⟨⟨symbols, timeframes⟩, h_markets, h_plan⟩
    rw [checked_assembled (resolveActionMarkets_spec h_markets)] at h_plan
    exact ⟨symbols, timeframes, h_markets, (Except.ok.inj h_plan).symm⟩
  · rintro ⟨symbols, timeframes, h_markets, rfl⟩
    exact ⟨(symbols, timeframes), h_markets, checked_assembled (resolveActionMarkets_spec h_markets)⟩

/-! ## The plan's own checks -/

theorem depthFrom_eq (h_nodup : levels.flatten.Nodup) {nodeId : String}
    (h_mem : nodeId ∈ levels.flatten) (index : ℕ) :
    depthFrom index levels nodeId = some (index + levels.findIdx (nodeId ∈ ·)) := by
  induction levels generalizing index with
  | nil => cases h_mem
  | cons level rest ih =>
    rw [List.flatten_cons] at h_nodup h_mem
    rw [depthFrom, List.findIdx_cons]
    by_cases h_level : nodeId ∈ level
    · have h_later : nodeId ∉ rest.flatten := fun h_rest =>
        (List.disjoint_of_nodup_append h_nodup) h_level h_rest
      have h_none : ∀ index, depthFrom index rest nodeId = none := by
        clear ih h_nodup h_mem
        induction rest with
        | nil => exact fun _ => rfl
        | cons level' rest ih =>
          rw [List.flatten_cons, List.mem_append, not_or] at h_later
          intro index
          rw [depthFrom, ih h_later.2, if_neg h_later.1]
          rfl
      rw [h_none, if_pos h_level]
      simp [h_level]
    · have h_rest := (List.mem_append.mp h_mem).resolve_left h_level
      rw [ih (List.nodup_append.mp h_nodup).2.1 h_rest]
      simp [h_level]
      omega

theorem lookup_of_mem {l : List (String × String)} (h : key ∈ l.map Prod.fst) :
    ∃ value, l.lookup key = some value ∧ (key, value) ∈ l := by
  induction l with
  | nil => cases h
  | cons entry rest ih =>
    obtain ⟨key', value⟩ := entry
    rw [List.lookup_cons]
    by_cases h_key : key = key'
    · subst h_key
      exact ⟨value, by simp, List.mem_cons_self⟩
    · rw [List.map_cons, List.mem_cons] at h
      obtain ⟨found, h_lookup, h_mem⟩ := ih (h.resolve_left h_key)
      refine ⟨found, ?_, List.mem_cons_of_mem _ h_mem⟩
      have h_beq : (key == key') = false := beq_eq_false_iff_ne.mpr h_key
      rw [h_beq]
      exact h_lookup

namespace Published

variable (h : Published registry g)
include h

theorem mem_idsInOrder (h_order : ∀ id, id ∈ order ↔ id ∈ g.nodeIds) {nodeId : String} :
    nodeId ∈ idsInOrder g order category ↔ nodeId ∈ declaredIds g category := by
  rw [idsInOrder, declaredIds, List.mem_filter, List.mem_map, h_order]
  constructor
  · rintro ⟨-, h_category⟩
    cases h_index : g.nodeIndex nodeId with
    | none =>
      rw [h_index] at h_category
      cases h_category
    | some node =>
      rw [h_index] at h_category
      obtain ⟨h_mem, h_id⟩ := StrategyGraph.nodeIndex_eq_some h_index
      exact ⟨node, List.mem_filter.mpr ⟨h_mem, h_category⟩, h_id⟩
  · rintro ⟨node, h_node, rfl⟩
    obtain ⟨h_mem, h_category⟩ := List.mem_filter.mp h_node
    refine ⟨StrategyGraph.mem_nodeIds.mpr ⟨node, h_mem, rfl⟩, ?_⟩
    rw [StrategyGraph.nodeIndex_of_mem h.resolved.nodup h_mem]
    exact h_category

/-- A plan with every market, in a topological order and levels, is let out. -/
theorem assertPlanPostconditions_eq_ok (h_order : TopologicalOrder g.nodeIds (arcs g) order)
    (h_levels : Levelling g.nodeIds (arcs g) levels) (h_data : declaredIds g .DATA ≠ [])
    (h_action : declaredIds g .ACTION ≠ []) (h_markets : MarketsFound g symbols timeframes) :
    assertPlanPostconditions
      (CompiledPlan.assembled registry g order levels warmupBars (symbols, timeframes)) g = .ok () := by
  have h_ids : ∀ category id, id ∈ idsInOrder g order category ↔ id ∈ declaredIds g category :=
    fun _ _ => h.mem_idsInOrder h_order.mem_iff
  have h_nonempty : ∀ category, declaredIds g category ≠ [] → idsInOrder g order category ≠ [] := by
    intro category h_ne h_nil
    obtain ⟨id, h_id⟩ := List.exists_mem_of_ne_nil _ h_ne
    have h_mem := (h_ids category id).mpr h_id
    rw [h_nil] at h_mem
    cases h_mem
  have h_key : ∀ id, id ∈ symbols.map Prod.fst ↔ id ∈ declaredIds g .ACTION := by
    intro id
    rw [h_markets.keys, sorted, List.mem_insertionSort, List.mem_eraseDups]
  have h_length : order.length = g.nodeIds.eraseDups.length :=
    ((List.perm_ext_iff_of_nodup h_order.nodup (List.nodup_eraseDups _)).mpr fun id =>
      (h_order.mem_iff id).trans List.mem_eraseDups.symm).length_eq
  have h_level_length : levels.flatten.eraseDups.length = g.nodeIds.eraseDups.length :=
    ((List.perm_ext_iff_of_nodup (List.nodup_eraseDups _) (List.nodup_eraseDups _)).mpr fun id => by
      rw [List.mem_eraseDups, List.mem_eraseDups, h_levels.mem_iff]).length_eq
  have h_depth : ∀ id ∈ g.nodeIds, depthFrom 0 levels id = some (levels.findIdx (id ∈ ·)) := by
    intro id h_id
    rw [depthFrom_eq h_levels.nodup ((h_levels.mem_iff id).mpr h_id), Nat.zero_add]
  unfold assertPlanPostconditions CompiledPlan.assembled
  refine Except.bind_eq_ok.mpr ⟨(), Except.refuseIf_eq_ok.mpr ?_, ?_⟩
  · rintro (⟨id, h_id, h_missing⟩ | h_ne)
    · rw [List.mem_append, List.mem_eraseDups, h_order.mem_iff, or_self] at h_id
      rw [List.mem_eraseDups, h_order.mem_iff, or_self] at h_missing
      exact h_missing h_id
    · exact h_ne h_length
  refine Except.bind_eq_ok.mpr ⟨(), Except.refuseIf_eq_ok.mpr (fun h_ne => h_ne rfl), ?_⟩
  refine Except.bind_eq_ok.mpr ⟨(), Except.refuseIf_eq_ok.mpr (h_nonempty .DATA h_data), ?_⟩
  refine Except.bind_eq_ok.mpr ⟨(), Except.refuseIf_eq_ok.mpr (h_nonempty .ACTION h_action), ?_⟩
  refine Except.bind_eq_ok.mpr ⟨(), Except.refuseIf_eq_ok.mpr (not_not.mpr ?_), ?_⟩
  · rw [List.filter_eq_nil_iff]
    intro actionId h_actionId
    obtain ⟨symbol, h_lookup, h_entry⟩ := lookup_of_mem ((h_key actionId).mpr ((h_ids _ _).mp h_actionId))
    obtain ⟨h_strip, h_ne⟩ :=
      strip_declaredText (h_markets.symbol _ h_entry ▸ List.mem_singleton_self symbol)
    rw [h_lookup, Option.getD_some, h_strip]
    simp [h_ne]
  refine Except.bind_eq_ok.mpr ⟨(), Except.refuseIf_eq_ok.mpr (not_not.mpr ?_), ?_⟩
  · rw [List.filter_eq_nil_iff]
    intro id h_id
    rw [decide_eq_true_eq, not_not, h_ids, ← h_key]
    exact h_id
  refine Except.bind_eq_ok.mpr ⟨(), Except.refuseIf_eq_ok.mpr ?_, ?_⟩
  · rintro ⟨edge, h_edge, h_backward⟩
    obtain ⟨h_source, h_target⟩ := h.ends edge h_edge
    have h_arc : Arc (arcs g) edge.source edge.target := h.mem_arcs_iff.mpr ⟨edge, h_edge, rfl, rfl⟩
    have h_before := h_order.forward _ _ h_arc
    rcases h_backward with h_missing | h_missing | h_backward
    · exact h_missing ((h_order.mem_iff _).mpr h_source)
    · exact h_missing ((h_order.mem_iff _).mpr h_target)
    · exact absurd h_before (Nat.not_lt.mpr h_backward)
  refine Except.bind_eq_ok.mpr ⟨(), Except.refuseIf_eq_ok.mpr (not_not.mpr h_level_length), ?_⟩
  refine Except.refuseIf_eq_ok.mpr ?_
  rintro ⟨entry, h_entry, predecessor, h_predecessor, h_backward⟩
  obtain ⟨nodeId, -, rfl⟩ := List.mem_map.mp h_entry
  have h_arc := h.mem_predecessors.mp h_predecessor
  have h_known := arcs_known h_arc
  have h_before := h_levels.forward _ _ h_arc
  dsimp only at h_backward
  rw [h_depth _ h_known.1, h_depth _ h_known.2, isBefore, decide_eq_true_eq] at h_backward
  exact h_backward h_before

end Published

/-! ## Validated graphs -/

/-- What the engine relies on in a plan of a graph. -/
structure Executable (g : StrategyGraph) (plan : CompiledPlan) : Prop where
  /-- Every action has one market, and it is no blank. -/
  market : ∀ node ∈ g.nodes, node.category = .ACTION →
    ∃ symbol, symbol ≠ "" ∧ ∀ other, (node.id, other) ∈ plan.actionSymbols ↔ other = symbol
  order : TopologicalOrder g.nodeIds (arcs g) plan.executionOrder
  levels : Levelling g.nodeIds (arcs g) plan.executionLevels

theorem executable_assembled (h_order : TopologicalOrder g.nodeIds (arcs g) order)
    (h_levels : Levelling g.nodeIds (arcs g) levels)
    (h_markets : MarketsFound g symbols timeframes) :
    Executable g (CompiledPlan.assembled registry g order levels warmupBars (symbols, timeframes)) where
  market := by
    intro node h_node h_action
    have h_key : node.id ∈ symbols.map Prod.fst := by
      rw [h_markets.keys, sorted, List.mem_insertionSort, List.mem_eraseDups]
      exact List.mem_map_of_mem (List.mem_filter.mpr ⟨h_node, decide_eq_true h_action⟩)
    obtain ⟨symbol, -, h_entry⟩ := lookup_of_mem h_key
    have h_symbol := h_markets.symbol _ h_entry
    refine ⟨symbol, (strip_declaredText (h_symbol ▸ List.mem_singleton_self symbol)).2, fun other => ?_⟩
    constructor
    · intro h_other
      have h_same := (h_markets.symbol _ h_other).symm.trans h_symbol
      exact List.singleton_inj.mp h_same
    · rintro rfl
      exact h_entry
  order := h_order
  levels := h_levels

theorem declaredIds_eq_nil_iff (h : Published registry g) :
    declaredIds g category = [] ↔ idsIn registry g category = [] := by
  rw [declaredIds, idsIn, List.map_eq_nil_iff, List.map_eq_nil_iff, List.filter_eq_nil_iff,
    List.filter_eq_nil_iff]
  refine forall₂_congr fun node h_node => ?_
  obtain ⟨descriptor, h_descriptor⟩ := h.resolved.published node h_node
  rw [categoryIn_eq ((descriptorOf_of_mem h.resolved.nodup h_node).trans h_descriptor),
    h.category node h_node descriptor h_descriptor]

theorem Clear.idsIn_ne_nil (h_clear : Clear registry options g) :
    idsIn registry g .DATA ≠ [] ∧ idsIn registry g .ACTION ≠ [] := by
  have h_missing : ([idsIn registry g .DATA, idsIn registry g .ACTION].filter List.isEmpty) = [] := by
    by_contra h_ne
    obtain ⟨ids, h_ids⟩ := List.exists_mem_of_ne_nil _ h_ne
    refine h_clear.executionPath ⟨.MISSING_REQUIRED_CATEGORY, .error, none, none, "category"⟩ ?_ rfl
    exact List.mem_append_left _ (List.mem_map.mpr ⟨ids, h_ids, rfl⟩)
  rw [List.filter_eq_nil_iff] at h_missing
  refine ⟨fun h_nil => h_missing _ List.mem_cons_self (by rw [h_nil]; rfl), fun h_nil => ?_⟩
  exact h_missing _ (List.mem_cons_of_mem _ List.mem_cons_self) (by rw [h_nil]; rfl)

theorem clear_withMigration_iff :
    Clear registry { options with includeMigrationIssues := true } g ∧ Clear registry options g ↔
      Clear registry options g ∧ NoErrors (g.migrationIssues.map RawIssue.migrated) := by
  constructor
  · rintro ⟨h_with, h_clear⟩
    exact ⟨h_clear, h_with.migration⟩
  · rintro ⟨h_clear, h_migration⟩
    exact ⟨{ h_clear with migration := h_migration }, h_clear⟩

theorem recomputeGraph_recomputeGraph (h_resolved : Resolved registry g) (state : ValidationState) :
    recomputeGraph registry (recomputeGraph registry g state) state = recomputeGraph registry g state := by
  have h_authored : (recomputeGraph registry g state).authored = g.authored := authored_recomputeGraph
  have h_descriptors : descriptorOf registry (recomputeGraph registry g state) = descriptorOf registry g :=
    (h_resolved.descriptorOf_congr h_authored.symm).symm
  have h_node : ∀ node, recomputeNode registry (recomputeGraph registry g state)
      (recomputeNode registry g node) = recomputeNode registry g node := by
    intro node
    have h_id : (recomputeNode registry g node).id = node.id :=
      congrArg AuthoredNode.id (authored_recomputeNode node)
    cases h_descriptor : descriptorOf registry g node.id with
    | none =>
      have h_kept : recomputeNode registry g node = node := by rw [recomputeNode, h_descriptor]
      rw [h_kept, recomputeNode, h_descriptors, h_descriptor]
    | some descriptor => simp only [recomputeNode, h_descriptors, h_descriptor]
  have h_edge : ∀ edge, recomputeEdge registry (recomputeGraph registry g state)
      (recomputeEdge registry g edge) = recomputeEdge registry g edge := by
    intro edge
    have h_type : sourceType registry (recomputeGraph registry g state) (recomputeEdge registry g edge)
        = sourceType registry g edge := by
      unfold sourceType
      rw [h_descriptors]
      rfl
    unfold recomputeEdge at h_type ⊢
    rw [h_type]
    cases sourceType registry g edge <;> rfl
  have h_nodes : (g.nodes.map (recomputeNode registry g)).map
      (recomputeNode registry (recomputeGraph registry g state)) = g.nodes.map (recomputeNode registry g) := by
    rw [List.map_map]
    exact List.map_congr_left fun node _ => h_node node
  have h_edges : (g.edges.map (recomputeEdge registry g)).map
      (recomputeEdge registry (recomputeGraph registry g state)) = g.edges.map (recomputeEdge registry g) := by
    rw [List.map_map]
    exact List.map_congr_left fun edge _ => h_edge edge
  unfold recomputeGraph at h_nodes h_edges ⊢
  dsimp only
  rw [h_nodes, h_edges]

theorem orderFor_eq_ok {report : ValidationReport} (h_nodup : g.nodeIds.Nodup)
    (h_order : TopologicalOrder g.nodeIds (arcs g) order)
    (h_report : report.executionOrder = some order)
    (h_levels : report.executionLevels = some levels) :
    orderFor g report = .ok (order, levels) := by
  have h_length : order.length = g.nodes.length := by
    rw [((List.perm_ext_iff_of_nodup h_order.nodup h_nodup).mpr h_order.mem_iff).length_eq,
      StrategyGraph.nodeIds, List.length_map]
  unfold orderFor
  rw [h_report, h_levels]
  exact if_neg (not_not.mpr h_length)

theorem compilePlan_recomputeGraph_iff
    (h_clear : Clear registry { options with includeMigrationIssues := true } g) :
    (∃ plan, compilePlan registry options (recomputeGraph registry g .VALID) = .ok plan ∧
        Executable (recomputeGraph registry g .VALID) plan) ↔ MarketsResolve registry g := by
  have h_authored : g.authored = (recomputeGraph registry g .VALID).authored :=
    authored_recomputeGraph.symm
  have h_published : Published registry (recomputeGraph registry g .VALID) := h_clear.published .VALID
  have h_again := h_clear.congr h_authored
  obtain ⟨report, h_report, h_valid⟩ := validates_iff.mpr h_again
  have h_errors : report.errors = [] := List.isEmpty_iff.mp h_valid
  have h_canonical := canonicalGraph_of_valid h_report h_valid
  rw [recomputeGraph_recomputeGraph h_clear.resolved] at h_canonical
  obtain ⟨levels, h_found, -, h_order, h_levels⟩ := executionOrder_spec h_again.acyclic
  have h_orderFor : orderFor (recomputeGraph registry g .VALID) report = .ok (levels.flatten, levels) := by
    refine orderFor_eq_ok h_published.resolved.nodup h_order ?_ ?_
    · rw [(order_eq h_report).1, h_found]
      rfl
    · rw [(order_eq h_report).2, h_found]
      rfl
  obtain ⟨h_data, h_action⟩ := h_again.idsIn_ne_nil
  have h_fromGraph : ∀ plan, CompiledPlan.fromGraph registry (recomputeGraph registry g .VALID)
      levels.flatten levels (report.warmupBars.getD 0) = .ok plan ↔ _ :=
    fun _ => fromGraph_eq_ok_iff h_order.nodup h_order.mem_iff
  have h_assembly (error) (h_built : CompiledPlan.fromGraph registry
      (recomputeGraph registry g .VALID) levels.flatten levels (report.warmupBars.getD 0)
        = .error error) :
      compilePlan registry options (recomputeGraph registry g .VALID) = .error (.assembly error) := by
    unfold compilePlan
    rw [h_report]
    dsimp only
    rw [if_neg (not_not.mpr h_errors), h_canonical, h_orderFor]
    dsimp only [bind, Except.bind]
    rw [h_built]
  have h_compile (plan) (h_built : CompiledPlan.fromGraph registry
      (recomputeGraph registry g .VALID) levels.flatten levels (report.warmupBars.getD 0) = .ok plan) :
      compilePlan registry options (recomputeGraph registry g .VALID) =
        (assertPlanPostconditions plan (recomputeGraph registry g .VALID)).bind
          fun _ => .ok plan := by
    unfold compilePlan
    rw [h_report]
    dsimp only
    rw [if_neg (not_not.mpr h_errors), h_canonical, h_orderFor]
    dsimp only [bind, Except.bind]
    rw [h_built]
    rfl
  have h_markets : MarketsResolve registry g ↔ MarketsResolve registry (recomputeGraph registry g .VALID) :=
    ⟨MarketsResolve.congr h_authored, MarketsResolve.congr h_authored.symm⟩
  rw [h_markets, ← h_published.exists_markets_iff]
  constructor
  · rintro ⟨plan, h_plan, -⟩
    cases h_built : CompiledPlan.fromGraph registry (recomputeGraph registry g .VALID) levels.flatten
        levels (report.warmupBars.getD 0) with
    | error error =>
      rw [h_assembly error h_built] at h_plan
      cases h_plan
    | ok built =>
      obtain ⟨symbols, timeframes, h_resolved, -⟩ := (h_fromGraph built).mp h_built
      exact ⟨_, h_resolved⟩
  · rintro ⟨⟨symbols, timeframes⟩, h_resolved⟩
    have h_found := resolveActionMarkets_spec h_resolved
    have h_built := (h_fromGraph _).mpr ⟨symbols, timeframes, h_resolved, rfl⟩
    have h_executable : Executable (recomputeGraph registry g .VALID)
        (CompiledPlan.assembled registry (recomputeGraph registry g .VALID) levels.flatten levels
          (max 0 (report.warmupBars.getD 0)) (symbols, timeframes)) :=
      executable_assembled h_order h_levels h_found
    refine ⟨_, ?_, h_executable⟩
    rw [h_compile _ h_built]
    rw [h_published.assertPlanPostconditions_eq_ok h_order h_levels
      (mt (declaredIds_eq_nil_iff h_published).mp h_data)
      (mt (declaredIds_eq_nil_iff h_published).mp h_action) h_found]
    rfl

/-- A validated graph compiles, to a plan that the engine can rely on, exactly when every
    action has one symbol upstream and no issue of the migration is an error. -/
theorem compilePlan_canonicalGraph_iff (registry : Registry) (options : Options) (g : StrategyGraph)
    (report : ValidationReport) (h_report : validate registry options g = .ok report)
    (h_valid : report.valid = true) :
    (∃ plan, compilePlan registry options report.canonicalGraph = .ok plan ∧
        Executable report.canonicalGraph plan) ↔
      MarketsResolve registry g ∧ NoErrors (g.migrationIssues.map RawIssue.migrated) := by
  have h_clear := validates_iff.mp ((valid_iff_validates h_report).mp h_valid)
  rw [canonicalGraph_of_valid h_report h_valid]
  by_cases h_migration : NoErrors (g.migrationIssues.map RawIssue.migrated)
  · have h_with := (clear_withMigration_iff.mpr ⟨h_clear, h_migration⟩).1
    rw [compilePlan_recomputeGraph_iff h_with, and_iff_left h_migration]
  · refine iff_of_false ?_ fun h => h_migration h.2
    rintro ⟨plan, h_plan, -⟩
    unfold compilePlan at h_plan
    split at h_plan
    · cases h_plan
    · rename_i refused h_refused
      split at h_plan
      · cases h_plan
      · rename_i h_none
        have h_with := validates_iff.mp ⟨refused, h_refused, List.isEmpty_iff.mpr (not_not.mp h_none)⟩
        exact h_migration h_with.migration

/-! ### An action that only a constant feeds -/

def inPort (name : String) (type : PortType) : Port :=
  { name := name, type := type, required := true, variadic := false, description := "" }

def outPort (name : String) (type : PortType) : Port :=
  { name := name, type := type, required := false, variadic := false, description := "" }

def plainBlock (category : BlockCategory) (inputs outputs : List Port)
    (successors : List BlockCategory) : BlockDescriptor :=
  { category := category, inputs := inputs, outputs := outputs, params := []
    warmupFn := fun _ => some 0, allowedSuccessorCategories := successors
    executionSemantics := if category = .ACTION then .TERMINAL else .SERIES_MAP
    leakageRisk := .NONE, capabilityFlags := [], validate := none
    metadata := { operator := "", globalStatisticBlock := false, leakyOutputs := [], model := none } }

/-- A feed, a constant, a comparison, a signal and an order. -/
def orderRegistry : Registry
  | "ohlcv_feed" => some feedBlock
  | "constant" => some (plainBlock .MATH [] [outPort "value" .SCALAR] [.LOGIC])
  | "gt" => some (plainBlock .LOGIC [inPort "left" .SCALAR_SERIES, inPort "right" .SCALAR_SERIES]
      [outPort "out" .BOOLEAN_SERIES] [.LOGIC, .ACTION])
  | "to_signal" => some (plainBlock .LOGIC [inPort "condition" .BOOLEAN_SERIES]
      [outPort "out" .SIGNAL] [.ACTION])
  | "action_buy_market" => some (plainBlock .ACTION [inPort "signal" .SIGNAL] [] [])
  | _ => none

def plainNode (id blockId : String) (category : BlockCategory) : NodeSpec :=
  { id := id, blockId := blockId, category := category, params := [], inputs := [], outputs := []
    ui := [] }

def edgeFrom (source sourcePort target targetPort : String) : EdgeSpec :=
  { id := source ++ sourcePort ++ target ++ targetPort, source := source, sourcePort := sourcePort
    target := target, targetPort := targetPort, type := none }

/-- The first action compares the feed with a constant, the second a constant with itself. -/
def twoActions : StrategyGraph :=
  { schemaVersion := 2, strategyId := "s1", version := "1", name := "strategy"
    nodes :=
      [feedNode "BTC/USDT", plainNode "c" "constant" .MATH, plainNode "g1" "gt" .LOGIC,
        plainNode "g2" "gt" .LOGIC, plainNode "s1" "to_signal" .LOGIC,
        plainNode "s2" "to_signal" .LOGIC, plainNode "a1" "action_buy_market" .ACTION,
        plainNode "a2" "action_buy_market" .ACTION]
    edges :=
      [edgeFrom "n1" "close" "g1" "left", edgeFrom "c" "value" "g1" "right",
        edgeFrom "c" "value" "g2" "left", edgeFrom "c" "value" "g2" "right",
        edgeFrom "g1" "out" "s1" "condition", edgeFrom "g2" "out" "s2" "condition",
        edgeFrom "s1" "out" "a1" "signal", edgeFrom "s2" "out" "a2" "signal"]
    migrationIssues := [], validationState := .UNVALIDATED }

theorem twoActions_refused :
    ∃ report, validate orderRegistry {} twoActions = .ok report ∧ report.valid = true ∧
      (compilePlan orderRegistry {} report.canonicalGraph).toOption.isNone := by
  have h_run : ((validate orderRegistry {} twoActions).toOption.any fun report =>
      report.valid && (compilePlan orderRegistry {} report.canonicalGraph).toOption.isNone) = true := by
    decide +kernel
  cases h_report : validate orderRegistry {} twoActions with
  | error e =>
    rw [h_report] at h_run
    cases h_run
  | ok report =>
    rw [h_report] at h_run
    obtain ⟨h_valid, h_none⟩ := Bool.and_eq_true_iff.mp h_run
    exact ⟨report, rfl, h_valid, h_none⟩

theorem compilePlan_canonicalGraph_iff_twoActions :
    ∃ report, validate orderRegistry {} twoActions = .ok report ∧
      ((∃ plan, compilePlan orderRegistry {} report.canonicalGraph = .ok plan ∧
          Executable report.canonicalGraph plan) ↔
        MarketsResolve orderRegistry twoActions ∧
          NoErrors (twoActions.migrationIssues.map RawIssue.migrated)) := by
  obtain ⟨report, h_report, h_valid, -⟩ := twoActions_refused
  exact ⟨report, h_report,
    compilePlan_canonicalGraph_iff orderRegistry {} twoActions report h_report h_valid⟩

theorem validated_not_compiled :
    ¬ ∀ (registry : Registry) (options : Options) (g : StrategyGraph) (report : ValidationReport),
      validate registry options g = .ok report → report.valid = true →
        ∃ plan, compilePlan registry options report.canonicalGraph = .ok plan ∧
          Executable report.canonicalGraph plan := by
  intro h
  obtain ⟨report, h_report, h_valid, h_none⟩ := twoActions_refused
  obtain ⟨plan, h_plan, -⟩ := h orderRegistry {} twoActions report h_report h_valid
  rw [h_plan] at h_none
  cases h_none

end VyomQuant.StrategyDag
