/-
  VyomQuant.StrategyDag.Parameters

  What a valid graph says of its parameters (`validated_params`): every declared one passed
  the check of its type, item by item where a list was given.  A parameter that is not
  required may have no value at all.
-/

import VyomQuant.StrategyDag.ValidatedCompiles

namespace VyomQuant.StrategyDag

variable {registry : Registry} {options : Options} {g : StrategyGraph}

/-! ## One parameter -/

def Value.number? : Value → Option Extended
  | .scalar s => s.number?
  | _ => none

/-- A number that is not outside the declared bounds. -/
structure InBounds (param : ParamSpec) (x : Extended) : Prop where
  least : ∀ least, bound param.min = some least → x.lt least = false
  most : ∀ most, bound param.max = some most → most.lt x = false

/-- What the check lets through.  A value that is missing has a default or is not required;
    a value that is there, or each item of a list, is of the declared type. -/
structure Accepted (param : ParamSpec) (value : Value) : Prop where
  given : isNone value = true → param.required = true → isNone param.default = false
  options : isNone value = false → ∀ options, param.options = some options →
    ∀ item ∈ itemsOf value, inOptions options item = true
  number : isNone value = false → param.type = .NUMBER →
    ∀ item ∈ itemsOf value, ∃ x, item.number? = some x ∧ InBounds param x
  integer : isNone value = false → param.type = .INTEGER →
    ∀ item ∈ itemsOf value, ∃ n : ℤ, item.number? = some (.real n) ∧ InBounds param (.real n)
  boolean : isNone value = false → param.type = .BOOLEAN → isBool value = true

theorem exists_int_of_notWhole {s : Scalar} {x : Extended} (h_x : s.number? = some x)
    (h : notWhole s = .ok false) : ∃ n : ℤ, x = .real n := by
  cases s with
  | none => cases h_x
  | bool b => cases h_x
  | str text => cases h_x
  | int n => exact ⟨n, (Option.some.inj h_x).symm⟩
  | float y =>
    cases y with
    | nan => cases h
    | infinity negative => cases h
    | finite negative digits exponent =>
      have h_den : (finiteValue negative digits exponent).den = 1 := by
        change Except.ok (decide ((finiteValue negative digits exponent).den ≠ 1)) = _ at h
        rw [Except.ok.injEq, decide_eq_false_iff_not, not_not] at h
        exact h
      refine ⟨(finiteValue negative digits exponent).num, (Option.some.inj h_x).symm.trans ?_⟩
      rw [PyFloat.extended, Rat.coe_int_num_of_den_eq_one h_den]

/-- An item of which nothing is said is a number within its bounds, and a whole one for an
    integer. -/
theorem numericProblems_eq_nil {param : ParamSpec} {item : Value}
    (h_type : param.type ≠ .MULTISELECT) (h : numericProblems param item = .ok []) :
    ∃ x, item.number? = some x ∧ InBounds param x ∧
      (param.type = .INTEGER → ∃ n : ℤ, x = .real n) := by
  unfold numericProblems at h
  split at h
  · rename_i s
    split at h
    · rename_i x h_x
      -- whether the number is whole is asked of an integer only
      have h_run : ∃ fractional, (param.type = .INTEGER → notWhole s = .ok fractional) ∧
          Except.ok (((if fractional then [.notWhole] else []) ++
            (bound param.min).elim [] fun least => if x.lt least then [.tooSmall] else []) ++
            (bound param.max).elim [] fun most => if most.lt x then [.tooLarge] else [])
            = (Except.ok [] : Except Unreadable (List ParamProblem)) := by
        dsimp only at h
        split at h
        · obtain ⟨fractional, h_fractional, h_rest⟩ := Except.bind_eq_ok.mp h
          refine ⟨fractional, fun _ => h_fractional, ?_⟩
          revert h_rest
          cases bound param.min <;> cases bound param.max <;> exact id
        · rename_i h_not
          refine ⟨false, fun h_integer => absurd h_integer h_not, ?_⟩
          revert h
          cases bound param.min <;> cases bound param.max <;> exact id
      obtain ⟨fractional, h_fractional, h_problems⟩ := h_run
      rw [Except.ok.injEq, List.append_eq_nil_iff, List.append_eq_nil_iff] at h_problems
      obtain ⟨⟨h_whole, h_least⟩, h_most⟩ := h_problems
      refine ⟨x, h_x, ⟨fun least h_bound => ?_, fun most h_bound => ?_⟩, fun h_integer => ?_⟩
      · rw [h_bound] at h_least
        simpa using h_least
      · rw [h_bound] at h_most
        simpa using h_most
      · have h_not : fractional = false := by simpa using h_whole
        exact exists_int_of_notWhole h_x (h_not ▸ h_fractional h_integer)
    · rw [if_neg h_type] at h
      cases h
  · rw [if_neg h_type] at h
    cases h

theorem paramProblems_eq_nil {param : ParamSpec} {value : Value} (h_value : isNone value = false)
    (h : paramProblems param value = .ok []) :
    (∀ options, param.options = some options → ∀ item ∈ itemsOf value,
        inOptions options item = true) ∧
      (param.type = .NUMBER ∨ param.type = .INTEGER ∨ param.type = .MULTISELECT →
        ∀ item ∈ itemsOf value, numericProblems param item = .ok []) ∧
      (param.type = .BOOLEAN → isBool value = true) := by
  rw [paramProblems, if_neg (by simp [h_value])] at h
  have h_run : ∃ numeric, (param.type = .NUMBER ∨ param.type = .INTEGER ∨
      param.type = .MULTISELECT → (itemsOf value).mapM (numericProblems param) = .ok numeric) ∧
        Except.ok ((param.options.elim [] fun options =>
            if (itemsOf value).any fun item => !inOptions options item then [.notInOptions] else [])
              ++ numeric.flatten ++
            if param.type = .BOOLEAN && !isBool value then [.notABoolean] else [])
          = (Except.ok [] : Except Unreadable (List ParamProblem)) := by
    dsimp only at h
    split at h
    · obtain ⟨numeric, h_numeric, h_rest⟩ := Except.bind_eq_ok.mp h
      refine ⟨numeric, fun _ => h_numeric, ?_⟩
      revert h_rest
      cases param.options <;> exact id
    · rename_i h_not
      refine ⟨[], fun h_type => absurd h_type h_not, ?_⟩
      revert h
      cases param.options <;> exact id
  obtain ⟨numeric, h_numeric, h_problems⟩ := h_run
  rw [Except.ok.injEq, List.append_eq_nil_iff, List.append_eq_nil_iff] at h_problems
  obtain ⟨⟨h_options, h_flatten⟩, h_boolean⟩ := h_problems
  refine ⟨fun options h_some item h_item => ?_, fun h_type item h_item => ?_, fun h_type => ?_⟩
  · rw [h_some] at h_options
    by_contra h_not
    have h_any : ((itemsOf value).any fun item => !inOptions options item) = true :=
      List.any_eq_true.mpr ⟨item, h_item, by simpa using h_not⟩
    rw [Option.elim_some] at h_options
    rw [if_pos h_any] at h_options
    cases h_options
  · obtain ⟨problems, h_problems, h_eq⟩ := Except.exists_mem_mapM (h_numeric h_type) h_item
    rw [h_eq, List.flatten_eq_nil_iff.mp h_flatten problems h_problems]
  · simpa [h_type] using h_boolean

theorem accepted_of_paramProblems {param : ParamSpec} {value : Value}
    (h : paramProblems param value = .ok []) : Accepted param value where
  given := by
    intro h_none h_required
    rw [paramProblems, if_pos h_none, h_required] at h
    simpa using h
  options := fun h_value => (paramProblems_eq_nil h_value h).1
  number := by
    intro h_value h_type item h_item
    have h_item_ok := (paramProblems_eq_nil h_value h).2.1 (.inl h_type) item h_item
    obtain ⟨x, h_x, h_bounds, -⟩ := numericProblems_eq_nil (by rw [h_type]; nofun) h_item_ok
    exact ⟨x, h_x, h_bounds⟩
  integer := by
    intro h_value h_type item h_item
    have h_item_ok := (paramProblems_eq_nil h_value h).2.1 (.inr (.inl h_type)) item h_item
    obtain ⟨x, h_x, h_bounds, h_whole⟩ :=
      numericProblems_eq_nil (by rw [h_type]; nofun) h_item_ok
    obtain ⟨n, rfl⟩ := h_whole h_type
    exact ⟨n, h_x, h_bounds⟩
  boolean := fun h_value => (paramProblems_eq_nil h_value h).2.2

/-! ## A valid graph -/

theorem Clear.paramProblems (h : Clear registry options g) {node : NodeSpec}
    (h_node : node ∈ g.nodes) {descriptor : BlockDescriptor}
    (h_descriptor : registry node.blockId = some descriptor) {param : ParamSpec}
    (h_param : param ∈ descriptor.params) :
    StrategyDag.paramProblems param (node.params.get param.key) = .ok [] := by
  obtain ⟨found, h_found, h_none⟩ := h.params
  obtain ⟨issues, h_issues, rfl⟩ := Except.bind_pure_eq_ok.mp h_found
  obtain ⟨nodeIssues, h_mem, h_nodeIssues⟩ := Except.exists_mem_mapM h_issues h_node
  rw [nodeParamIssues, descriptorOf_of_mem h.resolved.nodup h_node, h_descriptor] at h_nodeIssues
  obtain ⟨problems, h_problems, h_rest⟩ := Except.bind_eq_ok.mp h_nodeIssues
  obtain ⟨crossField, -, rfl⟩ := Except.bind_pure_eq_ok.mp h_rest
  obtain ⟨paramIssues, h_paramIssues, h_run⟩ := Except.exists_mem_mapM h_problems h_param
  obtain ⟨found', h_found', h_map⟩ := Except.bind_eq_ok.mp h_run
  cases h_map
  -- every problem is an error, and the graph has none
  cases found' with
  | nil => exact h_found'
  | cons problem rest =>
    refine absurd rfl (h_none { code := problem.code, severity := .error, nodeId := node.id
                                field := param.key } ?_)
    refine List.mem_flatten.mpr ⟨_, h_mem, ?_⟩
    rw [List.mem_append, List.mem_append]
    exact .inl (.inl (List.mem_flatten.mpr ⟨_, h_paramIssues, List.mem_map.mpr
      ⟨problem, List.mem_cons_self, rfl⟩⟩))

/-- Every node of a valid graph is of a published block, and every parameter that the block
    declares passed its check. -/
theorem validated_params (registry : Registry) (options : Options) (g : StrategyGraph)
    (h : Validates registry options g) :
    ∀ node ∈ g.nodes, ∃ descriptor, registry node.blockId = some descriptor ∧
      ∀ param ∈ descriptor.params, Accepted param (node.params.get param.key) := by
  intro node h_node
  have h_clear := validates_iff.mp h
  obtain ⟨descriptor, h_descriptor⟩ := h_clear.resolved.published node h_node
  refine ⟨descriptor, h_descriptor, fun param h_param => ?_⟩
  exact accepted_of_paramProblems (h_clear.paramProblems h_node h_descriptor h_param)

theorem validates_of_run {registry : Registry} {options : Options} {g : StrategyGraph}
    (h : ((validate registry options g).toOption.any fun report => report.valid) = true) :
    Validates registry options g := by
  cases h_report : validate registry options g with
  | error e =>
    rw [h_report] at h
    cases h
  | ok report =>
    rw [h_report] at h
    exact ⟨report, h_report, h⟩

/-! ## A parameter without a value -/

/-- The value given, or else the default. -/
def effectiveValue (param : ParamSpec) (params : Params) : Value :=
  if isNone (params.get param.key) then param.default else params.get param.key

def WellTyped (param : ParamSpec) (value : Value) : Prop :=
  match param.type with
  | .NUMBER => ∃ q : ℚ, value.number? = some (.real q) ∧ InBounds param (.real q)
  | .INTEGER => ∃ n : ℤ, value.number? = some (.real n) ∧ InBounds param (.real n)
  | .SELECT => ∃ options, param.options = some options ∧ inOptions options value = true
  | .TEXT | .SYMBOL | .TIMEFRAME => ∃ text, value.text? = some text ∧ text ≠ ""
  | .BOOLEAN => isBool value = true
  | .MULTISELECT | .DATE => isNone value = false

/-- A market order declares its quantity, and a tag that may be left out. -/
def taggedRegistry : Registry := fun blockId =>
  if blockId = "action_buy_market" then
    some
      { plainBlock .ACTION [inPort "signal" .SIGNAL] [] [] with
        params :=
          [{ key := "quantity", type := .NUMBER, required := true, default := .scalar .none
             min := some (.int 0), max := none, options := none },
            { key := "client_tag", type := .TEXT, required := false, default := .scalar .none
              min := none, max := none, options := none }] }
  else orderRegistry blockId

def oneOrder (params : Params) : StrategyGraph :=
  { schemaVersion := 2, strategyId := "s1", version := "1", name := "strategy"
    nodes :=
      [feedNode "BTC/USDT", plainNode "c" "constant" .MATH, plainNode "g" "gt" .LOGIC,
        plainNode "s" "to_signal" .LOGIC,
        { plainNode "a" "action_buy_market" .ACTION with params := params }]
    edges :=
      [edgeFrom "n1" "close" "g" "left", edgeFrom "c" "value" "g" "right",
        edgeFrom "g" "out" "s" "condition", edgeFrom "s" "out" "a" "signal"]
    migrationIssues := [], validationState := .UNVALIDATED }

theorem untagged_validates :
    Validates taggedRegistry {} (oneOrder [("quantity", .scalar (.int 1))]) :=
  validates_of_run (by decide +kernel)

theorem untagged_params :
    Validates taggedRegistry {} (oneOrder [("quantity", .scalar (.int 1))]) ∧
      ∀ node ∈ (oneOrder [("quantity", .scalar (.int 1))]).nodes,
        ∃ descriptor, taggedRegistry node.blockId = some descriptor ∧
          ∀ param ∈ descriptor.params, Accepted param (node.params.get param.key) :=
  ⟨untagged_validates, validated_params taggedRegistry {}
    (oneOrder [("quantity", .scalar (.int 1))]) untagged_validates⟩

/-- An order without a tag is valid, and its tag has no value. -/
theorem not_wellTyped :
    ¬ ∀ (registry : Registry) (options : Options) (g : StrategyGraph),
      Validates registry options g → ∀ node ∈ g.nodes,
        ∃ descriptor, registry node.blockId = some descriptor ∧
          ∀ param ∈ descriptor.params, WellTyped param (effectiveValue param node.params) := by
  intro h
  obtain ⟨descriptor, h_descriptor, h_typed⟩ := h taggedRegistry {} _ untagged_validates
    { plainNode "a" "action_buy_market" .ACTION with params := [("quantity", .scalar (.int 1))] }
    (by simp [oneOrder])
  obtain rfl := (Option.some.inj h_descriptor).symm
  obtain ⟨text, h_text, -⟩ := h_typed
    { key := "client_tag", type := .TEXT, required := false, default := .scalar .none
      min := none, max := none, options := none } (by simp)
  cases h_text

/-- A list of quantities is taken item by item. -/
example : Validates taggedRegistry {}
    (oneOrder [("quantity", .list [.scalar (.int 1), .scalar (.int 2)])]) :=
  validates_of_run (by decide +kernel)

end VyomQuant.StrategyDag
