/-
  VyomQuant.StrategyDag.Secrets

  JSON values that differ in secrets only.  A key is secret or not; two values are alike up to
  a relation on secrets when they have one shape, the same keys and the same scalars, and what
  stands under a secret key is related (`Alike`).

  With any two secrets related this is "equal but for the secrets"; with only `x` on the right
  it is "every secret replaced by `x`" (`alike_plant`).  A value without a secret key is alike
  to itself alone (`Alike.eq_of_keyFree`), and one that every replacement leaves as it is has
  none (`keyFree_of_alike_self`).
-/

import VyomQuant.StrategyDag.Document

namespace VyomQuant.StrategyDag

variable {secret : String → Bool} {S : Value → Value → Prop}

/-! ## Values -/

mutual

/-- Equal, but for related values under the secret keys. -/
def Alike (secret : String → Bool) (S : Value → Value → Prop) : Value → Value → Prop
  | .scalar s, .scalar s' => s = s'
  | .list items, .list items' => AlikeItems secret S items items'
  | .dict members, .dict members' => AlikeMembers secret S members members'
  | _, _ => False

def AlikeItems (secret : String → Bool) (S : Value → Value → Prop) :
    List Value → List Value → Prop
  | [], [] => True
  | item :: rest, item' :: rest' => Alike secret S item item' ∧ AlikeItems secret S rest rest'
  | _, _ => False

def AlikeMembers (secret : String → Bool) (S : Value → Value → Prop) : Params → Params → Prop
  | [], [] => True
  | (key, value) :: rest, (key', value') :: rest' =>
    key = key' ∧ (if secret key then S value value' else Alike secret S value value') ∧
      AlikeMembers secret S rest rest'
  | _, _ => False

end

/-- The entries under one key. -/
def AlikeMember (secret : String → Bool) (S : Value → Value → Prop) (member member' : String × Value) :
    Prop :=
  member.1 = member'.1 ∧
    if secret member.1 then S member.2 member'.2 else Alike secret S member.2 member'.2

theorem alikeItems_iff {items items' : List Value} :
    AlikeItems secret S items items' ↔ List.Forall₂ (Alike secret S) items items' := by
  induction items generalizing items' with
  | nil =>
    cases items' with
    | nil => simp [AlikeItems]
    | cons item' rest' => simp [AlikeItems]
  | cons item rest ih =>
    cases items' with
    | nil => simp [AlikeItems]
    | cons item' rest' => rw [AlikeItems, List.forall₂_cons, ih]

theorem alikeMembers_iff {members members' : Params} :
    AlikeMembers secret S members members' ↔
      List.Forall₂ (AlikeMember secret S) members members' := by
  induction members generalizing members' with
  | nil =>
    cases members' with
    | nil => simp [AlikeMembers]
    | cons member' rest' => simp [AlikeMembers]
  | cons member rest ih =>
    obtain ⟨key, value⟩ := member
    cases members' with
    | nil => simp [AlikeMembers]
    | cons member' rest' =>
      obtain ⟨key', value'⟩ := member'
      rw [AlikeMembers, List.forall₂_cons, ih, AlikeMember, and_assoc]

theorem alike_list_iff {items items' : List Value} :
    Alike secret S (.list items) (.list items') ↔ List.Forall₂ (Alike secret S) items items' := by
  rw [Alike, alikeItems_iff]

theorem alike_dict_iff {members members' : Params} :
    Alike secret S (.dict members) (.dict members') ↔
      List.Forall₂ (AlikeMember secret S) members members' := by
  rw [Alike, alikeMembers_iff]

theorem AlikeMember.of_not_secret {key : String} {value value' : Value} (h_key : secret key = false)
    (h : Alike secret S value value') : AlikeMember secret S (key, value) (key, value') :=
  ⟨rfl, by simpa [h_key] using h⟩

@[simp] theorem Alike.text (text : String) : Alike secret S (.text text) (.text text) := by
  rw [Value.text, Alike]

/-! ## Values without secrets -/

mutual

def KeyFree (secret : String → Bool) : Value → Prop
  | .scalar _ => True
  | .list items => KeyFreeItems secret items
  | .dict members => KeyFreeMembers secret members

def KeyFreeItems (secret : String → Bool) : List Value → Prop
  | [] => True
  | item :: rest => KeyFree secret item ∧ KeyFreeItems secret rest

def KeyFreeMembers (secret : String → Bool) : Params → Prop
  | [] => True
  | (key, value) :: rest => secret key = false ∧ KeyFree secret value ∧ KeyFreeMembers secret rest

end

theorem keyFreeItems_iff {items : List Value} :
    KeyFreeItems secret items ↔ ∀ item ∈ items, KeyFree secret item := by
  induction items with
  | nil => simp [KeyFreeItems]
  | cons item rest ih => rw [KeyFreeItems, ih, List.forall_mem_cons]

theorem keyFreeMembers_iff {members : Params} :
    KeyFreeMembers secret members ↔
      ∀ member ∈ members, secret member.1 = false ∧ KeyFree secret member.2 := by
  induction members with
  | nil => simp [KeyFreeMembers]
  | cons member rest ih => rw [KeyFreeMembers, ih, List.forall_mem_cons, and_assoc]

theorem keyFree_list_iff {items : List Value} :
    KeyFree secret (.list items) ↔ ∀ item ∈ items, KeyFree secret item := by
  rw [KeyFree, keyFreeItems_iff]

theorem keyFree_dict_iff {members : Params} :
    KeyFree secret (.dict members) ↔
      ∀ member ∈ members, secret member.1 = false ∧ KeyFree secret member.2 := by
  rw [KeyFree, keyFreeMembers_iff]

@[simp] theorem keyFree_text (text : String) : KeyFree secret (.text text) := by
  rw [Value.text, KeyFree]
  trivial

mutual

theorem Alike.eq_of_keyFree {value value' : Value} (h : Alike secret S value value')
    (h_free : KeyFree secret value) : value = value' := by
  cases value with
  | scalar s =>
    cases value' with
    | scalar s' => rw [Alike] at h; rw [h]
    | list items' => simp [Alike] at h
    | dict members' => simp [Alike] at h
  | list items =>
    cases value' with
    | scalar s' => simp [Alike] at h
    | list items' =>
      rw [Alike] at h
      rw [KeyFree] at h_free
      rw [AlikeItems.eq_of_keyFree h h_free]
    | dict members' => simp [Alike] at h
  | dict members =>
    cases value' with
    | scalar s' => simp [Alike] at h
    | list items' => simp [Alike] at h
    | dict members' =>
      rw [Alike] at h
      rw [KeyFree] at h_free
      rw [AlikeMembers.eq_of_keyFree h h_free]
termination_by sizeOf value

theorem AlikeItems.eq_of_keyFree {items items' : List Value} (h : AlikeItems secret S items items')
    (h_free : KeyFreeItems secret items) : items = items' := by
  cases items with
  | nil =>
    cases items' with
    | nil => rfl
    | cons item' rest' => simp [AlikeItems] at h
  | cons item rest =>
    cases items' with
    | nil => simp [AlikeItems] at h
    | cons item' rest' =>
      rw [AlikeItems] at h
      rw [KeyFreeItems] at h_free
      rw [Alike.eq_of_keyFree h.1 h_free.1, AlikeItems.eq_of_keyFree h.2 h_free.2]
termination_by sizeOf items

theorem AlikeMembers.eq_of_keyFree : ∀ {members members' : Params},
    AlikeMembers secret S members members' → KeyFreeMembers secret members → members = members'
  | [], [], _, _ => rfl
  | [], _ :: _, h, _ => by simp [AlikeMembers] at h
  | _ :: _, [], h, _ => by simp [AlikeMembers] at h
  | (key, value) :: rest, (key', value') :: rest', h, h_free => by
    rw [AlikeMembers] at h
    rw [KeyFreeMembers] at h_free
    obtain ⟨rfl, h_value, h_rest⟩ := h
    rw [h_free.1, if_neg Bool.false_ne_true] at h_value
    rw [Alike.eq_of_keyFree h_value h_free.2.1, AlikeMembers.eq_of_keyFree h_rest h_free.2.2]
termination_by members => sizeOf members

end

/-! ## Replacing the secrets -/

mutual

/-- The value with `x` under every secret key. -/
def plant (secret : String → Bool) (x : Value) : Value → Value
  | .scalar s => .scalar s
  | .list items => .list (plantItems secret x items)
  | .dict members => .dict (plantMembers secret x members)

def plantItems (secret : String → Bool) (x : Value) : List Value → List Value
  | [] => []
  | item :: rest => plant secret x item :: plantItems secret x rest

def plantMembers (secret : String → Bool) (x : Value) : Params → Params
  | [] => []
  | (key, value) :: rest =>
    (key, if secret key then x else plant secret x value) :: plantMembers secret x rest

end

mutual

theorem alike_plant (x : Value) : ∀ value, Alike secret (fun _ y => y = x) value (plant secret x value)
  | .scalar s => by rw [plant, Alike]
  | .list items => by
    rw [plant, Alike]
    exact alikeItems_plant x items
  | .dict members => by
    rw [plant, Alike]
    exact alikeMembers_plant x members

theorem alikeItems_plant (x : Value) :
    ∀ items, AlikeItems secret (fun _ y => y = x) items (plantItems secret x items)
  | [] => by rw [plantItems, AlikeItems]; trivial
  | item :: rest => by
    rw [plantItems, AlikeItems]
    exact ⟨alike_plant x item, alikeItems_plant x rest⟩

theorem alikeMembers_plant (x : Value) :
    ∀ members, AlikeMembers secret (fun _ y => y = x) members (plantMembers secret x members)
  | [] => by rw [plantMembers, AlikeMembers]; trivial
  | (key, value) :: rest => by
    rw [plantMembers, AlikeMembers]
    refine ⟨rfl, ?_, alikeMembers_plant x rest⟩
    by_cases h_key : secret key = true
    · rw [if_pos h_key, if_pos h_key]
    · rw [if_neg h_key, if_neg h_key]
      exact alike_plant x value

end

mutual

theorem keyFree_of_alike_self {x y : Value} (h_ne : x ≠ y) : ∀ {value : Value},
    Alike secret (fun _ z => z = x) value value → Alike secret (fun _ z => z = y) value value →
      KeyFree secret value
  | .scalar s, _, _ => by rw [KeyFree]; trivial
  | .list items, h, h' => by
    rw [Alike] at h h'
    rw [KeyFree]
    exact keyFreeItems_of_alike_self h_ne h h'
  | .dict members, h, h' => by
    rw [Alike] at h h'
    rw [KeyFree]
    exact keyFreeMembers_of_alike_self h_ne h h'

theorem keyFreeItems_of_alike_self {x y : Value} (h_ne : x ≠ y) : ∀ {items : List Value},
    AlikeItems secret (fun _ z => z = x) items items →
      AlikeItems secret (fun _ z => z = y) items items → KeyFreeItems secret items
  | [], _, _ => by rw [KeyFreeItems]; trivial
  | item :: rest, h, h' => by
    rw [AlikeItems] at h h'
    rw [KeyFreeItems]
    exact ⟨keyFree_of_alike_self h_ne h.1 h'.1, keyFreeItems_of_alike_self h_ne h.2 h'.2⟩

theorem keyFreeMembers_of_alike_self {x y : Value} (h_ne : x ≠ y) : ∀ {members : Params},
    AlikeMembers secret (fun _ z => z = x) members members →
      AlikeMembers secret (fun _ z => z = y) members members → KeyFreeMembers secret members
  | [], _, _ => by rw [KeyFreeMembers]; trivial
  | (key, value) :: rest, h, h' => by
    rw [AlikeMembers] at h h'
    rw [KeyFreeMembers]
    obtain ⟨-, h_value, h_rest⟩ := h
    obtain ⟨-, h_value', h_rest'⟩ := h'
    by_cases h_key : secret key = true
    · rw [if_pos h_key] at h_value h_value'
      exact absurd (h_value.symm.trans h_value') h_ne
    · rw [if_neg h_key] at h_value h_value'
      exact ⟨Bool.eq_false_iff.mpr h_key, keyFree_of_alike_self h_ne h_value h_value',
        keyFreeMembers_of_alike_self h_ne h_rest h_rest'⟩

end

/-! ## Weaker relations -/

mutual

theorem Alike.mono {T : Value → Value → Prop} (h_le : ∀ a b, S a b → T a b) :
    ∀ {value value' : Value}, Alike secret S value value' → Alike secret T value value'
  | .scalar s, .scalar s', h => by rw [Alike] at h ⊢; exact h
  | .list items, .list items', h => by
    rw [Alike] at h ⊢
    exact AlikeItems.mono h_le h
  | .dict members, .dict members', h => by
    rw [Alike] at h ⊢
    exact AlikeMembers.mono h_le h
  | .scalar _, .list _, h => by simp [Alike] at h
  | .scalar _, .dict _, h => by simp [Alike] at h
  | .list _, .scalar _, h => by simp [Alike] at h
  | .list _, .dict _, h => by simp [Alike] at h
  | .dict _, .scalar _, h => by simp [Alike] at h
  | .dict _, .list _, h => by simp [Alike] at h

theorem AlikeItems.mono {T : Value → Value → Prop} (h_le : ∀ a b, S a b → T a b) :
    ∀ {items items' : List Value}, AlikeItems secret S items items' → AlikeItems secret T items items'
  | [], [], _ => by rw [AlikeItems]; trivial
  | item :: rest, item' :: rest', h => by
    rw [AlikeItems] at h ⊢
    exact ⟨Alike.mono h_le h.1, AlikeItems.mono h_le h.2⟩
  | [], _ :: _, h => by simp [AlikeItems] at h
  | _ :: _, [], h => by simp [AlikeItems] at h

theorem AlikeMembers.mono {T : Value → Value → Prop} (h_le : ∀ a b, S a b → T a b) :
    ∀ {members members' : Params}, AlikeMembers secret S members members' →
      AlikeMembers secret T members members'
  | [], [], _ => by rw [AlikeMembers]; trivial
  | (key, value) :: rest, (key', value') :: rest', h => by
    rw [AlikeMembers] at h ⊢
    obtain ⟨h_key, h_value, h_rest⟩ := h
    refine ⟨h_key, ?_, AlikeMembers.mono h_le h_rest⟩
    by_cases h_secret : secret key = true
    · rw [if_pos h_secret] at h_value ⊢
      exact h_le _ _ h_value
    · rw [if_neg h_secret] at h_value ⊢
      exact Alike.mono h_le h_value
  | [], _ :: _, h => by simp [AlikeMembers] at h
  | _ :: _, [], h => by simp [AlikeMembers] at h

end

/-! ## What is read of alike values -/

theorem Alike.eq_scalar {s : Scalar} {value' : Value} (h : Alike secret S (.scalar s) value') :
    value' = .scalar s := by
  cases value' with
  | scalar s' => rw [Alike] at h; rw [h]
  | list items' => simp [Alike] at h
  | dict members' => simp [Alike] at h

theorem Alike.outside {value value' : Value} (h : Alike secret S value value') :
    value'.text? = value.text? ∧ value'.truthy = value.truthy ∧ value'.typeName = value.typeName := by
  cases value with
  | scalar s =>
    cases value' with
    | scalar s' => rw [Alike] at h; subst h; exact ⟨rfl, rfl, rfl⟩
    | list items' => simp [Alike] at h
    | dict members' => simp [Alike] at h
  | list items =>
    cases value' with
    | scalar s' => simp [Alike] at h
    | list items' =>
      refine ⟨rfl, ?_, rfl⟩
      cases alike_list_iff.mp h <;> rfl
    | dict members' => simp [Alike] at h
  | dict members =>
    cases value' with
    | scalar s' => simp [Alike] at h
    | list items' => simp [Alike] at h
    | dict members' =>
      refine ⟨rfl, ?_, rfl⟩
      cases alike_dict_iff.mp h <;> rfl

theorem Alike.nonEmpty? {value value' : Value} (h : Alike secret S value value') :
    value'.nonEmpty? = value.nonEmpty? := by
  rw [Value.nonEmpty?, Value.nonEmpty?, h.outside.1]

theorem Alike.dict? {value value' : Value} (h : Alike secret S value value') {members : Params}
    (h_dict : value.dict? = some members) :
    ∃ members', value'.dict? = some members' ∧
      List.Forall₂ (AlikeMember secret S) members members' := by
  cases value with
  | scalar s => cases h_dict
  | list items => cases h_dict
  | dict members =>
    cases h_dict
    cases value' with
    | scalar s' => simp [Alike] at h
    | list items' => simp [Alike] at h
    | dict members' => exact ⟨members', rfl, alike_dict_iff.mp h⟩

theorem Alike.list? {value value' : Value} (h : Alike secret S value value') {items : List Value}
    (h_list : value.list? = some items) :
    ∃ items', value'.list? = some items' ∧ List.Forall₂ (Alike secret S) items items' := by
  cases value with
  | scalar s => cases h_list
  | dict members => cases h_list
  | list items =>
    cases h_list
    cases value' with
    | scalar s' => simp [Alike] at h
    | dict members' => simp [Alike] at h
    | list items' => exact ⟨items', rfl, alike_list_iff.mp h⟩

theorem Alike.orDict {value value' : Value} (h : Alike secret S value value') :
    Alike secret S value.orDict value'.orDict := by
  rw [Value.orDict, Value.orDict, h.outside.2.1]
  split_ifs
  · exact h
  · exact alike_dict_iff.mpr .nil

theorem Alike.orList {value value' : Value} (h : Alike secret S value value') :
    Alike secret S value.orList value'.orList := by
  rw [Value.orList, Value.orList, h.outside.2.1]
  split_ifs
  · exact h
  · exact alike_list_iff.mpr .nil

theorem alike_get? {members members' : Params}
    (h : List.Forall₂ (AlikeMember secret S) members members') {key : String}
    (h_key : secret key = false) :
    (members.get? key = none ∧ members'.get? key = none) ∨
      ∃ value value', members.get? key = some value ∧ members'.get? key = some value' ∧
        Alike secret S value value' := by
  induction h with
  | nil => exact .inl ⟨rfl, rfl⟩
  | @cons member member' rest rest' h_member _ ih =>
    obtain ⟨k, value⟩ := member
    obtain ⟨k', value'⟩ := member'
    obtain ⟨h_eq, h_value⟩ := h_member
    dsimp only at h_eq h_value
    subst h_eq
    by_cases h_k : k = key
    · subst h_k
      rw [h_key, if_neg Bool.false_ne_true] at h_value
      exact .inr ⟨value, value', by simp [Params.get?], by simp [Params.get?], h_value⟩
    · simpa [Params.get?, h_k] using ih

theorem alike_get {members members' : Params}
    (h : List.Forall₂ (AlikeMember secret S) members members') {key : String}
    (h_key : secret key = false) : Alike secret S (members.get key) (members'.get key) := by
  rw [Params.get_eq, Params.get_eq]
  rcases alike_get? h h_key with ⟨h_none, h_none'⟩ | ⟨value, value', h_some, h_some', h_value⟩
  · rw [h_none, h_none', Option.getD_none, Alike]
  · rw [h_some, h_some']
    exact h_value

theorem get_eq_of_keyFree {members members' : Params}
    (h : List.Forall₂ (AlikeMember secret S) members members') {key : String}
    (h_key : secret key = false) (h_free : KeyFree secret (members.get key)) :
    members'.get key = members.get key :=
  ((alike_get h h_key).eq_of_keyFree h_free).symm

theorem forall₂_mapM {α β : Type} {R : β → β → Prop} {read : β → Except ParseError α}
    {r : α → α → Prop} {items items' : List β} (h : List.Forall₂ R items items') {found : List α}
    (h_found : items.mapM read = .ok found)
    (h_read : ∀ item ∈ items, ∀ item' a, R item item' → read item = .ok a →
      ∃ a', read item' = .ok a' ∧ r a a') :
    ∃ found', items'.mapM read = .ok found' ∧ List.Forall₂ r found found' := by
  induction h generalizing found with
  | nil =>
    cases h_found
    exact ⟨[], rfl, .nil⟩
  | @cons item item' rest rest' h_item _ ih =>
    rw [List.mapM_cons] at h_found
    obtain ⟨a, h_a, h_found⟩ := Except.bind_eq_ok.mp h_found
    obtain ⟨as, h_as, rfl⟩ := Except.bind_pure_eq_ok.mp h_found
    obtain ⟨a', h_a', h_r⟩ := h_read item List.mem_cons_self item' a h_item h_a
    obtain ⟨as', h_as', h_rs⟩ := ih h_as fun other h_other =>
      h_read other (List.mem_cons_of_mem _ h_other)
    exact ⟨a' :: as', by rw [List.mapM_cons, h_a', h_as']; rfl, .cons h_r h_rs⟩

theorem forall₂_zipIdx {α : Type} {R : α → α → Prop} {l l' : List α} (h : List.Forall₂ R l l') (n : ℕ) :
    List.Forall₂ (fun a a' => R a.1 a'.1 ∧ a'.2 = a.2) (l.zipIdx n) (l'.zipIdx n) := by
  induction h generalizing n with
  | nil => exact .nil
  | cons h_head _ ih => exact .cons ⟨h_head, rfl⟩ (ih (n + 1))

end VyomQuant.StrategyDag
