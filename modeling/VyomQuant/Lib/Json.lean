/-
  VyomQuant.Lib.Json

  JSON values and their text in the spacing of `jsonb::text`: one space after a colon and
  after a comma, strings escaped, numbers as the decimal text of their numeric.

  The text is unambiguous: a value followed by anything that cannot continue a number is
  determined by it, together with what follows (`text_append_inj`).  So a value can be read
  off a longer text, and two values with one text are equal (`text_injective`).
-/

import VyomQuant.Lib.Splitting

/-! ## Values -/

/-- The characters of a number. -/
def numeralChar (c : Char) : Bool := c.isDigit || c == '-' || c == '.'

/-- The decimal text of a number. -/
structure Numeral where
  chars : List Char
  ne_nil : chars ≠ []
  numeral : ∀ c ∈ chars, numeralChar c = true
deriving DecidableEq

inductive Json where
  | null
  | bool (b : Bool)
  | num (n : Numeral)
  | str (s : String)
  | arr (items : List Json)
  | obj (members : List (String × Json))

namespace Json

/-! ## Text -/

def hexDigit (n : ℕ) : Char :=
  if n < 10 then Char.ofNat (48 + n) else Char.ofNat (87 + n)

/-- The escaped form of a character. -/
def escape (c : Char) : List Char :=
  if c = '"' then ['\\', '"']
  else if c = '\\' then ['\\', '\\']
  else if c.toNat = 8 then ['\\', 'b']
  else if c.toNat = 12 then ['\\', 'f']
  else if c.toNat = 10 then ['\\', 'n']
  else if c.toNat = 13 then ['\\', 'r']
  else if c.toNat = 9 then ['\\', 't']
  else if c.toNat < 32 then ['\\', 'u', '0', '0', hexDigit (c.toNat / 16), hexDigit (c.toNat % 16)]
  else [c]

def quoted (s : String) : List Char := '"' :: s.toList.flatMap escape ++ ['"']

mutual

/-- `jsonb::text`. -/
def text : Json → List Char
  | null => ['n', 'u', 'l', 'l']
  | bool true => ['t', 'r', 'u', 'e']
  | bool false => ['f', 'a', 'l', 's', 'e']
  | num n => n.chars
  | str s => quoted s
  | arr items => '[' :: itemsText items
  | obj members => '\x7b' :: membersText members

/-- The items up to the closing bracket, each but the first after a comma. -/
def itemsText : List Json → List Char
  | [] => [']']
  | item :: rest => text item ++ moreItemsText rest

def moreItemsText : List Json → List Char
  | [] => [']']
  | item :: rest => ',' :: ' ' :: (text item ++ moreItemsText rest)

/-- The members up to the closing brace. -/
def membersText : List (String × Json) → List Char
  | [] => ['\x7d']
  | (key, value) :: rest => quoted key ++ ':' :: ' ' :: (text value ++ moreMembersText rest)

def moreMembersText : List (String × Json) → List Char
  | [] => ['\x7d']
  | (key, value) :: rest =>
    ',' :: ' ' :: (quoted key ++ ':' :: ' ' :: (text value ++ moreMembersText rest))

end

/-! ## Strings -/

def hexDigitVal (c : Char) : ℕ :=
  if c.toNat < 58 then c.toNat - 48 else c.toNat - 87

/-- The first character of an escaped text, and the rest of it. -/
def unescape : List Char → Option (Char × List Char)
  | '\\' :: '"' :: rest => some ('"', rest)
  | '\\' :: '\\' :: rest => some ('\\', rest)
  | '\\' :: 'b' :: rest => some (Char.ofNat 8, rest)
  | '\\' :: 'f' :: rest => some (Char.ofNat 12, rest)
  | '\\' :: 'n' :: rest => some (Char.ofNat 10, rest)
  | '\\' :: 'r' :: rest => some (Char.ofNat 13, rest)
  | '\\' :: 't' :: rest => some (Char.ofNat 9, rest)
  | '\\' :: 'u' :: '0' :: '0' :: high :: low :: rest =>
    some (Char.ofNat (hexDigitVal high * 16 + hexDigitVal low), rest)
  | '\\' :: _ => none
  | '"' :: _ => none
  | c :: rest => some (c, rest)
  | [] => none

theorem hexDigitVal_hexDigit : ∀ n < 16, hexDigitVal (hexDigit n) = n := by decide

theorem eq_ofNat {c : Char} {n : ℕ} (h : c.toNat = n) : c = Char.ofNat n := by
  rw [← h, Char.ofNat_toNat]

theorem unescape_escape (c : Char) (rest : List Char) :
    unescape (escape c ++ rest) = some (c, rest) := by
  unfold escape
  split_ifs with h_quote h_backslash h_b h_f h_n h_r h_t h_control
  · rw [h_quote]; rfl
  · rw [h_backslash]; rfl
  · rw [eq_ofNat h_b]; rfl
  · rw [eq_ofNat h_f]; rfl
  · rw [eq_ofNat h_n]; rfl
  · rw [eq_ofNat h_r]; rfl
  · rw [eq_ofNat h_t]; rfl
  · have h_high := hexDigitVal_hexDigit (c.toNat / 16) (by omega)
    have h_low := hexDigitVal_hexDigit (c.toNat % 16) (by omega)
    have h_sum : c.toNat / 16 * 16 + c.toNat % 16 = c.toNat := by omega
    simp only [List.cons_append, List.nil_append]
    rw [unescape, h_high, h_low, h_sum, Char.ofNat_toNat]
  · simp only [List.cons_append, List.nil_append]
    rw [unescape.eq_def]
    split <;> simp_all

theorem escape_append_ne_quote (c : Char) (rest rest' : List Char) :
    escape c ++ rest ≠ '"' :: rest' := by
  intro h
  have h_read := unescape_escape c rest
  rw [h] at h_read
  simp [unescape] at h_read

theorem flatMap_escape_append_inj {cs cs' : List Char} {r r' : List Char}
    (h : cs.flatMap escape ++ '"' :: r = cs'.flatMap escape ++ '"' :: r') : cs = cs' ∧ r = r' := by
  induction cs generalizing cs' with
  | nil =>
    cases cs' with
    | nil => simpa using h
    | cons c' rest' =>
      rw [List.flatMap_cons, List.append_assoc] at h
      exact absurd h.symm (escape_append_ne_quote _ _ _)
  | cons c rest ih =>
    cases cs' with
    | nil =>
      rw [List.flatMap_cons, List.append_assoc] at h
      exact absurd h (escape_append_ne_quote _ _ _)
    | cons c' rest' =>
      rw [List.flatMap_cons, List.flatMap_cons, List.append_assoc, List.append_assoc] at h
      have h_read := congrArg unescape h
      rw [unescape_escape, unescape_escape, Option.some.injEq, Prod.mk.injEq] at h_read
      obtain ⟨h_c, h_rest⟩ := h_read
      obtain ⟨h_cs, h_r⟩ := ih h_rest
      exact ⟨by rw [h_c, h_cs], h_r⟩

theorem quoted_append_inj {s s' : String} {r r' : List Char}
    (h : quoted s ++ r = quoted s' ++ r') : s = s' ∧ r = r' := by
  simp only [quoted, List.cons_append, List.append_assoc, List.nil_append, List.cons.injEq,
    true_and] at h
  obtain ⟨h_chars, h_r⟩ := flatMap_escape_append_inj h
  exact ⟨String.toList_inj.mp h_chars, h_r⟩

/-! ## Numbers -/

/-- What cannot continue a number. -/
def Delimited (r : List Char) : Prop := ∀ c ∈ r.head?, numeralChar c = false

theorem Delimited.nil : Delimited [] := nofun

theorem Delimited.cons {c : Char} {r : List Char} (h : numeralChar c = false) :
    Delimited (c :: r) := by
  intro c' h_head
  cases h_head
  exact h

theorem numeral_append_inj {ds ds' : List Char} (h_ds : ∀ c ∈ ds, numeralChar c = true)
    (h_ds' : ∀ c ∈ ds', numeralChar c = true) {r r' : List Char} (h_r : Delimited r)
    (h_r' : Delimited r') (h : ds ++ r = ds' ++ r') : ds = ds' ∧ r = r' := by
  refine Splitting.append_inj_of_stop h_ds h_ds' (fun c h_c => ?_) (fun c h_c => ?_) h
  · rw [h_r c h_c]
    exact Bool.false_ne_true
  · rw [h_r' c h_c]
    exact Bool.false_ne_true

/-! ## Unambiguity -/

/-- Which kind of value begins with a character. -/
def kindOfHead (c : Char) : ℕ :=
  if c = 'n' then 0 else if c = 't' then 1 else if c = 'f' then 2 else if c = '"' then 3
  else if c = '[' then 4 else if c = '\x7b' then 5 else if numeralChar c then 6 else 7

def kind : Json → ℕ
  | null => 0
  | bool true => 1
  | bool false => 2
  | str _ => 3
  | arr _ => 4
  | obj _ => 5
  | num _ => 6

theorem kindOfHead_of_numeral {c : Char} (h : numeralChar c = true) : kindOfHead c = 6 := by
  have h_letters : c ≠ 'n' ∧ c ≠ 't' ∧ c ≠ 'f' ∧ c ≠ '"' ∧ c ≠ '[' ∧ c ≠ '\x7b' := by
    refine ⟨?_, ?_, ?_, ?_, ?_, ?_⟩ <;> (rintro rfl; revert h; decide)
  obtain ⟨h_n, h_t, h_f, h_quote, h_bracket, h_brace⟩ := h_letters
  simp [kindOfHead, h_n, h_t, h_f, h_quote, h_bracket, h_brace, h]

theorem exists_head_text (a : Json) : ∃ c rest, text a = c :: rest ∧ kindOfHead c = kind a := by
  cases a with
  | null => exact ⟨_, _, by rw [text], by decide⟩
  | bool b =>
    cases b with
    | true => exact ⟨_, _, by rw [text], by decide⟩
    | false => exact ⟨_, _, by rw [text], by decide⟩
  | num n =>
    cases h : n.chars with
    | nil => exact absurd h n.ne_nil
    | cons c rest =>
      refine ⟨c, rest, by rw [text, h], ?_⟩
      exact kindOfHead_of_numeral (n.numeral c (h ▸ List.mem_cons_self))
  | str s => exact ⟨_, _, by rw [text]; rfl, rfl⟩
  | arr items => exact ⟨_, _, by rw [text], rfl⟩
  | obj members => exact ⟨_, _, by rw [text], rfl⟩

theorem kind_eq_of_text_append {a b : Json} {r r' : List Char} (h : text a ++ r = text b ++ r') :
    kind a = kind b := by
  obtain ⟨c, rest, h_a, h_kind⟩ := exists_head_text a
  obtain ⟨c', rest', h_b, h_kind'⟩ := exists_head_text b
  rw [h_a, h_b, List.cons_append, List.cons_append, List.cons.injEq] at h
  rw [← h_kind, ← h_kind', h.1]

theorem delimited_moreItems (items : List Json) (r : List Char) :
    Delimited (moreItemsText items ++ r) := by
  cases items with
  | nil =>
    rw [moreItemsText]
    exact Delimited.cons (by decide)
  | cons item rest =>
    rw [moreItemsText]
    exact Delimited.cons (by decide)

theorem delimited_moreMembers (members : List (String × Json)) (r : List Char) :
    Delimited (moreMembersText members ++ r) := by
  cases members with
  | nil =>
    rw [moreMembersText]
    exact Delimited.cons (by decide)
  | cons member rest =>
    rw [moreMembersText]
    exact Delimited.cons (by decide)

theorem text_append_ne_bracket (a : Json) (r r' : List Char) : text a ++ r ≠ ']' :: r' := by
  intro h
  obtain ⟨c, rest, h_a, h_kind⟩ := exists_head_text a
  rw [h_a, List.cons_append, List.cons.injEq] at h
  have h_seven : kind a = 7 := by
    rw [← h_kind, h.1]
    decide
  have h_le : kind a ≤ 6 := by
    cases a with
    | bool b => cases b <;> simp [kind]
    | _ => simp [kind]
  omega

mutual

/-- A value and what follows it are determined by the text they make. -/
theorem text_append_inj (a b : Json) {r r' : List Char} (h_r : Delimited r) (h_r' : Delimited r')
    (h : text a ++ r = text b ++ r') : a = b ∧ r = r' := by
  have h_kind := kind_eq_of_text_append h
  cases a with
  | null =>
    cases b with
    | null => exact ⟨rfl, List.append_cancel_left h⟩
    | bool b => cases b <;> cases h_kind
    | _ => cases h_kind
  | bool b₁ =>
    cases b with
    | bool b₂ =>
      cases b₁ <;> cases b₂ <;>
        first | exact ⟨rfl, List.append_cancel_left h⟩ | cases h_kind
    | _ => cases b₁ <;> cases h_kind
  | num n =>
    cases b with
    | num m =>
      rw [text, text] at h
      obtain ⟨h_chars, h_rest⟩ := numeral_append_inj n.numeral m.numeral h_r h_r' h
      have h_eq : n = m := by
        cases n
        cases m
        cases h_chars
        rfl
      exact ⟨by rw [h_eq], h_rest⟩
    | bool b => cases b <;> cases h_kind
    | _ => cases h_kind
  | str s =>
    cases b with
    | str s' =>
      rw [text, text] at h
      obtain ⟨h_s, h_rest⟩ := quoted_append_inj h
      exact ⟨by rw [h_s], h_rest⟩
    | bool b => cases b <;> cases h_kind
    | _ => cases h_kind
  | arr items =>
    cases b with
    | arr items' =>
      rw [text, text, List.cons_append, List.cons_append, List.cons.injEq] at h
      obtain ⟨h_items, h_rest⟩ := itemsText_append_inj items items' h.2
      exact ⟨by rw [h_items], h_rest⟩
    | bool b => cases b <;> cases h_kind
    | _ => cases h_kind
  | obj members =>
    cases b with
    | obj members' =>
      rw [text, text, List.cons_append, List.cons_append, List.cons.injEq] at h
      obtain ⟨h_members, h_rest⟩ := membersText_append_inj members members' h.2
      exact ⟨by rw [h_members], h_rest⟩
    | bool b => cases b <;> cases h_kind
    | _ => cases h_kind
termination_by sizeOf a

theorem itemsText_append_inj (items items' : List Json) {r r' : List Char}
    (h : itemsText items ++ r = itemsText items' ++ r') : items = items' ∧ r = r' := by
  cases items with
  | nil =>
    cases items' with
    | nil =>
      rw [itemsText] at h
      exact ⟨rfl, (List.cons.inj h).2⟩
    | cons item' rest' =>
      rw [itemsText, itemsText, List.append_assoc] at h
      exact absurd h.symm (text_append_ne_bracket _ _ _)
  | cons item rest =>
    cases items' with
    | nil =>
      rw [itemsText, itemsText, List.append_assoc] at h
      exact absurd h (text_append_ne_bracket _ _ _)
    | cons item' rest' =>
      rw [itemsText, itemsText, List.append_assoc, List.append_assoc] at h
      obtain ⟨h_item, h_more⟩ := text_append_inj item item' (delimited_moreItems rest r)
        (delimited_moreItems rest' r') h
      obtain ⟨h_rest, h_r⟩ := moreItemsText_append_inj rest rest' h_more
      exact ⟨by rw [h_item, h_rest], h_r⟩
termination_by sizeOf items

theorem moreItemsText_append_inj (items items' : List Json) {r r' : List Char}
    (h : moreItemsText items ++ r = moreItemsText items' ++ r') : items = items' ∧ r = r' := by
  cases items with
  | nil =>
    cases items' with
    | nil =>
      rw [moreItemsText] at h
      exact ⟨rfl, (List.cons.inj h).2⟩
    | cons item' rest' =>
      rw [moreItemsText, moreItemsText] at h
      exact absurd (List.cons.inj h).1 (by decide)
  | cons item rest =>
    cases items' with
    | nil =>
      rw [moreItemsText, moreItemsText] at h
      exact absurd (List.cons.inj h).1 (by decide)
    | cons item' rest' =>
      rw [moreItemsText, moreItemsText] at h
      simp only [List.cons_append, List.append_assoc, List.cons.injEq, true_and] at h
      obtain ⟨h_item, h_more⟩ := text_append_inj item item' (delimited_moreItems rest r)
        (delimited_moreItems rest' r') h
      obtain ⟨h_rest, h_r⟩ := moreItemsText_append_inj rest rest' h_more
      exact ⟨by rw [h_item, h_rest], h_r⟩
termination_by sizeOf items

theorem membersText_append_inj : ∀ (members members' : List (String × Json)) {r r' : List Char},
    membersText members ++ r = membersText members' ++ r' → members = members' ∧ r = r'
  | [], [], r, r', h => by
    rw [membersText] at h
    exact ⟨rfl, (List.cons.inj h).2⟩
  | [], (key', value') :: rest', r, r', h => by
    rw [membersText, membersText] at h
    exact absurd (List.cons.inj h).1 (by decide)
  | (key, value) :: rest, [], r, r', h => by
    rw [membersText, membersText] at h
    exact absurd (List.cons.inj h).1 (by decide)
  | (key, value) :: rest, (key', value') :: rest', r, r', h => by
    rw [membersText, membersText, List.append_assoc, List.append_assoc] at h
    obtain ⟨h_key, h_value⟩ := quoted_append_inj h
    simp only [List.cons_append, List.append_assoc, List.cons.injEq, true_and] at h_value
    obtain ⟨h_value, h_more⟩ := text_append_inj value value' (delimited_moreMembers rest r)
      (delimited_moreMembers rest' r') h_value
    obtain ⟨h_rest, h_r⟩ := moreMembersText_append_inj rest rest' h_more
    exact ⟨by rw [h_key, h_value, h_rest], h_r⟩
termination_by members => sizeOf members

theorem moreMembersText_append_inj : ∀ (members members' : List (String × Json))
    {r r' : List Char},
    moreMembersText members ++ r = moreMembersText members' ++ r' → members = members' ∧ r = r'
  | [], [], r, r', h => by
    rw [moreMembersText] at h
    exact ⟨rfl, (List.cons.inj h).2⟩
  | [], (key', value') :: rest', r, r', h => by
    rw [moreMembersText, moreMembersText] at h
    exact absurd (List.cons.inj h).1 (by decide)
  | (key, value) :: rest, [], r, r', h => by
    rw [moreMembersText, moreMembersText] at h
    exact absurd (List.cons.inj h).1 (by decide)
  | (key, value) :: rest, (key', value') :: rest', r, r', h => by
    rw [moreMembersText, moreMembersText] at h
    simp only [List.cons_append, List.append_assoc, List.cons.injEq, true_and] at h
    obtain ⟨h_key, h_value⟩ := quoted_append_inj h
    simp only [List.cons.injEq, true_and] at h_value
    obtain ⟨h_value, h_more⟩ := text_append_inj value value' (delimited_moreMembers rest r)
      (delimited_moreMembers rest' r') h_value
    obtain ⟨h_rest, h_r⟩ := moreMembersText_append_inj rest rest' h_more
    exact ⟨by rw [h_key, h_value, h_rest], h_r⟩
termination_by members => sizeOf members

end

theorem text_injective {a b : Json} (h : text a = text b) : a = b :=
  (text_append_inj a b Delimited.nil Delimited.nil (by rw [h])).1

end Json
