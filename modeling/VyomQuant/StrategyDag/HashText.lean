/-
  VyomQuant.StrategyDag.HashText

  The JSON text that hashes are taken of is unambiguous.  A quoted string is determined by
  the text it begins, together with what follows it (`quoted_append_inj`): an escape of
  six characters is a UTF-16 unit, and a unit of the high surrogate range announces a
  second one.  So is a whole value (`written_append_inj`), up to what two representations
  of one float may differ in (`Same`).
-/

import Mathlib
import VyomQuant.Lib.Json
import VyomQuant.StrategyDag.DagHash

namespace VyomQuant.StrategyDag

/-! ## Strings -/

/-- The UTF-16 unit of an escape of six characters, and the rest of the text. -/
def unescapeUnit : List Char → Option (ℕ × List Char)
  | '\\' :: 'u' :: a :: b :: c :: d :: rest =>
    some (((Sha256.hexDigitVal a * 16 + Sha256.hexDigitVal b) * 16 + Sha256.hexDigitVal c) * 16
      + Sha256.hexDigitVal d, rest)
  | _ => none

/-- The first character of an escaped text, and the rest of it. -/
def unescapeAscii : List Char → Option (Char × List Char)
  | '\\' :: '"' :: rest => some ('"', rest)
  | '\\' :: '\\' :: rest => some ('\\', rest)
  | '\\' :: 'n' :: rest => some ('\n', rest)
  | '\\' :: 'r' :: rest => some ('\r', rest)
  | '\\' :: 't' :: rest => some ('\t', rest)
  | '\\' :: 'b' :: rest => some (Char.ofNat 8, rest)
  | '\\' :: 'f' :: rest => some (Char.ofNat 12, rest)
  | '\\' :: rest =>
    (unescapeUnit ('\\' :: rest)).bind fun (unit, rest) =>
      if 0xD800 ≤ unit ∧ unit < 0xDC00 then
        (unescapeUnit rest).map fun (low, rest) =>
          (Char.ofNat (0x10000 + (unit - 0xD800) * 0x400 + (low - 0xDC00)), rest)
      else some (Char.ofNat unit, rest)
  | '"' :: _ => none
  | c :: rest => some (c, rest)
  | [] => none

theorem unescapeUnit_escapeUnit {unit : ℕ} (h : unit < 0x10000) (rest : List Char) :
    unescapeUnit (escapeUnit unit ++ rest) = some (unit, rest) := by
  have h_digits : ((unit / 4096 % 16 * 16 + unit / 256 % 16) * 16 + unit / 16 % 16) * 16
      + unit % 16 = unit := by omega
  simp only [escapeUnit, List.cons_append, List.nil_append, unescapeUnit]
  rw [Sha256.hexDigitVal_hexDigit _ (by omega), Sha256.hexDigitVal_hexDigit _ (by omega),
    Sha256.hexDigitVal_hexDigit _ (by omega), Sha256.hexDigitVal_hexDigit _ (by omega), h_digits]

theorem unescapeAscii_escapeUnit {unit : ℕ} (h : unit < 0x10000) (rest : List Char) :
    unescapeAscii (escapeUnit unit ++ rest) =
      if 0xD800 ≤ unit ∧ unit < 0xDC00 then
        (unescapeUnit rest).map fun (low, rest) =>
          (Char.ofNat (0x10000 + (unit - 0xD800) * 0x400 + (low - 0xDC00)), rest)
      else some (Char.ofNat unit, rest) := by
  have h_unit := unescapeUnit_escapeUnit h rest
  simp only [escapeUnit, List.cons_append, List.nil_append] at h_unit ⊢
  rw [unescapeAscii, h_unit]
  · rfl
  all_goals simp

theorem unescapeAscii_escapeAscii (c : Char) (rest : List Char) :
    unescapeAscii (escapeAscii c ++ rest) = some (c, rest) := by
  have h_valid : c.toNat < 0xD800 ∨ 0xDFFF < c.toNat ∧ c.toNat < 0x110000 := c.valid
  unfold escapeAscii
  split_ifs with h_quote h_backslash h_n h_r h_t h_b h_f h_plain h_basic
  · rw [h_quote]; rfl
  · rw [h_backslash]; rfl
  · rw [h_n]; rfl
  · rw [h_r]; rfl
  · rw [h_t]; rfl
  · rw [Json.eq_ofNat h_b]; rfl
  · rw [Json.eq_ofNat h_f]; rfl
  · simp only [List.cons_append, List.nil_append]
    rw [unescapeAscii.eq_def]
    split <;> simp_all
  · rw [unescapeAscii_escapeUnit h_basic, if_neg (by omega), Char.ofNat_toNat]
  · -- a character beyond the basic plane: two units
    have h_sum : 0x10000 + (0xD800 + (c.toNat - 0x10000) / 0x400 - 0xD800) * 0x400
        + (0xDC00 + (c.toNat - 0x10000) % 0x400 - 0xDC00) = c.toNat := by omega
    rw [List.append_assoc, unescapeAscii_escapeUnit (by omega), if_pos (by omega),
      unescapeUnit_escapeUnit (by omega), Option.map_some]
    dsimp only
    rw [h_sum, Char.ofNat_toNat]

theorem escapeAscii_append_ne_quote (c : Char) (rest rest' : List Char) :
    escapeAscii c ++ rest ≠ '"' :: rest' := by
  intro h
  have h_read := unescapeAscii_escapeAscii c rest
  rw [h] at h_read
  simp [unescapeAscii] at h_read

theorem flatMap_escapeAscii_append_inj {cs cs' : List Char} {r r' : List Char}
    (h : cs.flatMap escapeAscii ++ '"' :: r = cs'.flatMap escapeAscii ++ '"' :: r') :
    cs = cs' ∧ r = r' := by
  induction cs generalizing cs' with
  | nil =>
    cases cs' with
    | nil => simpa using h
    | cons c' rest' =>
      rw [List.flatMap_cons, List.append_assoc] at h
      exact absurd h.symm (escapeAscii_append_ne_quote _ _ _)
  | cons c rest ih =>
    cases cs' with
    | nil =>
      rw [List.flatMap_cons, List.append_assoc] at h
      exact absurd h (escapeAscii_append_ne_quote _ _ _)
    | cons c' rest' =>
      rw [List.flatMap_cons, List.flatMap_cons, List.append_assoc, List.append_assoc] at h
      have h_read := congrArg unescapeAscii h
      rw [unescapeAscii_escapeAscii, unescapeAscii_escapeAscii, Option.some.injEq,
        Prod.mk.injEq] at h_read
      obtain ⟨h_c, h_rest⟩ := h_read
      obtain ⟨h_cs, h_r⟩ := ih h_rest
      exact ⟨by rw [h_c, h_cs], h_r⟩

theorem quoted_append_inj {s s' : String} {r r' : List Char}
    (h : quoted s ++ r = quoted s' ++ r') : s = s' ∧ r = r' := by
  simp only [quoted, List.cons_append, List.append_assoc, List.nil_append, List.cons.injEq,
    true_and] at h
  obtain ⟨h_chars, h_r⟩ := flatMap_escapeAscii_append_inj h
  exact ⟨String.toList_inj.mp h_chars, h_r⟩

/-! ## Numbers and constants -/

/-- The characters that may follow a value. -/
def isDelimiter (c : Char) : Bool := c = ',' || c = ']' || c = '\x7d'

def Delimited (r : List Char) : Prop := ∀ c ∈ r.head?, isDelimiter c = true

theorem Delimited.cons {c : Char} {r : List Char} (h : isDelimiter c = true) : Delimited (c :: r) := by
  intro c' h_head
  cases h_head
  exact h

theorem Delimited.nil : Delimited [] := fun _ h => by cases h

theorem plain_append_inj {cs cs' r r' : List Char} (h_cs : ∀ c ∈ cs, isDelimiter c = false)
    (h_cs' : ∀ c ∈ cs', isDelimiter c = false) (h_r : Delimited r) (h_r' : Delimited r')
    (h : cs ++ r = cs' ++ r') : cs = cs' ∧ r = r' := by
  refine Splitting.append_inj_of_stop h_cs h_cs' (fun c h_c => ?_) (fun c h_c => ?_) h
  · rw [h_r c h_c]
    exact Bool.noConfusion
  · rw [h_r' c h_c]
    exact Bool.noConfusion

/-- The characters of integers. -/
def intChar (c : Char) : Bool := c.isDigit || c = '-'

def floatChar (c : Char) : Bool := intChar c || c = '.' || c = 'e' || c = '+'

theorem intChar_of_mem_digits {n : ℕ} {c : Char} (h : c ∈ (toString n).toList) :
    intChar c = true := by
  rw [Nat.toString_eq_repr, Nat.toList_repr] at h
  rw [intChar, Nat.isDigit_of_mem_toDigits (by decide) (by decide) h, Bool.true_or]

theorem intChar_of_mem_toString {n : ℤ} {c : Char} (h : c ∈ (toString n).toList) :
    intChar c = true := by
  have h_digit {k : ℕ} (h_mem : c ∈ k.repr.toList) : intChar c = true := by
    rw [← Nat.toString_eq_repr] at h_mem
    exact intChar_of_mem_digits h_mem
  rw [Int.toString_eq_repr, Int.repr_eq_if] at h
  split at h
  · exact h_digit h
  · rw [String.toList_append] at h
    rcases List.mem_append.mp h with h_sign | h_mem
    · rw [List.mem_singleton.mp (show c ∈ ['-'] from h_sign)]
      rfl
    · exact h_digit h_mem

theorem toString_injective {m n : ℤ} (h : (toString m).toList = (toString n).toList) : m = n := by
  rw [Int.toString_eq_repr, Int.toString_eq_repr] at h
  exact Int.repr_injective (String.toList_inj.mp h)

theorem floatChar_of_intChar {c : Char} (h : intChar c = true) : floatChar c = true := by
  rw [floatChar, h]
  rfl

/-- The text of a float is one of floats, with a point or an exponent. -/
theorem finiteRepr_spec (negative : Bool) (digits : ℕ) (exponent : ℤ) :
    (∀ c ∈ finiteRepr negative digits exponent, floatChar c = true) ∧
      ∃ c ∈ finiteRepr negative digits exponent, intChar c = false := by
  have h_digits : ∀ c ∈ (toString digits).toList, floatChar c = true :=
    fun c h_c => floatChar_of_intChar (intChar_of_mem_digits h_c)
  have h_zeros : ∀ n : ℤ, ∀ c ∈ List.replicate n.toNat '0', floatChar c = true := by
    intro n c h_c
    rw [(List.mem_replicate.mp h_c).2]
    rfl
  have h_sign : ∀ c ∈ (if negative then ['-'] else []), floatChar c = true := by
    intro c h_c
    split at h_c
    · rw [List.mem_singleton.mp h_c]
      rfl
    · cases h_c
  unfold finiteRepr
  dsimp only
  generalize (if negative = true then ['-'] else []) = sign at h_sign ⊢
  split
  · split
    · refine ⟨?_, '.', by simp, rfl⟩
      simp only [List.forall_mem_append, List.forall_mem_cons]
      exact ⟨⟨⟨h_sign, rfl, rfl, nofun⟩, h_zeros _⟩, h_digits⟩
    · split
      · refine ⟨?_, '.', by simp, rfl⟩
        simp only [List.forall_mem_append, List.forall_mem_cons]
        exact ⟨⟨⟨h_sign, fun c h_c => h_digits c (List.mem_of_mem_take h_c)⟩, rfl, nofun⟩,
          fun c h_c => h_digits c (List.mem_of_mem_drop h_c)⟩
      · refine ⟨?_, '.', by simp, rfl⟩
        simp only [List.forall_mem_append, List.forall_mem_cons]
        exact ⟨⟨⟨h_sign, h_digits⟩, h_zeros _⟩, rfl, rfl, nofun⟩
  · have h_fraction : ∀ c ∈ (if (toString digits).toList.length = 1 then []
        else '.' :: (toString digits).toList.drop 1), floatChar c = true := by
      split
      · nofun
      · rw [List.forall_mem_cons]
        exact ⟨rfl, fun c h_c => h_digits c (List.mem_of_mem_drop h_c)⟩
    generalize (toString digits).toList.length + exponent - 1 = power
    have h_places : ∀ c ∈ (if (toString power.natAbs).toList.length = 1 then
        '0' :: (toString power.natAbs).toList else (toString power.natAbs).toList),
          floatChar c = true := by
      have h_natAbs : ∀ c ∈ (toString power.natAbs).toList, floatChar c = true :=
        fun c h_c => floatChar_of_intChar (intChar_of_mem_digits h_c)
      split
      · rw [List.forall_mem_cons]
        exact ⟨rfl, h_natAbs⟩
      · exact h_natAbs
    have h_mark : floatChar (if power < 0 then '-' else '+') = true := by
      split <;> rfl
    refine ⟨?_, 'e', by simp, rfl⟩
    simp only [List.forall_mem_append, List.forall_mem_cons]
    exact ⟨⟨⟨⟨h_sign, fun c h_c => h_digits c (List.mem_of_mem_take h_c)⟩, h_fraction⟩,
      rfl, h_mark, nofun⟩, h_places⟩

/-! ## Scalars -/

/-- One scalar, for a float up to its representation: two floats with one `repr` are one. -/
def SameScalar : Scalar → Scalar → Prop
  | .float (.finite n d e), .float (.finite n' d' e') => finiteRepr n d e = finiteRepr n' d' e'
  | s, t => s = t

theorem SameScalar.refl (s : Scalar) : SameScalar s s := by
  unfold SameScalar
  split <;> rfl

def words : List (Scalar × List Char) :=
  [(.none, ['n', 'u', 'l', 'l']), (.bool true, ['t', 'r', 'u', 'e']),
    (.bool false, ['f', 'a', 'l', 's', 'e']), (.float .nan, ['N', 'a', 'N']),
    (.float (.infinity false), ['I', 'n', 'f', 'i', 'n', 'i', 't', 'y']),
    (.float (.infinity true), ['-', 'I', 'n', 'f', 'i', 'n', 'i', 't', 'y'])]

theorem words_inj : ∀ word ∈ words, ∀ word' ∈ words, word.2 = word'.2 → word.1 = word'.1 := by
  decide

theorem exists_letter : ∀ word ∈ words, ∃ c ∈ word.2, floatChar c = false := by
  intro word h
  simp only [words, List.mem_cons, List.not_mem_nil, or_false] at h
  rcases h with rfl | rfl | rfl | rfl | rfl | rfl
  · exact ⟨'u', by simp, rfl⟩
  · exact ⟨'u', by simp, rfl⟩
  · exact ⟨'l', by simp, rfl⟩
  · exact ⟨'N', by simp, rfl⟩
  · exact ⟨'I', by simp, rfl⟩
  · exact ⟨'I', by simp, rfl⟩

/-- What a scalar without quotes is written with: a word, an integer or a float. -/
inductive Plain : Scalar → List Char → Prop where
  | word (s : Scalar) (cs : List Char) (h : (s, cs) ∈ words) : Plain s cs
  | int (n : ℤ) : Plain (.int n) (toString n).toList
  | finite (negative : Bool) (digits : ℕ) (exponent : ℤ) :
      Plain (.float (.finite negative digits exponent)) (finiteRepr negative digits exponent)

theorem plain_scalarText (s : Scalar) (h : ∀ text, s ≠ .str text) : Plain s (scalarText s) := by
  cases s with
  | none => exact .word _ _ (by decide)
  | bool b => cases b <;> exact .word _ _ (by decide)
  | int n => exact .int n
  | str text => exact absurd rfl (h text)
  | float x =>
    cases x with
    | nan => exact .word _ _ (by decide)
    | infinity negative => cases negative <;> exact .word _ _ (by decide)
    | finite negative digits exponent => exact .finite negative digits exponent

theorem Plain.same {s t : Scalar} {cs : List Char} (h : Plain s cs) (h' : Plain t cs) :
    SameScalar s t := by
  cases h with
  | word _ _ h_mem =>
    obtain ⟨c, h_c, h_letter⟩ := exists_letter _ h_mem
    cases h' with
    | word _ _ h_mem' =>
      rw [show s = t from words_inj _ h_mem _ h_mem' rfl]
      exact .refl t
    | int n =>
      rw [floatChar_of_intChar (intChar_of_mem_toString h_c)] at h_letter
      cases h_letter
    | finite negative digits exponent =>
      rw [(finiteRepr_spec negative digits exponent).1 c h_c] at h_letter
      cases h_letter
  | int n =>
    generalize h_cs : (toString n).toList = cs at h'
    cases h' with
    | word _ _ h_mem =>
      obtain ⟨c, h_c, h_letter⟩ := exists_letter _ h_mem
      rw [floatChar_of_intChar (intChar_of_mem_toString (h_cs ▸ h_c))] at h_letter
      cases h_letter
    | int m =>
      rw [toString_injective h_cs]
      rfl
    | finite negative digits exponent =>
      obtain ⟨c, h_c, h_point⟩ := (finiteRepr_spec negative digits exponent).2
      rw [intChar_of_mem_toString (h_cs ▸ h_c)] at h_point
      cases h_point
  | finite negative digits exponent =>
    generalize h_cs : finiteRepr negative digits exponent = cs at h'
    cases h' with
    | word _ _ h_mem =>
      obtain ⟨c, h_c, h_letter⟩ := exists_letter _ h_mem
      rw [(finiteRepr_spec negative digits exponent).1 c (h_cs ▸ h_c)] at h_letter
      cases h_letter
    | int m =>
      obtain ⟨c, h_c, h_point⟩ := (finiteRepr_spec negative digits exponent).2
      rw [intChar_of_mem_toString (h_cs ▸ h_c)] at h_point
      cases h_point
    | finite negative' digits' exponent' => exact h_cs

theorem isDelimiter_of_floatChar {c : Char} (h : floatChar c = true) : isDelimiter c = false := by
  rw [isDelimiter]
  simp only [Bool.or_eq_false_iff, decide_eq_false_iff_not]
  refine ⟨⟨?_, ?_⟩, ?_⟩
  · rintro rfl
    cases h
  · rintro rfl
    cases h
  · rintro rfl
    cases h

theorem Plain.notDelimiter {s : Scalar} {cs : List Char} (h : Plain s cs) :
    ∀ c ∈ cs, isDelimiter c = false := by
  cases h with
  | word _ _ h_mem =>
    have h_words : ∀ word ∈ words, ∀ c ∈ word.2, isDelimiter c = false := by
      simp [words, isDelimiter]
    exact h_words _ h_mem
  | int n =>
    intro c h_c
    exact isDelimiter_of_floatChar (floatChar_of_intChar (intChar_of_mem_toString h_c))
  | finite negative digits exponent =>
    intro c h_c
    exact isDelimiter_of_floatChar ((finiteRepr_spec negative digits exponent).1 c h_c)

theorem Plain.ne_nil {s : Scalar} {cs : List Char} (h : Plain s cs) : cs ≠ [] := by
  cases h with
  | word _ _ h_mem =>
    have h_words : ∀ word ∈ words, word.2 ≠ [] := by decide
    exact h_words _ h_mem
  | int n =>
    rw [Int.toString_eq_repr, Int.repr_eq_if]
    split
    · exact fun h => Nat.repr_ne_empty (String.toList_eq_nil_iff.mp h)
    · exact fun h => Nat.repr_ne_empty (String.append_eq_empty_iff.mp
        (String.toList_eq_nil_iff.mp h)).2
  | finite negative digits exponent =>
    obtain ⟨c, h_c, -⟩ := (finiteRepr_spec negative digits exponent).2
    exact List.ne_nil_of_mem h_c

theorem Plain.head {s : Scalar} {cs : List Char} (h : Plain s cs) :
    ∃ c rest, cs = c :: rest ∧ c ≠ '"' ∧ c ≠ '[' ∧ c ≠ '\x7b' := by
  cases h_cs : cs with
  | nil => exact absurd h_cs h.ne_nil
  | cons c rest =>
    refine ⟨c, rest, rfl, ?_⟩
    have h_float : floatChar c = true → c ≠ '"' ∧ c ≠ '[' ∧ c ≠ '\x7b' := by
      intro h_char
      refine ⟨?_, ?_, ?_⟩ <;> (rintro rfl; cases h_char)
    cases h with
    | word _ _ h_mem =>
      have h_words : ∀ word ∈ words, ∀ c ∈ word.2.head?, c ≠ '"' ∧ c ≠ '[' ∧ c ≠ '\x7b' := by
        simp [words]
      exact h_words _ h_mem c (by rw [h_cs]; rfl)
    | int n =>
      exact h_float (floatChar_of_intChar (intChar_of_mem_toString (h_cs ▸ List.mem_cons_self)))
    | finite negative digits exponent =>
      exact h_float ((finiteRepr_spec negative digits exponent).1 c (h_cs ▸ List.mem_cons_self))

/-! ## Values -/

mutual

/-- The text of a value whose dictionaries are written in the order they are in. -/
def written : Value → List Char
  | .scalar s => scalarText s
  | .list items => '[' :: writtenItems items
  | .dict members => '\x7b' :: writtenMembers members

/-- Items up to the closing bracket. -/
def writtenItems : List Value → List Char
  | [] => [']']
  | item :: rest => written item ++ writtenMore rest

def writtenMore : List Value → List Char
  | [] => [']']
  | item :: rest => ',' :: (written item ++ writtenMore rest)

def writtenMembers : List (String × Value) → List Char
  | [] => ['\x7d']
  | (key, value) :: rest => quoted key ++ ':' :: (written value ++ writtenMoreMembers rest)

def writtenMoreMembers : List (String × Value) → List Char
  | [] => ['\x7d']
  | (key, value) :: rest => ',' :: (quoted key ++ ':' :: (written value ++ writtenMoreMembers rest))

end

mutual

/-- One value, up to the representation of its floats. -/
def Same : Value → Value → Prop
  | .scalar s, .scalar t => SameScalar s t
  | .list items, .list items' => SameItems items items'
  | .dict members, .dict members' => SameMembers members members'
  | _, _ => False

def SameItems : List Value → List Value → Prop
  | [], [] => True
  | item :: rest, item' :: rest' => Same item item' ∧ SameItems rest rest'
  | _, _ => False

def SameMembers : List (String × Value) → List (String × Value) → Prop
  | [], [] => True
  | (key, value) :: rest, (key', value') :: rest' =>
    key = key' ∧ Same value value' ∧ SameMembers rest rest'
  | _, _ => False

end

theorem delimited_writtenMore (items : List Value) (r : List Char) :
    Delimited (writtenMore items ++ r) := by
  cases items with
  | nil =>
    rw [writtenMore]
    exact .cons (by decide)
  | cons item rest =>
    rw [writtenMore]
    exact .cons (by decide)

theorem delimited_writtenMoreMembers (members : List (String × Value)) (r : List Char) :
    Delimited (writtenMoreMembers members ++ r) := by
  cases members with
  | nil =>
    rw [writtenMoreMembers]
    exact .cons (by decide)
  | cons member rest =>
    rw [writtenMoreMembers]
    exact .cons (by decide)

/-- The first character tells strings, lists, dictionaries and the rest apart. -/
def kindOfHead (c : Char) : ℕ :=
  if c = '"' then 0 else if c = '[' then 1 else if c = '\x7b' then 2 else 3

def kind : Value → ℕ
  | .scalar (.str _) => 0
  | .list _ => 1
  | .dict _ => 2
  | .scalar _ => 3

theorem exists_head_written (a : Value) :
    ∃ c rest, written a = c :: rest ∧ kindOfHead c = kind a ∧ isDelimiter c = false := by
  cases a with
  | list items => exact ⟨'[', _, by rw [written], rfl, rfl⟩
  | dict members => exact ⟨'\x7b', _, by rw [written], rfl, rfl⟩
  | scalar s =>
    by_cases h_str : ∃ text, s = .str text
    · obtain ⟨text, rfl⟩ := h_str
      have h_written : written (.scalar (.str text)) = quoted text := by
        rw [written]
        exact rfl
      exact ⟨'"', _, h_written, rfl, rfl⟩
    · have h_plain := plain_scalarText s fun text h => h_str ⟨text, h⟩
      obtain ⟨c, rest, h_cs, h_quote, h_bracket, h_brace⟩ := h_plain.head
      refine ⟨c, rest, by rw [written, h_cs], ?_, ?_⟩
      · have h_kind : kind (.scalar s) = 3 := by
          cases s with
          | str text => exact absurd ⟨text, rfl⟩ h_str
          | _ => rfl
        rw [h_kind, kindOfHead, if_neg h_quote, if_neg h_bracket, if_neg h_brace]
      · exact h_plain.notDelimiter c (h_cs ▸ List.mem_cons_self)

theorem kind_eq_of_written_append {a b : Value} {r r' : List Char}
    (h : written a ++ r = written b ++ r') : kind a = kind b := by
  obtain ⟨c, rest, h_a, h_kind, -⟩ := exists_head_written a
  obtain ⟨c', rest', h_b, h_kind', -⟩ := exists_head_written b
  rw [h_a, h_b, List.cons_append, List.cons_append, List.cons.injEq] at h
  rw [← h_kind, ← h_kind', h.1]

theorem kind_scalar {s : Scalar} : kind (.scalar s) = 0 ↔ ∃ text, s = .str text := by
  cases s with
  | str text => exact iff_of_true rfl ⟨text, rfl⟩
  | _ => simp [kind]

theorem scalarText_append_inj {s t : Scalar} (h_kind : kind (.scalar s) = kind (.scalar t))
    {r r' : List Char} (h_r : Delimited r) (h_r' : Delimited r')
    (h : scalarText s ++ r = scalarText t ++ r') : Same (.scalar s) (.scalar t) ∧ r = r' := by
  by_cases h_str : kind (.scalar s) = 0
  · obtain ⟨text, rfl⟩ := kind_scalar.mp h_str
    obtain ⟨text', rfl⟩ := kind_scalar.mp (h_kind.symm.trans h_str)
    obtain ⟨h_text, h_rest⟩ := quoted_append_inj h
    rw [Same, h_text]
    exact ⟨.refl _, h_rest⟩
  · have h_s := plain_scalarText s fun text h => h_str (kind_scalar.mpr ⟨text, h⟩)
    have h_t := plain_scalarText t fun text h => h_str (h_kind.trans (kind_scalar.mpr ⟨text, h⟩))
    obtain ⟨h_text, h_rest⟩ := plain_append_inj h_s.notDelimiter h_t.notDelimiter h_r h_r' h
    rw [Same]
    exact ⟨h_s.same (h_text ▸ h_t), h_rest⟩

theorem written_append_ne {c : Char} (h_c : isDelimiter c = true) (a : Value) (r r' : List Char) :
    written a ++ r ≠ c :: r' := by
  intro h
  obtain ⟨c', rest, h_a, -, h_delimiter⟩ := exists_head_written a
  rw [h_a, List.cons_append, List.cons.injEq] at h
  rw [h.1, h_c] at h_delimiter
  cases h_delimiter

mutual

theorem written_append_inj (a b : Value) {r r' : List Char} (h_r : Delimited r)
    (h_r' : Delimited r') (h : written a ++ r = written b ++ r') : Same a b ∧ r = r' := by
  have h_kind := kind_eq_of_written_append h
  cases a with
  | scalar s =>
    cases b with
    | scalar t =>
      rw [written, written] at h
      exact scalarText_append_inj h_kind h_r h_r' h
    | list items => cases s <;> cases h_kind
    | dict members => cases s <;> cases h_kind
  | list items =>
    cases b with
    | scalar t => cases t <;> cases h_kind
    | list items' =>
      rw [written, written, List.cons_append, List.cons_append, List.cons.injEq] at h
      exact writtenItems_append_inj items items' h.2
    | dict members => cases h_kind
  | dict members =>
    cases b with
    | scalar t => cases t <;> cases h_kind
    | list items => cases h_kind
    | dict members' =>
      rw [written, written, List.cons_append, List.cons_append, List.cons.injEq] at h
      exact writtenMembers_append_inj members members' h.2
termination_by sizeOf a

theorem writtenItems_append_inj (items items' : List Value) {r r' : List Char}
    (h : writtenItems items ++ r = writtenItems items' ++ r') : SameItems items items' ∧ r = r' := by
  cases items with
  | nil =>
    cases items' with
    | nil =>
      rw [writtenItems] at h
      exact ⟨trivial, (List.cons.inj h).2⟩
    | cons item' rest' =>
      rw [writtenItems, writtenItems, List.append_assoc] at h
      exact absurd h.symm (written_append_ne (by decide) _ _ _)
  | cons item rest =>
    cases items' with
    | nil =>
      rw [writtenItems, writtenItems, List.append_assoc] at h
      exact absurd h (written_append_ne (by decide) _ _ _)
    | cons item' rest' =>
      rw [writtenItems, writtenItems, List.append_assoc, List.append_assoc] at h
      obtain ⟨h_item, h_more⟩ := written_append_inj item item' (delimited_writtenMore rest r)
        (delimited_writtenMore rest' r') h
      obtain ⟨h_rest, h_r⟩ := writtenMore_append_inj rest rest' h_more
      exact ⟨⟨h_item, h_rest⟩, h_r⟩
termination_by sizeOf items

theorem writtenMore_append_inj (items items' : List Value) {r r' : List Char}
    (h : writtenMore items ++ r = writtenMore items' ++ r') : SameItems items items' ∧ r = r' := by
  cases items with
  | nil =>
    cases items' with
    | nil =>
      rw [writtenMore] at h
      exact ⟨trivial, (List.cons.inj h).2⟩
    | cons item' rest' =>
      rw [writtenMore, writtenMore] at h
      exact absurd (List.cons.inj h).1 (by decide)
  | cons item rest =>
    cases items' with
    | nil =>
      rw [writtenMore, writtenMore] at h
      exact absurd (List.cons.inj h).1 (by decide)
    | cons item' rest' =>
      rw [writtenMore, writtenMore, List.cons_append, List.cons_append, List.cons.injEq,
        List.append_assoc, List.append_assoc] at h
      obtain ⟨h_item, h_more⟩ := written_append_inj item item' (delimited_writtenMore rest r)
        (delimited_writtenMore rest' r') h.2
      obtain ⟨h_rest, h_r⟩ := writtenMore_append_inj rest rest' h_more
      exact ⟨⟨h_item, h_rest⟩, h_r⟩
termination_by sizeOf items

theorem writtenMembers_append_inj : ∀ (members members' : List (String × Value)) {r r' : List Char},
    writtenMembers members ++ r = writtenMembers members' ++ r' →
      SameMembers members members' ∧ r = r'
  | [], [], r, r', h => by
    rw [writtenMembers] at h
    exact ⟨trivial, (List.cons.inj h).2⟩
  | [], (key', value') :: rest', r, r', h => by
    rw [writtenMembers, writtenMembers] at h
    exact absurd (List.cons.inj h).1 (by decide)
  | (key, value) :: rest, [], r, r', h => by
    rw [writtenMembers, writtenMembers] at h
    exact absurd (List.cons.inj h).1 (by decide)
  | (key, value) :: rest, (key', value') :: rest', r, r', h => by
    rw [writtenMembers, writtenMembers, List.append_assoc, List.append_assoc] at h
    obtain ⟨h_key, h_value⟩ := quoted_append_inj h
    rw [List.cons_append, List.cons_append, List.cons.injEq, List.append_assoc,
      List.append_assoc] at h_value
    obtain ⟨h_value, h_more⟩ := written_append_inj value value'
      (delimited_writtenMoreMembers rest r) (delimited_writtenMoreMembers rest' r') h_value.2
    obtain ⟨h_rest, h_r⟩ := writtenMoreMembers_append_inj rest rest' h_more
    exact ⟨⟨h_key, h_value, h_rest⟩, h_r⟩
termination_by members => sizeOf members

theorem writtenMoreMembers_append_inj : ∀ (members members' : List (String × Value))
    {r r' : List Char},
    writtenMoreMembers members ++ r = writtenMoreMembers members' ++ r' →
      SameMembers members members' ∧ r = r'
  | [], [], r, r', h => by
    rw [writtenMoreMembers] at h
    exact ⟨trivial, (List.cons.inj h).2⟩
  | [], (key', value') :: rest', r, r', h => by
    rw [writtenMoreMembers, writtenMoreMembers] at h
    exact absurd (List.cons.inj h).1 (by decide)
  | (key, value) :: rest, [], r, r', h => by
    rw [writtenMoreMembers, writtenMoreMembers] at h
    exact absurd (List.cons.inj h).1 (by decide)
  | (key, value) :: rest, (key', value') :: rest', r, r', h => by
    rw [writtenMoreMembers, writtenMoreMembers, List.cons_append, List.cons_append,
      List.cons.injEq, List.append_assoc, List.append_assoc] at h
    obtain ⟨h_key, h_value⟩ := quoted_append_inj h.2
    rw [List.cons_append, List.cons_append, List.cons.injEq, List.append_assoc,
      List.append_assoc] at h_value
    obtain ⟨h_value, h_more⟩ := written_append_inj value value'
      (delimited_writtenMoreMembers rest r) (delimited_writtenMoreMembers rest' r') h_value.2
    obtain ⟨h_rest, h_r⟩ := writtenMoreMembers_append_inj rest rest' h_more
    exact ⟨⟨h_key, h_value, h_rest⟩, h_r⟩
termination_by members => sizeOf members

end

end VyomQuant.StrategyDag
