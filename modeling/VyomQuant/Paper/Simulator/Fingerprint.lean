/-
  VyomQuant.Paper.Simulator.Fingerprint

  The text that `order_fingerprint` takes its digest of: six fields joined by `|`, the two
  figures canonicalised.

  The join is taken apart again at every `|`, so two intents share a fingerprint exactly when
  their fields fall into the same pieces.  `identifies_iff` names the three ways in which that
  differs from being the same order.
-/

import VyomQuant.Paper.Feed.Candle
import VyomQuant.Paper.Simulator.Types

namespace VyomQuant.Paper

open Decimal
open Accounting (OrderSide isBlank)

/-! ## The parameters of an order -/

/-- A finite `Decimal`: its sign stands apart, as zero has one too. -/
structure Figure where
  negative : Bool
  magnitude : ℚ
  magnitude_nonneg : 0 ≤ magnitude
deriving DecidableEq

variable {text text' : String}

namespace Figure

def value (figure : Figure) : ℚ := if figure.negative then -figure.magnitude else figure.magnitude

/-- `canonical_number`; `none` is the `Overflow` that `normalize` raises. -/
def canonicalNumber (figure : Figure) : Option String :=
  (normalize figure.magnitude).map (plainText figure.negative)

/-- Figures that `normalize` does not tell apart. -/
def SameRounded (figure figure' : Figure) : Prop :=
  figure.negative = figure'.negative ∧ normalize figure.magnitude = normalize figure'.magnitude

variable {figure : Figure}

theorem canonicalNumber_eq_iff {figure' : Figure} (h : figure.canonicalNumber = some text)
    (h' : figure'.canonicalNumber = some text') : text = text' ↔ figure.SameRounded figure' := by
  obtain ⟨x, h_x, rfl⟩ := Option.map_eq_some_iff.mp h
  obtain ⟨y, h_y, rfl⟩ := Option.map_eq_some_iff.mp h'
  unfold SameRounded
  rw [h_x, h_y, Option.some.injEq]
  constructor
  · intro h_text
    obtain ⟨d, h_d⟩ := Context.normalize_onGrid h_x
    obtain ⟨e, h_e⟩ := Context.normalize_onGrid h_y
    obtain ⟨h_sign, h_abs⟩ := plainText_inj h_d h_e h_text
    rw [abs_of_nonneg (Context.normalize_nonneg h_x figure.magnitude_nonneg),
      abs_of_nonneg (Context.normalize_nonneg h_y figure'.magnitude_nonneg)] at h_abs
    exact ⟨h_sign, h_abs⟩
  · rintro ⟨h_sign, h_value⟩
    rw [h_sign, h_value]

theorem bar_notMem_canonicalNumber (h : figure.canonicalNumber = some text) :
    '|' ∉ text.toList := by
  obtain ⟨x, _, rfl⟩ := Option.map_eq_some_iff.mp h
  intro h_mem
  exact absurd (isNumberChar_of_mem_plainText h_mem) (by decide)

theorem eq_of_value_eq {figure' : Figure} (h_sign : figure.negative = figure'.negative)
    (h : figure.value = figure'.value) : figure = figure' := by
  obtain ⟨negative, magnitude, h_nonneg⟩ := figure
  obtain ⟨negative', magnitude', h_nonneg'⟩ := figure'
  simp only at h_sign
  subst h_sign
  have h_magnitude : magnitude = magnitude' := by
    cases negative with
    | false => exact h
    | true => exact neg_injective h
  subst h_magnitude
  rfl

end Figure

/-- The parameters of an `OrderIntent` that its fingerprint is over. -/
structure OrderParameters where
  symbol : String
  side : String
  orderType : String
  quantity : Figure
  limitPrice : Option Figure
  timeInForce : String
deriving DecidableEq

/-- `OrderIntent.__post_init__`: the four texts are stripped and none is blank; `lower` and
    `upper` are `str.lower` and `str.upper`. -/
def postInit (lower upper : String → String) (intent : OrderParameters) : Option OrderParameters :=
  if [intent.symbol, intent.side, intent.orderType, intent.timeInForce].any isBlank then
    none
  else
    some { intent with
      symbol := Feed.strip intent.symbol
      side := lower (Feed.strip intent.side)
      orderType := lower (Feed.strip intent.orderType)
      timeInForce := upper (Feed.strip intent.timeInForce) }

/-- The canonical text of a limit price: an absent one contributes the empty string. -/
def limitText : Option Figure → Option String
  | none => some ""
  | some limit => limit.canonicalNumber

/-- What the digest is taken of. -/
def fingerprintText (intent : OrderParameters) : Option String := do
  let quantity ← intent.quantity.canonicalNumber
  let limitPrice ← limitText intent.limitPrice
  return String.intercalate "|"
    [intent.symbol, intent.side, intent.orderType, quantity, limitPrice, intent.timeInForce]

/-- `order_fingerprint`. -/
def fingerprintOf (sha256 : String → String) (intent : OrderParameters) : Option String :=
  (fingerprintText intent).map sha256

/-! ## The same order -/

/-- Both limit prices are absent, or they are related. -/
def LimitsRelated (R : Figure → Figure → Prop) : Option Figure → Option Figure → Prop
  | none, none => True
  | some limit, some limit' => R limit limit'
  | _, _ => False

/-- The texts of two orders are equal. -/
structure SameTexts (intent intent' : OrderParameters) : Prop where
  symbol : intent.symbol = intent'.symbol
  side : intent.side = intent'.side
  orderType : intent.orderType = intent'.orderType
  timeInForce : intent.timeInForce = intent'.timeInForce

structure FiguresRelated (R : Figure → Figure → Prop) (intent intent' : OrderParameters) :
    Prop where
  quantity : R intent.quantity intent'.quantity
  limitPrice : LimitsRelated R intent.limitPrice intent'.limitPrice

theorem FiguresRelated.imp {R S : Figure → Figure → Prop} {intent intent' : OrderParameters}
    (h : FiguresRelated R intent intent') (h_imp : ∀ figure figure', R figure figure' → S figure figure') :
    FiguresRelated S intent intent' := by
  refine ⟨h_imp _ _ h.quantity, ?_⟩
  have h_limit := h.limitPrice
  cases h_left : intent.limitPrice <;> cases h_right : intent'.limitPrice <;>
    rw [h_left, h_right] at h_limit
  · trivial
  · exact h_limit
  · exact h_limit
  · exact h_imp _ _ h_limit

theorem FiguresRelated.and {R S : Figure → Figure → Prop} {intent intent' : OrderParameters}
    (h : FiguresRelated R intent intent') (h' : FiguresRelated S intent intent') :
    FiguresRelated (fun figure figure' => R figure figure' ∧ S figure figure') intent intent' := by
  refine ⟨⟨h.quantity, h'.quantity⟩, ?_⟩
  have h_limit := h.limitPrice
  have h_limit' := h'.limitPrice
  cases h_left : intent.limitPrice <;> cases h_right : intent'.limitPrice <;>
    rw [h_left, h_right] at h_limit h_limit'
  · trivial
  · exact h_limit
  · exact h_limit
  · exact ⟨h_limit, h_limit'⟩

/-- Two decimals are numerically equal. -/
def SameValue (figure figure' : Figure) : Prop := figure.value = figure'.value

def SameOrder (intent intent' : OrderParameters) : Prop :=
  SameTexts intent intent' ∧ FiguresRelated SameValue intent intent'

/-- The fingerprints of two intents are equal exactly when the orders are. -/
def Identifies (sha256 : String → String) (intent intent' : OrderParameters) : Prop :=
  ∃ fingerprint fingerprint', fingerprintOf sha256 intent = some fingerprint ∧
    fingerprintOf sha256 intent' = some fingerprint' ∧
    (fingerprint = fingerprint' ↔ SameOrder intent intent')

/-! ## Three ways to differ -/

/-- A text cut at every `|`. -/
def cut (text : String) : List (List Char) := text.toList.splitOn '|'

/-- The pieces that the six fields fall into. -/
def pieces (intent : OrderParameters) : Option (List (List Char)) := do
  let quantity ← intent.quantity.canonicalNumber
  let limitPrice ← limitText intent.limitPrice
  return cut intent.symbol ++ (cut intent.side ++ (cut intent.orderType ++ (cut quantity ++
    (cut limitPrice ++ cut intent.timeInForce))))

/-- No figure overflows. -/
structure Normal (intent : OrderParameters) : Prop where
  quantity : (normalize intent.quantity.magnitude).isSome
  limitPrice : ∀ limit ∈ intent.limitPrice, (normalize limit.magnitude).isSome

/-- The same order, but a figure is zero in both with another sign. -/
def ZeroSignsDiffer (intent intent' : OrderParameters) : Prop :=
  SameOrder intent intent' ∧
    ¬ FiguresRelated (fun figure figure' => figure.negative = figure'.negative) intent intent'

/-- Different figures that are one figure in 28 digits. -/
def RoundedTogether (intent intent' : OrderParameters) : Prop :=
  SameTexts intent intent' ∧ FiguresRelated Figure.SameRounded intent intent' ∧
    ¬ FiguresRelated SameValue intent intent'

/-- Different texts that fall into the same pieces: one has a `|` where the other ends. -/
def CutAlike (intent intent' : OrderParameters) : Prop :=
  ¬ SameTexts intent intent' ∧ pieces intent = pieces intent'

section Pieces

variable {intent intent' : OrderParameters}

theorem fingerprintText_of_normal (h : Normal intent) : ∃ quantity limitPrice,
    intent.quantity.canonicalNumber = some quantity ∧
    limitText intent.limitPrice = some limitPrice ∧
    fingerprintText intent = some (String.intercalate "|"
      [intent.symbol, intent.side, intent.orderType, quantity, limitPrice, intent.timeInForce]) ∧
    pieces intent = some (cut intent.symbol ++ (cut intent.side ++ (cut intent.orderType ++
      (cut quantity ++ (cut limitPrice ++ cut intent.timeInForce))))) := by
  obtain ⟨x, h_x⟩ := Option.isSome_iff_exists.mp h.quantity
  have h_quantity : intent.quantity.canonicalNumber
      = some (plainText intent.quantity.negative x) := by
    rw [Figure.canonicalNumber, h_x, Option.map_some]
  obtain ⟨limitPrice, h_limit⟩ : ∃ text, limitText intent.limitPrice = some text := by
    cases h_price : intent.limitPrice with
    | none => exact ⟨"", rfl⟩
    | some limit =>
      obtain ⟨y, h_y⟩ := Option.isSome_iff_exists.mp (h.limitPrice limit h_price)
      exact ⟨_, by rw [limitText, Figure.canonicalNumber, h_y, Option.map_some]⟩
  refine ⟨_, limitPrice, h_quantity, h_limit, ?_, ?_⟩
  · rw [fingerprintText, h_quantity, h_limit]
    rfl
  · rw [pieces, h_quantity, h_limit]
    rfl

theorem normal_of_fingerprintText (h : fingerprintText intent = some text) : Normal intent := by
  simp only [fingerprintText, bind, Option.bind_eq_some_iff] at h
  obtain ⟨quantity, h_quantity, limitPrice, h_limit, _⟩ := h
  have h_some {figure : Figure} {number : String} (h : figure.canonicalNumber = some number) :
      (normalize figure.magnitude).isSome := by
    obtain ⟨x, h_x, _⟩ := Option.map_eq_some_iff.mp h
    rw [h_x]
    rfl
  refine ⟨h_some h_quantity, ?_⟩
  intro limit h_mem
  rw [Option.mem_def] at h_mem
  rw [h_mem] at h_limit
  exact h_some h_limit

theorem cut_intercalate (a b c d e f : String) :
    cut (String.intercalate "|" [a, b, c, d, e, f]) =
      cut a ++ (cut b ++ (cut c ++ (cut d ++ (cut e ++ cut f)))) := by
  have h_cons (x : String) (rest : List String) (h : rest ≠ []) :
      cut (String.intercalate "|" (x :: rest)) = cut x ++ cut (String.intercalate "|" rest) := by
    unfold cut
    rw [String.intercalate_cons_of_ne_nil h, String.append_assoc, String.toList_append,
      String.toList_append]
    exact List.splitOn_append_cons_self _ _
  rw [h_cons a _ (by simp), h_cons b _ (by simp), h_cons c _ (by simp), h_cons d _ (by simp),
    h_cons e _ (by simp), String.intercalate_singleton]

theorem cut_injective : Function.Injective cut := by
  intro text text' h
  have h_join := congrArg (List.intercalate ['|']) h
  unfold cut at h_join
  rw [List.intercalate_splitOn, List.intercalate_splitOn] at h_join
  exact String.toList_inj.mp h_join

theorem cut_of_notMem (h : '|' ∉ text.toList) : cut text = [text.toList] :=
  List.splitOn_eq_singleton h

theorem fingerprintText_eq_iff (h : fingerprintText intent = some text)
    (h' : fingerprintText intent' = some text') :
    text = text' ↔ pieces intent = pieces intent' := by
  obtain ⟨quantity, limitPrice, _, _, h_text, h_pieces⟩ :=
    fingerprintText_of_normal (normal_of_fingerprintText h)
  obtain ⟨quantity', limitPrice', _, _, h_text', h_pieces'⟩ :=
    fingerprintText_of_normal (normal_of_fingerprintText h')
  obtain rfl := Option.some.inj (h.symm.trans h_text)
  obtain rfl := Option.some.inj (h'.symm.trans h_text')
  rw [h_pieces, h_pieces', Option.some.injEq, ← cut_intercalate, ← cut_intercalate]
  exact cut_injective.eq_iff.symm

theorem limitText_eq_iff {limit limit' : Option Figure} (h : limitText limit = some text)
    (h' : limitText limit' = some text') :
    text = text' ↔ LimitsRelated Figure.SameRounded limit limit' := by
  have h_some {figure : Figure} {number : String} (h : figure.canonicalNumber = some number) :
      number ≠ "" := by
    obtain ⟨x, _, rfl⟩ := Option.map_eq_some_iff.mp h
    exact plainText_ne_empty _ _
  cases limit with
  | none =>
    obtain rfl := Option.some.inj h
    cases limit' with
    | none =>
      obtain rfl := Option.some.inj h'
      exact iff_of_true rfl trivial
    | some figure' => exact iff_of_false (h_some h').symm id
  | some figure =>
    cases limit' with
    | none =>
      obtain rfl := Option.some.inj h'
      exact iff_of_false (h_some h) id
    | some figure' => exact Figure.canonicalNumber_eq_iff h h'

theorem bar_notMem_limitText {limit : Option Figure} (h : limitText limit = some text) :
    '|' ∉ text.toList := by
  cases limit with
  | none =>
    obtain rfl := Option.some.inj h
    exact List.not_mem_nil
  | some figure => exact Figure.bar_notMem_canonicalNumber h

theorem pieces_eq_iff_of_sameTexts (h_normal : Normal intent) (h_normal' : Normal intent')
    (h_texts : SameTexts intent intent') :
    pieces intent = pieces intent' ↔ FiguresRelated Figure.SameRounded intent intent' := by
  obtain ⟨quantity, limitPrice, h_quantity, h_limit, _, h_pieces⟩ :=
    fingerprintText_of_normal h_normal
  obtain ⟨quantity', limitPrice', h_quantity', h_limit', _, h_pieces'⟩ :=
    fingerprintText_of_normal h_normal'
  rw [h_pieces, h_pieces', Option.some.injEq, h_texts.symbol, h_texts.side, h_texts.orderType,
    h_texts.timeInForce, cut_of_notMem (Figure.bar_notMem_canonicalNumber h_quantity),
    cut_of_notMem (Figure.bar_notMem_canonicalNumber h_quantity'),
    cut_of_notMem (bar_notMem_limitText h_limit), cut_of_notMem (bar_notMem_limitText h_limit'),
    List.append_cancel_left_eq, List.append_cancel_left_eq, List.append_cancel_left_eq]
  constructor
  · intro h
    obtain ⟨h_first, h_rest⟩ := List.cons.inj h
    obtain ⟨h_second, _⟩ := List.cons.inj h_rest
    exact ⟨(Figure.canonicalNumber_eq_iff h_quantity h_quantity').mp (String.toList_inj.mp h_first),
      (limitText_eq_iff h_limit h_limit').mp (String.toList_inj.mp h_second)⟩
  · intro h
    rw [(Figure.canonicalNumber_eq_iff h_quantity h_quantity').mpr h.quantity,
      (limitText_eq_iff h_limit h_limit').mpr h.limitPrice]

end Pieces

/-! ## When the fingerprint identifies the order -/

/-- Unless two digests collide, fingerprints tell two intents apart exactly as their parameters
    do, but for three kinds of pairs and for figures that overflow: a zero of each sign, figures
    that agree in 28 digits, and texts with a `|` that shift the fields. -/
theorem identifies_iff (sha256 : String → String) (intent intent' : OrderParameters)
    (h_sha : ∀ text text', fingerprintText intent = some text →
      fingerprintText intent' = some text' → sha256 text = sha256 text' → text = text') :
    Identifies sha256 intent intent' ↔ Normal intent ∧ Normal intent' ∧
      ¬ ZeroSignsDiffer intent intent' ∧ ¬ RoundedTogether intent intent' ∧
      ¬ CutAlike intent intent' := by
  constructor
  · rintro ⟨_, _, h_print, h_print', h_same⟩
    obtain ⟨text, h_text, rfl⟩ := Option.map_eq_some_iff.mp h_print
    obtain ⟨text', h_text', rfl⟩ := Option.map_eq_some_iff.mp h_print'
    have h_normal := normal_of_fingerprintText h_text
    have h_normal' := normal_of_fingerprintText h_text'
    have h_pieces : pieces intent = pieces intent' ↔ SameOrder intent intent' := by
      rw [← fingerprintText_eq_iff h_text h_text', ← h_same]
      exact ⟨congrArg sha256, h_sha _ _ h_text h_text'⟩
    refine ⟨h_normal, h_normal', ?_, ?_, ?_⟩
    · rintro ⟨h_order, h_signs⟩
      have h_rounded := (pieces_eq_iff_of_sameTexts h_normal h_normal' h_order.1).mp
        (h_pieces.mpr h_order)
      exact h_signs (h_rounded.imp fun _ _ h => h.1)
    · rintro ⟨h_texts, h_rounded, h_values⟩
      have h_cut := (pieces_eq_iff_of_sameTexts h_normal h_normal' h_texts).mpr h_rounded
      exact h_values (h_pieces.mp h_cut).2
    · rintro ⟨h_texts, h_cut⟩
      exact h_texts (h_pieces.mp h_cut).1
  · rintro ⟨h_normal, h_normal', h_zero, h_rounded, h_cut⟩
    obtain ⟨_, _, _, _, h_text, _⟩ := fingerprintText_of_normal h_normal
    obtain ⟨_, _, _, _, h_text', _⟩ := fingerprintText_of_normal h_normal'
    refine ⟨_, _, Option.map_eq_some_iff.mpr ⟨_, h_text, rfl⟩,
      Option.map_eq_some_iff.mpr ⟨_, h_text', rfl⟩, ?_⟩
    have h_pieces := fingerprintText_eq_iff h_text h_text'
    constructor
    · intro h_print
      have h_alike := h_pieces.mp (h_sha _ _ h_text h_text' h_print)
      by_cases h_texts : SameTexts intent intent'
      · refine ⟨h_texts, ?_⟩
        by_contra h_values
        exact h_rounded ⟨h_texts,
          (pieces_eq_iff_of_sameTexts h_normal h_normal' h_texts).mp h_alike, h_values⟩
      · exact absurd ⟨h_texts, h_alike⟩ h_cut
    · intro h_order
      have h_signs : FiguresRelated (fun figure figure' => figure.negative = figure'.negative)
          intent intent' := by
        by_contra h_signs
        exact h_zero ⟨h_order, h_signs⟩
      -- Equal values of one sign are one figure, and so are rounded alike.
      have h_figures : FiguresRelated Figure.SameRounded intent intent' :=
        (h_signs.and h_order.2).imp fun figure figure' h => by
          rw [Figure.eq_of_value_eq h.1 h.2]
          exact ⟨rfl, rfl⟩
      exact congrArg sha256 (h_pieces.mpr
        ((pieces_eq_iff_of_sameTexts h_normal h_normal' h_order.1).mpr h_figures))

/-! ## The fingerprint of a stored order -/

/-- A rational as a figure; zero is the positive one. -/
def figureOf (value : ℚ) : Figure := ⟨value < 0, |value|, abs_nonneg value⟩

@[simp] theorem value_figureOf (value : ℚ) : (figureOf value).value = value := by
  unfold Figure.value figureOf
  by_cases h_neg : value < 0
  · simp [h_neg, abs_of_neg]
  · simp [h_neg, abs_of_nonneg (not_lt.mp h_neg)]

/-! ## Two orders of one fingerprint -/

/-- A market buy as its text is sent. -/
def sentBuy (quantity : Figure) : OrderParameters where
  symbol := "BTC/USDT"
  side := "BUY"
  orderType := "market"
  quantity
  limitPrice := none
  timeInForce := "gtc"

/-- The same order as the constructor leaves it. -/
def builtBuy (quantity : Figure) : OrderParameters where
  symbol := "BTC/USDT"
  side := "buy"
  orderType := "market"
  quantity
  limitPrice := none
  timeInForce := "GTC"

def orderDigest (text : String) : String :=
  if text = "BTC/USDT|buy|market|1||GTC" then
    "0aa0b2ac7db8ba3052d453a5ada17ec8a1c819c6968ee49f0ab6018f1740053e"
  else if text = "BTC/USDT|buy|market|2||GTC" then
    "202113db25a6f6ab2150266acb2388deb24fbc2186b8e78bd3a6c79e48d306d7"
  else ""

/-- A quantity that differs from one in its thirtieth digit has the fingerprint of one. -/
theorem fingerprint_of_hairOverOne :
    postInit String.toLower String.toUpper (sentBuy (figureOf 1))
      = some (builtBuy (figureOf 1)) ∧
    postInit String.toLower String.toUpper (sentBuy (figureOf (1 + 1 / 10 ^ 29)))
      = some (builtBuy (figureOf (1 + 1 / 10 ^ 29))) ∧
    fingerprintText (builtBuy (figureOf 1)) = some "BTC/USDT|buy|market|1||GTC" ∧
    fingerprintText (builtBuy (figureOf (1 + 1 / 10 ^ 29)))
      = some "BTC/USDT|buy|market|1||GTC" ∧
    ¬ Identifies orderDigest (builtBuy (figureOf 1))
      (builtBuy (figureOf (1 + 1 / 10 ^ 29))) := by
  have h_one : fingerprintText (builtBuy (figureOf 1))
      = some "BTC/USDT|buy|market|1||GTC" := by decide +kernel
  have h_more : fingerprintText (builtBuy (figureOf (1 + 1 / 10 ^ 29)))
      = some "BTC/USDT|buy|market|1||GTC" := by decide +kernel
  refine ⟨by decide +kernel, by decide +kernel, h_one, h_more, ?_⟩
  rintro ⟨_, _, h_print, h_print', h_same⟩
  rw [fingerprintOf, h_one, Option.map_some, Option.some.injEq] at h_print
  rw [fingerprintOf, h_more, Option.map_some, Option.some.injEq] at h_print'
  have h_value : (figureOf 1).value = (figureOf (1 + 1 / 10 ^ 29)).value :=
    (h_same.mp (h_print.symm.trans h_print')).2.quantity
  rw [value_figureOf, value_figureOf] at h_value
  norm_num at h_value

/-- Orders of one and of two are told apart. -/
theorem identifies_iff_sample :
    Identifies orderDigest (builtBuy (figureOf 1)) (builtBuy (figureOf 2)) ↔
      Normal (builtBuy (figureOf 1)) ∧ Normal (builtBuy (figureOf 2)) ∧
      ¬ ZeroSignsDiffer (builtBuy (figureOf 1)) (builtBuy (figureOf 2)) ∧
      ¬ RoundedTogether (builtBuy (figureOf 1)) (builtBuy (figureOf 2)) ∧
      ¬ CutAlike (builtBuy (figureOf 1)) (builtBuy (figureOf 2)) := by
  refine identifies_iff orderDigest _ _ fun text text' h h' h_digest => ?_
  have h_one : fingerprintText (builtBuy (figureOf 1))
      = some "BTC/USDT|buy|market|1||GTC" := by decide +kernel
  have h_two : fingerprintText (builtBuy (figureOf 2))
      = some "BTC/USDT|buy|market|2||GTC" := by decide +kernel
  obtain rfl := Option.some.inj (h.symm.trans h_one)
  obtain rfl := Option.some.inj (h'.symm.trans h_two)
  exact absurd h_digest (by decide)

end VyomQuant.Paper
