import SovereignShadow.Ports.FullWidth
import SovereignShadow.Verified.NewtonSqrt
import SovereignShadow.Verified.WhileLoop

/-!
# The integer square root

Port of `uint_sqrt_512`, as a recursion, and next to it the `while` loop with both of its
variables.  Every guess is at least the root and at most `2^257`, so no sum wraps, and both stop
at the first guess that the step does not lower, which is the root.

## Main results

* `uintSqrt512_toNat` — the recursion ends at the root.
* `sqrtLoop_returns` — the loop ends at the root, from the guess it starts with.
* `uintSqrt512_spec` — the result for every number.
-/

namespace SovereignShadow.Ports.SquareRoot

open SovereignShadow.Verified.NewtonSqrt
open SovereignShadow.Verified.WhileLoop
open SovereignShadow.Ports.Models
open SovereignShadow.Ports.OptimalInput (toNat_pos_iff)
open SovereignShadow.Ports.FullWidth (wide_modulus)

/-! ## The function -/

/-- The loop of `uint_sqrt_512`, from where `y` is computed; `n / x` panics on zero. -/
def newtonLoop (n x : U512) : Option U512 :=
  if x = 0 then none
  else
    let y := (x + n / x) >>> 1
    if y < x then newtonLoop n y else some x
termination_by x.toNat
decreasing_by exact BitVec.lt_def.mp ‹_›

def bitLen (n : U512) : ℕ := if n = 0 then 0 else n.toNat.log2 + 1

def uintSqrt512 (n : U512) : Option U512 :=
  if n = 0 then some 0 else newtonLoop n ((1 : U512) <<< (bitLen n / 2 + 1))

/-! ## The loop -/

structure Guesses where
  x : U512
  y : U512

section Loop

variable (n : U512)

/-- `(x + n / x) >> 1`; `n / x` panics on zero. -/
def nextGuess (x : U512) : Option U512 := if x = 0 then none else some ((x + n / x) >>> 1)

/-- `while y < x { x = y; y = (x + n / x) >> 1; }`. -/
def sqrtLoop : Loop Guesses where
  guard s := decide (s.y < s.x)
  body s := (nextGuess n s.y).map fun y => { x := s.y, y }

/-- The first guess, `U512::from(1u64) << (bits / 2 + 1)`. -/
def firstGuess : U512 := (1 : U512) <<< (bitLen n / 2 + 1)

/-- The guesses before the loop. -/
def firstGuesses : Guesses where
  x := firstGuess n
  y := (firstGuess n + n / firstGuess n) >>> 1

/-- The sum at a guess does not wrap. -/
def SumFits (x : U512) : Prop := x.toNat + (n / x).toNat < 2 ^ 512

end Loop

/-! ## One guess -/

/-- A guess is at least the root, and has at most a bit more than the largest root. -/
structure GuessRange (n x : U512) : Prop where
  root_le : Nat.sqrt n.toNat ≤ x.toNat
  le_bound : x.toNat ≤ 2 * 2 ^ 256

section Range

variable {n x : U512} (hn : n ≠ 0) (h : GuessRange n x)
include h

theorem GuessRange.sumFits : SumFits n x := by
  have hOther := div_le_add_two h.root_le
  have hBound := h.le_bound
  rw [SumFits, BitVec.toNat_udiv, wide_modulus]
  omega

theorem GuessRange.step_toNat : ((x + n / x) >>> 1).toNat = newton n.toNat x.toNat := by
  have hSum : (x + n / x).toNat = x.toNat + (n / x).toNat := BitVec.toNat_add_of_lt h.sumFits
  rw [BitVec.toNat_ushiftRight, hSum, BitVec.toNat_udiv, Nat.shiftRight_eq_div_pow, pow_one,
    newton]

include hn

theorem GuessRange.pos : 0 < x.toNat :=
  (Nat.sqrt_pos.mpr (toNat_pos_iff.mpr hn)).trans_le h.root_le

theorem GuessRange.nextGuess_eq : nextGuess n x = some ((x + n / x) >>> 1) :=
  if_neg (toNat_pos_iff.mp (h.pos hn))

/-- A guess below one in range is in range if a step led to it. -/
theorem GuessRange.next (hLess : (x + n / x) >>> 1 < x) :
    GuessRange n ((x + n / x) >>> 1) where
  root_le := by
    rw [h.step_toNat]
    exact sqrt_le_newton (h.pos hn)
  le_bound := (BitVec.lt_def.mp hLess).le.trans h.le_bound

/-- The step does not lower the root, and nothing else. -/
theorem GuessRange.eq_sqrt (hEnd : ¬ (x + n / x) >>> 1 < x) : x.toNat = Nat.sqrt n.toNat := by
  rw [BitVec.lt_def, h.step_toNat, newton_lt_iff (h.pos hn)] at hEnd
  exact le_antisymm (not_lt.mp hEnd) h.root_le

end Range

theorem bitLen_spec {n : U512} (hn : n ≠ 0) : n.toNat < 2 ^ bitLen n ∧ bitLen n ≤ 512 := by
  have hNonzero : n.toNat ≠ 0 := (toNat_pos_iff.mpr hn).ne'
  rw [bitLen, if_neg hn]
  exact ⟨Nat.lt_log2_self, (Nat.log2_lt hNonzero).mpr n.isLt⟩

theorem firstGuess_range {n : U512} (hn : n ≠ 0) :
    (firstGuess n).toNat = 2 ^ (bitLen n / 2 + 1) ∧ GuessRange n (firstGuess n) := by
  have hBits := bitLen_spec hn
  have hSmall : 2 ^ (bitLen n / 2 + 1) ≤ 2 * 2 ^ 256 := by
    rw [pow_succ, Nat.mul_comm]
    exact Nat.mul_le_mul_left _ (Nat.pow_le_pow_right (by norm_num) (by omega))
  have hStart : (firstGuess n).toNat = 2 ^ (bitLen n / 2 + 1) := by
    have hOne : (1 : U512).toNat = 1 := BitVec.toNat_one (by norm_num)
    rw [firstGuess, BitVec.toNat_shiftLeft, Nat.shiftLeft_eq, hOne, Nat.one_mul,
      Nat.mod_eq_of_lt]
    rw [wide_modulus]
    exact hSmall.trans_lt (by norm_num)
  refine ⟨hStart, ?_, ?_⟩
  · rw [hStart]
    exact sqrt_le_start hBits.1
  · rw [hStart]
    exact hSmall

/-! ## The recursion -/

/-- From a guess in range the recursion ends at the root. -/
theorem newtonLoop_toNat {n x : U512} (hn : n ≠ 0) (h : GuessRange n x) :
    ∃ r, newtonLoop n x = some r ∧ r.toNat = Nat.sqrt n.toNat := by
  induction hx : x.toNat using Nat.strong_induction_on generalizing x with
  | _ size ih =>
      rw [newtonLoop, if_neg (toNat_pos_iff.mp (h.pos hn))]
      by_cases hDescends : (x + n / x) >>> 1 < x
      · rw [if_pos hDescends]
        exact ih _ (hx ▸ BitVec.lt_def.mp hDescends) (h.next hn hDescends) rfl
      · rw [if_neg hDescends]
        exact ⟨x, rfl, h.eq_sqrt hn hDescends⟩

/-- **The square root is exact**, for every number. -/
theorem uintSqrt512_toNat (n : U512) :
    ∃ r, uintSqrt512 n = some r ∧ r.toNat = Nat.sqrt n.toNat := by
  by_cases hn : n = 0
  · have hZero : (0 : U512).toNat = 0 := BitVec.toNat_zero
    exact ⟨0, if_pos hn, by rw [hn, hZero, Nat.sqrt_zero]⟩
  · rw [uintSqrt512, if_neg hn]
    exact newtonLoop_toNat hn (firstGuess_range hn).2

/-! ## The whole loop -/

/-- Where the guard is tested, `y` is the guess after `x`. -/
structure LoopInv (n : U512) (s : Guesses) : Prop where
  range : GuessRange n s.x
  step : s.y = (s.x + n / s.x) >>> 1

section Run

variable {n : U512} (hn : n ≠ 0)
include hn

theorem loopInv_first : LoopInv n (firstGuesses n) := ⟨(firstGuess_range hn).2, rfl⟩

/-- **Step lemma.**  A turn does not panic, and the guess gets smaller. -/
theorem loopInv_body {s : Guesses} (h : LoopInv n s) (hGuard : (sqrtLoop n).guard s = true) :
    ∃ s', (sqrtLoop n).body s = some s' ∧ LoopInv n s' ∧ s'.x.toNat < s.x.toNat := by
  have hLess : s.y < s.x := of_decide_eq_true hGuard
  have hNext : GuessRange n s.y := by
    rw [h.step] at hLess ⊢
    exact h.range.next hn hLess
  refine ⟨{ x := s.y, y := (s.y + n / s.y) >>> 1 }, ?_, ⟨hNext, rfl⟩, BitVec.lt_def.mp hLess⟩
  show (nextGuess n s.y).map _ = _
  rw [hNext.nextGuess_eq hn]
  rfl

/-- Every guess of the loop is in range. -/
theorem loopInv_reaches {s : Guesses} (h : Reaches (sqrtLoop n) (firstGuesses n) s) :
    LoopInv n s := by
  refine h.invariant (LoopInv n) (fun _ => True) ?_ (loopInv_first hn) (fun _ _ _ => trivial)
  intro t t' hInv hGuard _ hBody
  obtain ⟨t'', hStep, hNext, -⟩ := loopInv_body hn hInv hGuard
  rw [hBody] at hStep
  exact Option.some.inj hStep ▸ hNext

/-- The loop ends with the root in `x`. -/
theorem sqrtLoop_returns :
    ∃ t, Returns (sqrtLoop n) (firstGuesses n) t ∧ t.x.toNat = Nat.sqrt n.toNat := by
  obtain ⟨t, hReturns, hInv, hEnd⟩ := exists_returns (LoopInv n) (fun s => s.x.toNat)
    (fun _ hInv hGuard => loopInv_body hn hInv hGuard) (loopInv_first hn)
  have hStop : ¬ t.y < t.x := of_decide_eq_false hEnd
  rw [hInv.step] at hStop
  exact ⟨t, hReturns, hInv.range.eq_sqrt hn hStop⟩

end Run

/-- **The integer square root.**  For every number the function returns its root rounded down.
Zero is its own root; for any other number the loop ends with the result in `x`, the first
shift keeps its bit, and neither a division by zero nor a sum past 512 bits occurs at any
guess. -/
theorem uintSqrt512_spec (n : U512) :
    ∃ r, uintSqrt512 n = some r ∧ r.toNat ^ 2 ≤ n.toNat ∧ n.toNat < (r.toNat + 1) ^ 2 ∧
      (n ≠ 0 →
        (∃ t, Returns (sqrtLoop n) (firstGuesses n) t ∧ t.x = r) ∧
        (firstGuess n).toNat = 2 ^ (bitLen n / 2 + 1) ∧
        ∀ s, Reaches (sqrtLoop n) (firstGuesses n) s → s.x ≠ 0 ∧ SumFits n s.x) := by
  obtain ⟨r, hResult, hRoot⟩ := uintSqrt512_toNat n
  refine ⟨r, hResult, ?_, ?_, fun hn => ⟨?_, (firstGuess_range hn).1, fun s hReach => ?_⟩⟩
  · rw [hRoot]
    exact Nat.sqrt_le' n.toNat
  · rw [hRoot]
    exact Nat.lt_succ_sqrt' n.toNat
  · obtain ⟨t, hReturns, hEnd⟩ := sqrtLoop_returns hn
    exact ⟨t, hReturns, BitVec.eq_of_toNat_eq (hEnd.trans hRoot.symm)⟩
  · have hInv := loopInv_reaches hn hReach
    exact ⟨toNat_pos_iff.mp (hInv.range.pos hn), hInv.range.sumFits⟩

end SovereignShadow.Ports.SquareRoot
