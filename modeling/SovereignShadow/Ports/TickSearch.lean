import SovereignShadow.Ports.V3Math
import SovereignShadow.Verified.BitScan

/-!
# The search of the tick bitmap

`get_next_initialized_tick_precise` looks for a marked multiple of the tick spacing in one
word of the bitmap.  Only its last multiplication can leave `i32`; `nextTick` is the value
before that, and `getNextInitializedTickPrecise_eq` splits the function at that point.

## Main results

* `nextIndex_down`, `nextIndex_up` — nothing is marked between the tick and the result.
-/

namespace SovereignShadow.Ports.TickSearch

open SovereignShadow.Verified.Checked (Build)
open SovereignShadow.Verified.BitScan
open SovereignShadow.Ports.Models
open SovereignShadow.Ports.V3Math

/-- The word at a position; an absent one is empty. -/
def wordOf (bitmap : TickBitmap) (position : ℤ) : U256 := (bitmap position).getD 0

/-- The bitmap marks the multiple `c` of the tick spacing. -/
def Marked (bitmap : TickBitmap) (c : ℤ) : Prop :=
  -2 ^ 23 ≤ c ∧ c < 2 ^ 23 ∧ (wordOf bitmap (c / 256)).getLsbD (c % 256).toNat = true

/-- The search among the multiples, in the word of `c` or, upwards, of `c + 1`. -/
def nextIndex (bitmap : TickBitmap) (c : ℤ) (lte : Bool) : ℤ × Bool :=
  if lte then
    let bit := (c % 256).toNat
    let masked := wordOf bitmap (c / 256) &&& upToBit bit
    let initialized := decide (masked ≠ 0)
    (if initialized then c - (bit - mostSignificantBit masked) else c - bit, initialized)
  else
    let bit := ((c + 1) % 256).toNat
    let masked := wordOf bitmap ((c + 1) / 256) &&& fromBit bit
    let initialized := decide (masked ≠ 0)
    (if initialized then c + 1 + (leastSignificantBit masked - bit) else c + 1 + (255 - bit),
      initialized)

/-- The tick that the search finds, before it is an `i32`. -/
def nextTick (bitmap : TickBitmap) (tick tickSpacing : ℤ) (lte : Bool) : ℤ :=
  (nextIndex bitmap (tick / tickSpacing) lte).1 * tickSpacing

variable {bitmap : TickBitmap} {c : ℤ}

/-! ## Nothing is passed over -/

theorem bit_lt (c : ℤ) : (c % 256).toNat < 256 := by omega

/-- **Downwards.** -/
theorem nextIndex_down (bitmap : TickBitmap) (c : ℤ) :
    (nextIndex bitmap c true).1 ≤ c ∧ c - 255 ≤ (nextIndex bitmap c true).1 ∧
      ∀ j, (nextIndex bitmap c true).1 < j → j ≤ c → ¬ Marked bitmap j := by
  obtain ⟨n, hn⟩ : ∃ n, (nextIndex bitmap c true).1 = n := ⟨_, rfl⟩
  rw [hn]
  obtain ⟨bit, hBit⟩ : ∃ bit, bit = (c % 256).toNat := ⟨_, rfl⟩
  have hRange : bit < 256 := hBit ▸ bit_lt c
  -- the multiples in the word up to `c` are the bits up to its own
  have hWord : ∀ j, c - bit ≤ j → j ≤ c → Marked bitmap j →
      (wordOf bitmap (c / 256)).getLsbD (j % 256).toNat = true := by
    intro j hLow hHigh hMarked
    have hSame : j / 256 = c / 256 := by omega
    exact hSame ▸ hMarked.2.2
  simp only [nextIndex, if_true, ← hBit, decide_eq_true_eq] at hn
  by_cases hNone : wordOf bitmap (c / 256) &&& upToBit bit = 0
  · rw [if_neg (not_not.mpr hNone)] at hn
    subst hn
    refine ⟨by omega, by omega, fun j hLow hHigh hMarked => ?_⟩
    have hClear := none_upTo hRange hNone (i := (j % 256).toNat) (by omega)
    rw [hWord j hLow.le hHigh hMarked] at hClear
    exact absurd hClear (by decide)
  · obtain ⟨hLe, _, hAbove⟩ := lastSet_spec hRange hNone
    rw [if_pos hNone, mostSignificantBit, if_neg hNone] at hn
    obtain ⟨last, hLast⟩ : ∃ last,
        last = (wordOf bitmap (c / 256) &&& upToBit bit).toNat.log2 := ⟨_, rfl⟩
    rw [← hLast] at hn hLe hAbove
    subst hn
    refine ⟨by omega, by omega, fun j hLow hHigh hMarked => ?_⟩
    have hClear := hAbove (j % 256).toNat (by omega) (by omega)
    rw [hWord j (by omega) hHigh hMarked] at hClear
    exact absurd hClear (by decide)

/-- **Upwards.** -/
theorem nextIndex_up (bitmap : TickBitmap) (c : ℤ) :
    c < (nextIndex bitmap c false).1 ∧ (nextIndex bitmap c false).1 ≤ c + 256 ∧
      ∀ j, c < j → j < (nextIndex bitmap c false).1 → ¬ Marked bitmap j := by
  obtain ⟨n, hn⟩ : ∃ n, (nextIndex bitmap c false).1 = n := ⟨_, rfl⟩
  rw [hn]
  obtain ⟨bit, hBit⟩ : ∃ bit, bit = ((c + 1) % 256).toNat := ⟨_, rfl⟩
  have hRange : bit < 256 := hBit ▸ bit_lt (c + 1)
  have hWord : ∀ j, c < j → j ≤ c + 1 + (255 - bit) → Marked bitmap j →
      (wordOf bitmap ((c + 1) / 256)).getLsbD (j % 256).toNat = true := by
    intro j hLow hHigh hMarked
    have hSame : j / 256 = (c + 1) / 256 := by omega
    exact hSame ▸ hMarked.2.2
  simp only [nextIndex, Bool.false_eq_true, if_false, ← hBit, decide_eq_true_eq] at hn
  by_cases hNone : wordOf bitmap ((c + 1) / 256) &&& fromBit bit = 0
  · rw [if_neg (not_not.mpr hNone)] at hn
    subst hn
    refine ⟨by omega, by omega, fun j hLow hHigh hMarked => ?_⟩
    have hClear := none_from hRange hNone (i := (j % 256).toNat) (by omega)
    rw [hWord j hLow hHigh.le hMarked] at hClear
    exact absurd hClear (by decide)
  · obtain ⟨hLe, hLt, _, hBelow⟩ := firstSet_spec hRange hNone
    rw [if_pos hNone, leastSignificantBit, Nat.mod_eq_of_lt hLt] at hn
    obtain ⟨first, hFirst⟩ : ∃ first,
        first = (wordOf bitmap ((c + 1) / 256) &&& fromBit bit).ctz.toNat := ⟨_, rfl⟩
    rw [← hFirst] at hn hLe hLt hBelow
    subst hn
    refine ⟨by omega, by omega, fun j hLow hHigh hMarked => ?_⟩
    have hClear := hBelow (j % 256).toNat (by omega) (by omega)
    rw [hWord j hLow (by omega) hMarked] at hClear
    exact absurd hClear (by decide)

/-! ## The function -/

theorem i32_of_range (build : Build) {x : ℤ} (hLow : -2 ^ 31 ≤ x) (hHigh : x < 2 ^ 31) :
    i32 build x = some x := if_pos ⟨hLow, hHigh⟩

/-- A position that fits `i16`. -/
theorem tickBitmapPosition_eq (hc : -2 ^ 22 ≤ c) (hc' : c ≤ 2 ^ 22 + 1) :
    tickBitmapPosition c = (c / 256, (c % 256).toNat) := by
  have hFits : (c / 256).bmod (2 ^ 16) = c / 256 :=
    Int.bmod_eq_of_le_mul_two (by omega) (by omega)
  rw [tickBitmapPosition, hFits]

/-- Division of the tick by the spacing rounds down. -/
theorem compressTick_eq (build : Build) {tick tickSpacing : ℤ} (hSpacing : 1 ≤ tickSpacing)
    (hTick : -2 ^ 20 ≤ tick) (hTick' : tick ≤ 2 ^ 20) :
    compressTick build tick tickSpacing = some (tick / tickSpacing) := by
  have hDiv : i32Div tick tickSpacing = some (tick.tdiv tickSpacing) := if_neg (by omega)
  have hFloor := Int.tdiv_eq_ediv (a := tick) (b := tickSpacing)
  rw [compressTick, hDiv, Option.bind_eq_bind, Option.bind_some]
  by_cases hDown : tick < 0 ∧ tick.tmod tickSpacing ≠ 0
  · have hNot : ¬ (0 ≤ tick ∨ tickSpacing ∣ tick) := by
      intro h
      rcases h with h | h
      · omega
      · exact hDown.2 (Int.dvd_iff_tmod_eq_zero.mp h)
    have hLow : -2 ^ 20 ≤ tick / tickSpacing :=
      (Int.le_ediv_iff_mul_le (by omega)).mpr (by nlinarith)
    have hHigh : tick / tickSpacing < 0 := Int.ediv_neg_of_neg_of_pos hDown.1 (by omega)
    rw [if_neg hNot, Int.sign_eq_one_of_pos (by omega)] at hFloor
    rw [if_pos hDown, hFloor, add_sub_cancel_right, i32_of_range build (by omega) (by omega)]
  · have hExact : 0 ≤ tick ∨ tickSpacing ∣ tick := by
      by_contra hNot
      rw [not_or, not_le] at hNot
      exact hDown ⟨hNot.1, fun h => hNot.2 (Int.dvd_iff_tmod_eq_zero.mpr h)⟩
    rw [if_pos hExact, add_zero] at hFloor
    rw [if_neg hDown, hFloor]

theorem compressed_range {tick tickSpacing : ℤ} (hSpacing : 1 ≤ tickSpacing)
    (hTick : -2 ^ 20 ≤ tick) (hTick' : tick ≤ 2 ^ 20) :
    -2 ^ 20 ≤ tick / tickSpacing ∧ tick / tickSpacing ≤ 2 ^ 20 := by
  constructor
  · rw [Int.le_ediv_iff_mul_le (by omega)]
    nlinarith
  · apply Int.ediv_le_of_le_mul (by omega)
    nlinarith

/-- **The search, up to its multiplication.** -/
theorem getNextInitializedTickPrecise_eq (build : Build) {tick tickSpacing : ℤ}
    (hSpacing : 1 ≤ tickSpacing) (hTick : -2 ^ 20 ≤ tick) (hTick' : tick ≤ 2 ^ 20)
    (lte : Bool) (bitmap : TickBitmap) :
    getNextInitializedTickPrecise build tick tickSpacing lte bitmap =
      (i32 build (nextTick bitmap tick tickSpacing lte)).map fun t =>
        (t, (nextIndex bitmap (tick / tickSpacing) lte).2) := by
  obtain ⟨hLow, hHigh⟩ := compressed_range hSpacing hTick hTick'
  unfold getNextInitializedTickPrecise nextTick
  rw [compressTick_eq build hSpacing hTick hTick', Option.bind_eq_bind, Option.bind_some]
  generalize tick / tickSpacing = c at hLow hHigh
  cases lte with
  | true =>
      obtain ⟨hDown, hDown', _⟩ := nextIndex_down bitmap c
      have hNext : i32 build (nextIndex bitmap c true).1 = some (nextIndex bitmap c true).1 :=
        i32_of_range build (by omega) (by omega)
      have hPosition := tickBitmapPosition_eq (c := c) (by omega) (by omega)
      rw [if_pos rfl, hPosition, Option.map_eq_bind]
      show (i32 build (nextIndex bitmap c true).1).bind _ = _
      rw [hNext, Option.bind_some]
      rfl
  | false =>
      obtain ⟨hUp, hUp', _⟩ := nextIndex_up bitmap c
      have hAbove : i32 build (c + 1) = some (c + 1) := i32_of_range build (by omega) (by omega)
      have hNext : i32 build (nextIndex bitmap c false).1 = some (nextIndex bitmap c false).1 :=
        i32_of_range build (by omega) (by omega)
      have hPosition := tickBitmapPosition_eq (c := c + 1) (by omega) (by omega)
      rw [if_neg Bool.false_ne_true, hAbove, Option.bind_some, hPosition, Option.map_eq_bind]
      show (i32 build (nextIndex bitmap c false).1).bind _ = _
      rw [hNext, Option.bind_some]
      rfl

end SovereignShadow.Ports.TickSearch
