import SovereignShadow.Ports.TickSearch

/-!
# The initialized tick that the search returns

A tick is initialized when the spacing divides it and its bit is set.  The search of one
bitmap word returns the nearest initialized tick of that word, or the end of the word, and
says which.  The result is an `i32`: a word of a wide spacing can reach beyond that, and then
the last multiplication overflows.

## Main results

* `nextIndex_down_flag`, `nextIndex_up_flag` — what the flag says.
* `searches_iff` — the search is right exactly when an `i32` holds what it looks for.
-/

namespace SovereignShadow.Ports.InitializedTicks

open SovereignShadow.Verified.Checked (Build)
open SovereignShadow.Verified.BitScan
open SovereignShadow.Ports.Models
open SovereignShadow.Ports.V3Math
open SovereignShadow.Ports.TickSearch

/-- The spacing divides the tick and its bit is set. -/
def Initialized (bitmap : TickBitmap) (tickSpacing tick : ℤ) : Prop :=
  tickSpacing ∣ tick ∧
    (wordOf bitmap (tickBitmapPosition (tick / tickSpacing)).1).getLsbD
      (tickBitmapPosition (tick / tickSpacing)).2 = true

/-- The first tick of the word of `tick`. -/
def wordStart (tick tickSpacing : ℤ) : ℤ := 256 * (tick / tickSpacing / 256) * tickSpacing

/-- The last tick of the word of the next multiple. -/
def wordEnd (tick tickSpacing : ℤ) : ℤ :=
  (256 * ((tick / tickSpacing + 1) / 256) + 255) * tickSpacing

/-- What the search downwards should return. -/
structure FoundDown (bitmap : TickBitmap) (tick tickSpacing t : ℤ) (flag : Bool) : Prop where
  le : t ≤ tick
  dvd : tickSpacing ∣ t
  none_between : ∀ u, t < u → u ≤ tick → ¬ Initialized bitmap tickSpacing u
  flag_iff : flag = true ↔ Initialized bitmap tickSpacing t
  word : flag = false → t = wordStart tick tickSpacing

/-- What the search upwards should return. -/
structure FoundUp (bitmap : TickBitmap) (tick tickSpacing t : ℤ) (flag : Bool) : Prop where
  lt : tick < t
  dvd : tickSpacing ∣ t
  none_between : ∀ u, tick < u → u < t → ¬ Initialized bitmap tickSpacing u
  flag_iff : flag = true ↔ Initialized bitmap tickSpacing t
  word : flag = false → t = wordEnd tick tickSpacing

/-- An `i32` holds what the search looks for: the end of the word, or an initialized tick
before it. -/
def Representable (bitmap : TickBitmap) (tick tickSpacing : ℤ) (lte : Bool) : Prop :=
  if lte then
    -2 ^ 31 ≤ wordStart tick tickSpacing ∨
      ∃ t, -2 ^ 31 ≤ t ∧ wordStart tick tickSpacing ≤ t ∧ t ≤ tick ∧
        Initialized bitmap tickSpacing t
  else
    wordEnd tick tickSpacing < 2 ^ 31 ∨
      ∃ t, t < 2 ^ 31 ∧ t ≤ wordEnd tick tickSpacing ∧ tick < t ∧
        Initialized bitmap tickSpacing t

variable {bitmap : TickBitmap} {c : ℤ}

/-! ## The flag -/

/-- The bit of the multiple `c`. -/
def bitOf (bitmap : TickBitmap) (c : ℤ) : Bool :=
  (wordOf bitmap (c / 256)).getLsbD (c % 256).toNat

theorem nextIndex_down_flag (bitmap : TickBitmap) (c : ℤ) :
    (nextIndex bitmap c true).2 = bitOf bitmap (nextIndex bitmap c true).1 ∧
      256 * (c / 256) ≤ (nextIndex bitmap c true).1 ∧
      ((nextIndex bitmap c true).2 = false →
        (nextIndex bitmap c true).1 = 256 * (c / 256)) := by
  obtain ⟨bit, hBit⟩ : ∃ bit, bit = (c % 256).toNat := ⟨_, rfl⟩
  have hRange : bit < 256 := hBit ▸ bit_lt c
  by_cases hNone : wordOf bitmap (c / 256) &&& upToBit bit = 0
  · have hNext : nextIndex bitmap c true = (c - bit, false) := by
      simp [nextIndex, ← hBit, hNone]
    have hStart : c - bit = 256 * (c / 256) := by omega
    have hWord : (c - bit) / 256 = c / 256 := by omega
    have hFirst : ((c - bit) % 256).toNat = 0 := by omega
    have hClear := none_upTo hRange hNone (Nat.zero_le bit)
    rw [hNext, bitOf, hWord, hFirst]
    exact ⟨hClear.symm, hStart.ge, fun _ => hStart⟩
  · have hLast := lastSet_spec hRange hNone
    have hNext : nextIndex bitmap c true =
        (c - (bit - (wordOf bitmap (c / 256) &&& upToBit bit).toNat.log2), true) := by
      have hSome : decide (wordOf bitmap (c / 256) &&& upToBit bit ≠ 0) = true :=
        decide_eq_true hNone
      simp only [nextIndex, if_true, ← hBit, hSome, mostSignificantBit, if_neg hNone]
    generalize (wordOf bitmap (c / 256) &&& upToBit bit).toNat.log2 = last at hLast hNext
    have hWord : (c - (bit - last)) / 256 = c / 256 := by omega
    have hOwn : ((c - (bit - last)) % 256).toNat = last := by omega
    rw [hNext, bitOf, hWord, hOwn]
    exact ⟨hLast.2.1.symm, by omega, fun h => Bool.noConfusion h⟩

theorem nextIndex_up_flag (bitmap : TickBitmap) (c : ℤ) :
    (nextIndex bitmap c false).2 = bitOf bitmap (nextIndex bitmap c false).1 ∧
      (nextIndex bitmap c false).1 ≤ 256 * ((c + 1) / 256) + 255 ∧
      ((nextIndex bitmap c false).2 = false →
        (nextIndex bitmap c false).1 = 256 * ((c + 1) / 256) + 255) := by
  obtain ⟨bit, hBit⟩ : ∃ bit, bit = ((c + 1) % 256).toNat := ⟨_, rfl⟩
  have hRange : bit < 256 := hBit ▸ bit_lt (c + 1)
  by_cases hNone : wordOf bitmap ((c + 1) / 256) &&& fromBit bit = 0
  · have hNext : nextIndex bitmap c false = (c + 1 + (255 - bit), false) := by
      simp [nextIndex, ← hBit, hNone]
    have hEnd : c + 1 + (255 - bit) = 256 * ((c + 1) / 256) + 255 := by omega
    have hWord : (c + 1 + (255 - bit)) / 256 = (c + 1) / 256 := by omega
    have hLast : ((c + 1 + (255 - bit)) % 256).toNat = 255 := by omega
    have hClear := none_from hRange hNone (Nat.le_of_lt_succ hRange)
    rw [hNext, bitOf, hWord, hLast]
    exact ⟨hClear.symm, hEnd.le, fun _ => hEnd⟩
  · have hFirst := firstSet_spec hRange hNone
    have hNext : nextIndex bitmap c false =
        (c + 1 + ((wordOf bitmap ((c + 1) / 256) &&& fromBit bit).ctz.toNat - bit), true) := by
      have hSome : decide (wordOf bitmap ((c + 1) / 256) &&& fromBit bit ≠ 0) = true :=
        decide_eq_true hNone
      simp only [nextIndex, Bool.false_eq_true, if_false, if_true, ← hBit, hSome,
        leastSignificantBit, Nat.mod_eq_of_lt hFirst.2.1]
    generalize (wordOf bitmap ((c + 1) / 256) &&& fromBit bit).ctz.toNat = first
      at hFirst hNext
    have hWord : (c + 1 + (first - bit)) / 256 = (c + 1) / 256 := by omega
    have hOwn : ((c + 1 + (first - bit)) % 256).toNat = first := by omega
    rw [hNext, bitOf, hWord, hOwn]
    exact ⟨hFirst.2.2.1.symm, by omega, fun h => Bool.noConfusion h⟩

/-! ## The search over the integers -/

section Search

variable {tick tickSpacing t u : ℤ} {flag : Bool} (hSpacing : 1 ≤ tickSpacing)
include hSpacing

theorem initialized_mul_iff (hLow : -2 ^ 22 ≤ c) (hHigh : c ≤ 2 ^ 22 + 1) :
    Initialized bitmap tickSpacing (c * tickSpacing) ↔ bitOf bitmap c = true := by
  have hIndex : c * tickSpacing / tickSpacing = c := Int.mul_ediv_cancel c (by omega)
  rw [Initialized, hIndex, tickBitmapPosition_eq hLow hHigh]
  exact and_iff_right (Int.dvd_mul_left c tickSpacing)

/-- An initialized tick is a marked multiple, in the range of the bitmap. -/
theorem Initialized.exists_marked (h : Initialized bitmap tickSpacing u)
    (hLow : -2 ^ 22 * tickSpacing ≤ u) (hHigh : u ≤ (2 ^ 22 + 1) * tickSpacing) :
    ∃ j, u = j * tickSpacing ∧ Marked bitmap j := by
  have hExact : u / tickSpacing * tickSpacing = u := Int.ediv_mul_cancel h.1
  have hPos : 0 < tickSpacing := by omega
  rw [← hExact] at hLow hHigh
  have hLow := le_of_mul_le_mul_right hLow hPos
  have hHigh := le_of_mul_le_mul_right hHigh hPos
  rw [← hExact, initialized_mul_iff hSpacing hLow hHigh] at h
  exact ⟨u / tickSpacing, hExact.symm, by omega, by omega, h⟩

variable (hTick : -2 ^ 20 ≤ tick) (hTick' : tick ≤ 2 ^ 20)
include hTick hTick'

/-- **Downwards**, before the result is an `i32`. -/
theorem foundDown (bitmap : TickBitmap) :
    FoundDown bitmap tick tickSpacing (nextTick bitmap tick tickSpacing true)
      (nextIndex bitmap (tick / tickSpacing) true).2 := by
  have hRange := compressed_range hSpacing hTick hTick'
  have hFloor : tick / tickSpacing * tickSpacing ≤ tick := Int.ediv_mul_le tick (by omega)
  have hPos : 0 < tickSpacing := by omega
  have hDown := nextIndex_down bitmap (tick / tickSpacing)
  have hFlag := nextIndex_down_flag bitmap (tick / tickSpacing)
  unfold nextTick
  generalize hIndex : nextIndex bitmap (tick / tickSpacing) true = found at hDown hFlag
  refine ⟨?_, Int.dvd_mul_left _ _, fun u hLow hHigh hInit => ?_, ?_, fun hNone => ?_⟩
  · exact (mul_le_mul_of_nonneg_right hDown.1 hPos.le).trans hFloor
  · have hAbove : -2 ^ 22 * tickSpacing ≤ found.1 * tickSpacing :=
      mul_le_mul_of_nonneg_right (by omega) hPos.le
    have hBelow : u ≤ (2 ^ 22 + 1) * tickSpacing := by nlinarith
    have hMarked := hInit.exists_marked hSpacing (hAbove.trans hLow.le) hBelow
    obtain ⟨j, rfl, hMarked⟩ := hMarked
    have hAfter : found.1 < j := lt_of_mul_lt_mul_right hLow hPos.le
    have hUpTo : j ≤ tick / tickSpacing := (Int.le_ediv_iff_mul_le hPos).mpr hHigh
    exact hDown.2.2 j hAfter hUpTo hMarked
  · rw [initialized_mul_iff hSpacing (by omega) (by omega), hFlag.1]
  · rw [hFlag.2.2 hNone, wordStart]

/-- **Upwards.** -/
theorem foundUp (bitmap : TickBitmap) :
    FoundUp bitmap tick tickSpacing (nextTick bitmap tick tickSpacing false)
      (nextIndex bitmap (tick / tickSpacing) false).2 := by
  have hRange := compressed_range hSpacing hTick hTick'
  have hPos : 0 < tickSpacing := by omega
  have hCeil : tick < (tick / tickSpacing + 1) * tickSpacing :=
    Int.lt_ediv_add_one_mul_self tick hPos
  have hUp := nextIndex_up bitmap (tick / tickSpacing)
  have hFlag := nextIndex_up_flag bitmap (tick / tickSpacing)
  unfold nextTick
  generalize hIndex : nextIndex bitmap (tick / tickSpacing) false = found at hUp hFlag
  refine ⟨?_, Int.dvd_mul_left _ _, fun u hLow hHigh hInit => ?_, ?_, fun hNone => ?_⟩
  · exact hCeil.trans_le (mul_le_mul_of_nonneg_right hUp.1 hPos.le)
  · have hBelow : found.1 * tickSpacing ≤ (2 ^ 22 + 1) * tickSpacing :=
      mul_le_mul_of_nonneg_right (by omega) hPos.le
    have hAbove : -2 ^ 22 * tickSpacing ≤ u := by nlinarith
    have hMarked := hInit.exists_marked hSpacing hAbove (hHigh.le.trans hBelow)
    obtain ⟨j, rfl, hMarked⟩ := hMarked
    have hBefore : j < found.1 := lt_of_mul_lt_mul_right hHigh hPos.le
    have hAfter : tick / tickSpacing < j := (Int.ediv_lt_iff_lt_mul hPos).mpr hLow
    exact hUp.2.2 j hAfter hBefore hMarked
  · rw [initialized_mul_iff hSpacing (by omega) (by omega), hFlag.1]
  · rw [hFlag.2.2 hNone, wordEnd]

/-! ## The search in `i32` -/

/-- The result of the search downwards is an `i32` when it has something to return. -/
theorem representable_down_iff (bitmap : TickBitmap) :
    Representable bitmap tick tickSpacing true ↔
      -2 ^ 31 ≤ nextTick bitmap tick tickSpacing true := by
  have hFound := foundDown hSpacing hTick hTick' bitmap
  have hFlag := nextIndex_down_flag bitmap (tick / tickSpacing)
  have hWord : wordStart tick tickSpacing ≤ nextTick bitmap tick tickSpacing true :=
    mul_le_mul_of_nonneg_right hFlag.2.1 (by omega)
  rw [Representable, if_pos rfl]
  constructor
  · intro h
    rcases h with hStart | ⟨t, hLow, _, hLe, hInit⟩
    · exact hStart.trans hWord
    · -- nothing initialized lies between the result and the tick
      by_contra hBelow
      exact hFound.none_between t (by omega) hLe hInit
  · intro hLow
    cases hInit : (nextIndex bitmap (tick / tickSpacing) true).2 with
    | true => exact Or.inr ⟨_, hLow, hWord, hFound.le, hFound.flag_iff.mp hInit⟩
    | false => exact Or.inl (hFound.word hInit ▸ hLow)

theorem representable_up_iff (bitmap : TickBitmap) :
    Representable bitmap tick tickSpacing false ↔
      nextTick bitmap tick tickSpacing false < 2 ^ 31 := by
  have hFound := foundUp hSpacing hTick hTick' bitmap
  have hFlag := nextIndex_up_flag bitmap (tick / tickSpacing)
  have hWord : nextTick bitmap tick tickSpacing false ≤ wordEnd tick tickSpacing :=
    mul_le_mul_of_nonneg_right hFlag.2.1 (by omega)
  rw [Representable, if_neg Bool.false_ne_true]
  constructor
  · intro h
    rcases h with hEnd | ⟨t, hHigh, _, hLt, hInit⟩
    · exact hWord.trans_lt hEnd
    · by_contra hBeyond
      exact hFound.none_between t hLt (by omega) hInit
  · intro hHigh
    cases hInit : (nextIndex bitmap (tick / tickSpacing) false).2 with
    | true => exact Or.inr ⟨_, hHigh, hWord, hFound.lt, hFound.flag_iff.mp hInit⟩
    | false => exact Or.inl (hFound.word hInit ▸ hHigh)

omit hTick hTick' in
/-- Up to a spacing of `2 ^ 23` every word fits. -/
theorem wordStart_ge (hTick : minTick ≤ tick) (hNarrow : tickSpacing ≤ 2 ^ 23) :
    -2 ^ 31 ≤ wordStart tick tickSpacing := by
  have hPos : 0 < tickSpacing := by omega
  have hLow : -887272 ≤ tick := hTick
  have hCeil : tick < (tick / tickSpacing + 1) * tickSpacing :=
    Int.lt_ediv_add_one_mul_self tick hPos
  unfold wordStart
  by_cases hFine : tickSpacing ≤ 2 ^ 22
  · have hWord : (tick / tickSpacing - 255) * tickSpacing ≤
        256 * (tick / tickSpacing / 256) * tickSpacing :=
      mul_le_mul_of_nonneg_right (by omega) hPos.le
    linarith
  · -- a wide spacing leaves only the words of `-1` and `0`
    have hIndex : -1 ≤ tick / tickSpacing := (Int.le_ediv_iff_mul_le hPos).mpr (by omega)
    have hWord : -256 * tickSpacing ≤ 256 * (tick / tickSpacing / 256) * tickSpacing :=
      mul_le_mul_of_nonneg_right (by omega) hPos.le
    linarith

omit hTick hTick' in
theorem wordEnd_lt (hTick' : tick ≤ maxTick) (hNarrow : tickSpacing ≤ 2 ^ 23) :
    wordEnd tick tickSpacing < 2 ^ 31 := by
  have hPos : 0 < tickSpacing := by omega
  have hHigh : tick ≤ 887272 := hTick'
  have hFloor : tick / tickSpacing * tickSpacing ≤ tick := Int.ediv_mul_le tick (by omega)
  unfold wordEnd
  by_cases hFine : tickSpacing ≤ 2 ^ 22
  · have hWord : (256 * ((tick / tickSpacing + 1) / 256) + 255) * tickSpacing ≤
        (tick / tickSpacing + 256) * tickSpacing :=
      mul_le_mul_of_nonneg_right (by omega) hPos.le
    linarith
  · have hIndex : tick / tickSpacing < 1 := (Int.ediv_lt_iff_lt_mul hPos).mpr (by omega)
    have hWord : (256 * ((tick / tickSpacing + 1) / 256) + 255) * tickSpacing ≤
        255 * tickSpacing :=
      mul_le_mul_of_nonneg_right (by omega) hPos.le
    linarith

end Search

/-- What the search should return, in either direction. -/
def Found (bitmap : TickBitmap) (tick tickSpacing : ℤ) (lte : Bool) (t : ℤ) (flag : Bool) :
    Prop :=
  if lte then FoundDown bitmap tick tickSpacing t flag
  else FoundUp bitmap tick tickSpacing t flag

variable {tick tickSpacing t t' : ℤ} {lte flag : Bool}

theorem found (hSpacing : 1 ≤ tickSpacing) (hTick : -2 ^ 20 ≤ tick) (hTick' : tick ≤ 2 ^ 20)
    (bitmap : TickBitmap) (lte : Bool) :
    Found bitmap tick tickSpacing lte (nextTick bitmap tick tickSpacing lte)
      (nextIndex bitmap (tick / tickSpacing) lte).2 := by
  cases lte with
  | true => exact foundDown hSpacing hTick hTick' bitmap
  | false => exact foundUp hSpacing hTick hTick' bitmap

theorem FoundDown.unique (h : FoundDown bitmap tick tickSpacing t flag)
    (h' : FoundDown bitmap tick tickSpacing t' flag) : t = t' := by
  cases flag with
  | false => rw [h.word rfl, h'.word rfl]
  | true =>
      apply le_antisymm
      · exact not_lt.mp fun hLt => h'.none_between t hLt h.le (h.flag_iff.mp rfl)
      · exact not_lt.mp fun hLt => h.none_between t' hLt h'.le (h'.flag_iff.mp rfl)

theorem FoundUp.unique (h : FoundUp bitmap tick tickSpacing t flag)
    (h' : FoundUp bitmap tick tickSpacing t' flag) : t = t' := by
  cases flag with
  | false => rw [h.word rfl, h'.word rfl]
  | true =>
      apply le_antisymm
      · exact not_lt.mp fun hLt => h.none_between t' h'.lt hLt (h'.flag_iff.mp rfl)
      · exact not_lt.mp fun hLt => h'.none_between t h.lt hLt (h.flag_iff.mp rfl)

/-- With the flag given there is one right answer. -/
theorem Found.unique (h : Found bitmap tick tickSpacing lte t flag)
    (h' : Found bitmap tick tickSpacing lte t' flag) : t = t' := by
  cases lte with
  | true => exact FoundDown.unique h h'
  | false => exact FoundUp.unique h h'

theorem representable_iff (hSpacing : 1 ≤ tickSpacing) (hTick : -2 ^ 20 ≤ tick)
    (hTick' : tick ≤ 2 ^ 20) (bitmap : TickBitmap) (lte : Bool) :
    Representable bitmap tick tickSpacing lte ↔
      -2 ^ 31 ≤ nextTick bitmap tick tickSpacing lte ∧
        nextTick bitmap tick tickSpacing lte < 2 ^ 31 := by
  cases lte with
  | true =>
      have hLe := (foundDown hSpacing hTick hTick' bitmap).le
      rw [representable_down_iff hSpacing hTick hTick']
      exact (and_iff_left (by omega)).symm
  | false =>
      have hLt := (foundUp hSpacing hTick hTick' bitmap).lt
      rw [representable_up_iff hSpacing hTick hTick']
      exact (and_iff_right (by omega)).symm

theorem i32_range {build : Build} {x y : ℤ} (h : i32 build x = some y) :
    -2 ^ 31 ≤ y ∧ y < 2 ^ 31 := by
  unfold i32 at h
  split at h
  · rename_i hRange
    exact Option.some.inj h ▸ hRange
  · cases build with
    | debug => exact absurd h (by simp)
    | release =>
        have hWrap := Option.some.inj h
        have hLow := Int.le_bmod (x := x) (m := 2 ^ 32) (by norm_num)
        have hHigh := Int.bmod_lt (x := x) (m := 2 ^ 32) (by norm_num)
        rw [hWrap] at hLow hHigh
        omega

/-- The search returns what it should. -/
def Searches (build : Build) (bitmap : TickBitmap) (tick tickSpacing : ℤ) (lte : Bool) : Prop :=
  ∃ t flag, getNextInitializedTickPrecise build tick tickSpacing lte bitmap = some (t, flag) ∧
    Found bitmap tick tickSpacing lte t flag

/-- **The search finds the next initialized tick, or the end of the word**, exactly when an
`i32` holds it; up to a spacing of `2 ^ 23` one always does. -/
theorem searches_iff (build : Build) (bitmap : TickBitmap)
    (hTick : minTick ≤ tick ∧ tick ≤ maxTick) (hSpacing : 1 ≤ tickSpacing) (lte : Bool) :
    (Searches build bitmap tick tickSpacing lte ↔ Representable bitmap tick tickSpacing lte) ∧
      (tickSpacing ≤ 2 ^ 23 → Representable bitmap tick tickSpacing lte) := by
  have hLow : -2 ^ 20 ≤ tick := le_trans (by decide) hTick.1
  have hHigh : tick ≤ 2 ^ 20 := hTick.2.trans (by decide)
  have hFound := found hSpacing hLow hHigh bitmap lte
  have hResult := getNextInitializedTickPrecise_eq build hSpacing hLow hHigh lte bitmap
  refine ⟨⟨fun hSearches => ?_, fun hFits => ?_⟩, fun hNarrow => ?_⟩
  · obtain ⟨t, flag, hSome, hRight⟩ := hSearches
    rw [hResult] at hSome
    obtain ⟨y, hi32, hPair⟩ := Option.map_eq_some_iff.mp hSome
    obtain ⟨rfl, rfl⟩ := Prod.mk.inj hPair
    rw [representable_iff hSpacing hLow hHigh, hFound.unique hRight]
    exact i32_range hi32
  · have hRange := (representable_iff hSpacing hLow hHigh bitmap lte).mp hFits
    refine ⟨_, _, ?_, hFound⟩
    rw [hResult, i32_of_range build hRange.1 hRange.2, Option.map_some]
  · cases lte with
    | true => exact Or.inl (wordStart_ge hSpacing hTick.1 hNarrow)
    | false => exact Or.inl (wordEnd_lt hSpacing hTick.2 hNarrow)

/-- One spacing further an empty word below zero starts below every `i32`: a debug build
panics, a release build wraps. -/
theorem wide_spacing_overflows :
    ¬ Searches .debug (fun _ => none) (-1) (2 ^ 23 + 1) true ∧
      ¬ Searches .release (fun _ => none) (-1) (2 ^ 23 + 1) true := by
  constructor
  · intro hSearches
    obtain ⟨t, flag, hSome, _⟩ := hSearches
    have hPanic : getNextInitializedTickPrecise .debug (-1) (2 ^ 23 + 1) true (fun _ => none) =
        none := by decide
    rw [hPanic] at hSome
    exact absurd hSome.symm (Option.some_ne_none _)
  · intro hSearches
    obtain ⟨t, flag, hSome, hFound⟩ := hSearches
    have hWrapped : getNextInitializedTickPrecise .release (-1) (2 ^ 23 + 1) true
        (fun _ => none) = some (2147483392, false) := by decide
    rw [hWrapped] at hSome
    have hTick := (Prod.mk.inj (Option.some.inj hSome)).1
    have hLe : t ≤ -1 := FoundDown.le hFound
    omega

theorem searches_iff_fee3000 :
    (Searches .release (fun _ => none) 5 60 true ↔
        Representable (fun _ => none) 5 60 true) ∧
      ((60 : ℤ) ≤ 2 ^ 23 → Representable (fun _ => none) 5 60 true) :=
  searches_iff .release (fun _ => none) (by decide) (by decide) true

end SovereignShadow.Ports.InitializedTicks
