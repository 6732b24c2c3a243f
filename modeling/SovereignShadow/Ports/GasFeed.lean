import SovereignShadow.Ports.Models
import SovereignShadow.Verified.OrderStatistic

/-!
# The gas feed

Port of the task in `gas_feed.rs`.  For each block of a subscription it publishes the base fee,
asks the node for a priority fee, and publishes the median of the last five answers with twelve
percent on top.  The window outlives a lost subscription; the counter that spaces the calls of
the L1 oracle does not.

A call that fails is a `none`.

## Main results

* `push_lastFive` — the window holds the last five answers.
* `Window.estimate` — one answer, and a majority of the window bounds the published fee.
* `run_feed` — what is published after any subscriptions.
-/

namespace SovereignShadow.Ports.GasFeed

open SovereignShadow.Verified.OrderStatistic
open SovereignShadow.Ports.Models

/-! ## The task -/

structure Feed where
  baseFee : U256
  priorityFee : U256
  l1Fee : U256
  priorityHistory : List U256
  deriving DecidableEq, Repr

def initial : Feed where
  baseFee := 0
  priorityFee := 0
  l1Fee := 0
  priorityHistory := []

/-- A block with the answers of the node, had it been asked. -/
structure Block where
  baseFeePerGas : Option (BitVec 128)
  maxPriorityFeePerGas : Option (BitVec 128)
  l1BaseFee : Option U256
  deriving DecidableEq, Repr

/-- The order of `sort`. -/
def ordered (a b : U256) : Bool := decide (a ≤ b)

/-- `pop_front` at five entries, then `push_back`. -/
def push (history : List U256) (fee : U256) : List U256 :=
  (if 5 ≤ history.length then history.tail else history) ++ [fee]

/-- `median * 112 / 100`. -/
def overshoot (median : U256) : U256 := median * 112 / 100

/-- The priority fee of a block. -/
def Feed.estimate (feed : Feed) : Option (BitVec 128) → Feed
  | none => feed
  | some priority =>
      let history := push feed.priorityHistory (priority.setWidth 256)
      let sorted := history.mergeSort ordered
      match sorted[sorted.length / 2]? with
      -- the window has an entry, so this index is in range
      | none => { feed with priorityHistory := history }
      | some median => { feed with priorityHistory := history, priorityFee := overshoot median }

/-- The body of the loop over the blocks, with `block_count`. -/
def handleBlock (s : Feed × Nat) (block : Block) : Feed × Nat :=
  let feed := { s.1 with baseFee := (block.baseFeePerGas.getD 0).setWidth 256 }
  let feed := feed.estimate block.maxPriorityFeePerGas
  let blockCount := s.2 + 1
  if blockCount % 5 = 0 then
    match block.l1BaseFee with
    | none => (feed, blockCount)
    | some l1 => ({ feed with l1Fee := l1 }, blockCount)
  else (feed, blockCount)

/-- One subscription. -/
def subscription (feed : Feed) (blocks : List Block) : Feed :=
  (blocks.foldl handleBlock (feed, 0)).1

/-- The task: one subscription after the other. -/
def run (subscriptions : List (List Block)) : Feed := subscriptions.foldl subscription initial

/-! ## The window -/

/-- The answers of the node, in order. -/
def answers (blocks : List Block) : List U256 :=
  blocks.filterMap fun block => block.maxPriorityFeePerGas.map (BitVec.setWidth 256)

/-- The last five. -/
def lastFive (fees : List U256) : List U256 := fees.drop (fees.length - 5)

theorem push_lastFive (fees : List U256) (fee : U256) :
    push (lastFive fees) fee = lastFive (fees ++ [fee]) := by
  unfold push lastFive
  rw [List.length_drop, List.length_append, List.length_singleton]
  by_cases hFull : 5 ≤ fees.length
  · rw [if_pos (by omega), List.tail_drop, List.drop_append_of_le_length (by omega)]
    congr 2
    omega
  · rw [if_neg (by omega), List.drop_append_of_le_length (by omega)]
    congr 2
    omega

/-- More than half of the fees are in a range. -/
def Majority (lo hi : ℕ) (fees : List U256) : Prop :=
  fees.length < 2 * fees.countP fun fee => decide (lo ≤ fee.toNat ∧ fee.toNat ≤ hi)

instance (lo hi : ℕ) (fees : List U256) : Decidable (Majority lo hi fees) :=
  inferInstanceAs (Decidable (_ < _))

/-- What the feed publishes after these answers. -/
structure Window (fees : List U256) (feed : Feed) : Prop where
  small : ∀ fee ∈ fees, fee.toNat < 2 ^ 128
  history : feed.priorityHistory = lastFive fees
  first : fees = [] → feed.priorityFee = 0
  bounds : ∀ lo hi, Majority lo hi (lastFive fees) →
    lo * 112 / 100 ≤ feed.priorityFee.toNat ∧ feed.priorityFee.toNat ≤ hi * 112 / 100

theorem overshoot_toNat {median : U256} (h : median.toNat < 2 ^ 128) :
    (overshoot median).toNat = median.toNat * 112 / 100 := by
  have hRate : (112 : U256).toNat = 112 := by decide
  have hBase : (100 : U256).toNat = 100 := by decide
  rw [overshoot, BitVec.toNat_udiv, BitVec.toNat_mul_of_lt, hRate, hBase]
  rw [hRate]
  omega

theorem ordered_trans (a b c : U256) (hab : ordered a b = true) (hbc : ordered b c = true) :
    ordered a c = true := by
  simp only [ordered, decide_eq_true_eq, BitVec.le_def] at *
  exact hab.trans hbc

theorem ordered_total (a b : U256) : (ordered a b || ordered b a) = true := by
  simp only [ordered, Bool.or_eq_true, decide_eq_true_eq, BitVec.le_def]
  exact Nat.le_total _ _

/-- A majority of the window has the median among it. -/
theorem median_bounds {lo hi : ℕ} {fees : List U256} {m : U256}
    (hm : (fees.mergeSort ordered)[fees.length / 2]? = some m) (h : Majority lo hi fees) :
    lo ≤ m.toNat ∧ m.toNat ≤ hi := by
  have hBelow : Down ordered fun fee => decide (fee.toNat < lo) := by
    intro a b hab hb
    simp only [ordered, decide_eq_true_eq, BitVec.le_def] at *
    exact hab.trans_lt hb
  have hUpTo : Down ordered fun fee => decide (fee.toNat ≤ hi) := by
    intro a b hab hb
    simp only [ordered, decide_eq_true_eq, BitVec.le_def] at *
    exact hab.trans hb
  have hCount : (fees.countP fun fee => decide (lo ≤ fee.toNat ∧ fee.toNat ≤ hi)) =
      fees.countP fun fee => decide (fee.toNat ≤ hi) && !decide (fee.toNat < lo) := by
    apply List.countP_congr
    intro fee _
    simp only [decide_eq_true_eq, Bool.and_eq_true, Bool.not_eq_true', decide_eq_false_iff_not,
      not_lt]
    exact And.comm
  unfold Majority at h
  rw [hCount] at h
  have hBoth := median_between ordered_trans ordered_total hBelow hUpTo hm h
  simp only [decide_eq_false_iff_not, not_lt, decide_eq_true_eq] at hBoth
  exact hBoth

theorem lastFive_subset {fees : List U256} {fee : U256} (h : fee ∈ lastFive fees) : fee ∈ fees :=
  List.mem_of_mem_drop h

/-- **One answer.** -/
theorem Window.estimate {fees : List U256} {feed : Feed} (h : Window fees feed)
    (priority : BitVec 128) :
    Window (fees ++ [priority.setWidth 256]) (feed.estimate (some priority)) := by
  have hPriority : (priority.setWidth 256).toNat < 2 ^ 128 := by
    rw [BitVec.toNat_setWidth_of_le (by norm_num)]
    exact priority.isLt
  have hSmall : ∀ fee ∈ fees ++ [priority.setWidth 256], fee.toNat < 2 ^ 128 := by
    intro fee hMem
    rcases List.mem_append.mp hMem with hOld | hNew
    · exact h.small fee hOld
    · rw [List.mem_singleton.mp hNew]
      exact hPriority
  have hPush := push_lastFive fees (priority.setWidth 256)
  have hIndex : (lastFive (fees ++ [priority.setWidth 256])).length / 2 <
      ((lastFive (fees ++ [priority.setWidth 256])).mergeSort ordered).length := by
    rw [List.length_mergeSort, lastFive, List.length_drop, List.length_append,
      List.length_singleton]
    omega
  have hMedian := List.getElem?_eq_getElem hIndex
  generalize ((lastFive (fees ++ [priority.setWidth 256])).mergeSort ordered)[
    (lastFive (fees ++ [priority.setWidth 256])).length / 2] = median at hMedian
  have hFeed : feed.estimate (some priority) =
      { feed with
        priorityHistory := lastFive (fees ++ [priority.setWidth 256])
        priorityFee := overshoot median } := by
    simp only [Feed.estimate, h.history, hPush, List.length_mergeSort, hMedian]
  have hMem : median ∈ fees ++ [priority.setWidth 256] :=
    lastFive_subset (List.mem_mergeSort.mp (List.mem_of_getElem? hMedian))
  rw [hFeed]
  refine ⟨hSmall, rfl, fun hNil => absurd hNil (by simp), fun lo hi hMajority => ?_⟩
  obtain ⟨hLow, hHigh⟩ := median_bounds hMedian hMajority
  show lo * 112 / 100 ≤ (overshoot median).toNat ∧ (overshoot median).toNat ≤ hi * 112 / 100
  rw [overshoot_toNat (hSmall median hMem)]
  exact ⟨Nat.div_le_div_right (Nat.mul_le_mul_right _ hLow),
    Nat.div_le_div_right (Nat.mul_le_mul_right _ hHigh)⟩

/-! ## Runs -/

/-- **One block**, as the window sees it. -/
theorem Window.handleBlock {fees : List U256} {s : Feed × Nat} (h : Window fees s.1)
    (block : Block) : Window (fees ++ answers [block]) (handleBlock s block).1 := by
  have hBase : Window fees
      { s.1 with baseFee := (block.baseFeePerGas.getD 0).setWidth 256 } :=
    ⟨h.small, h.history, h.first, h.bounds⟩
  have hEstimate : Window (fees ++ answers [block])
      (Feed.estimate { s.1 with baseFee := (block.baseFeePerGas.getD 0).setWidth 256 }
        block.maxPriorityFeePerGas) := by
    cases hAnswer : block.maxPriorityFeePerGas with
    | none =>
        simp only [answers, List.filterMap_cons, hAnswer, Option.map_none, List.filterMap_nil,
          List.append_nil]
        exact hBase
    | some priority =>
        simp only [answers, List.filterMap_cons, hAnswer, Option.map_some, List.filterMap_nil]
        exact hBase.estimate priority
  unfold GasFeed.handleBlock
  simp only
  split
  · split
    · exact hEstimate
    · exact ⟨hEstimate.small, hEstimate.history, hEstimate.first, hEstimate.bounds⟩
  · exact hEstimate

theorem Window.foldl {fees : List U256} {s : Feed × Nat} (h : Window fees s.1)
    (blocks : List Block) :
    Window (fees ++ answers blocks) (blocks.foldl GasFeed.handleBlock s).1 := by
  induction blocks generalizing fees s with
  | nil =>
      rw [answers, List.filterMap_nil, List.append_nil]
      exact h
  | cons block rest ih =>
      have hSplit : answers (block :: rest) = answers [block] ++ answers rest := by
        simp only [answers]
        rw [← List.filterMap_append]
        rfl
      rw [hSplit, ← List.append_assoc]
      exact ih (h.handleBlock block)

theorem run_window (subscriptions : List (List Block)) :
    Window (answers subscriptions.flatten) (run subscriptions) := by
  have hAll : ∀ (rest : List (List Block)) (fees : List U256) (feed : Feed), Window fees feed →
      Window (fees ++ answers rest.flatten) (rest.foldl subscription feed) := by
    intro rest
    induction rest with
    | nil =>
        intro fees feed h
        rw [List.flatten_nil, answers, List.filterMap_nil, List.append_nil]
        exact h
    | cons blocks rest ih =>
        intro fees feed h
        have hFirst : Window fees (feed, 0).1 := h
        have hLater := ih _ _ (hFirst.foldl blocks)
        rw [List.append_assoc, answers, answers, ← List.filterMap_append] at hLater
        exact hLater
  exact hAll subscriptions [] initial
    ⟨by simp, rfl, fun _ => rfl, fun lo hi h => absurd h (by simp [Majority, lastFive])⟩

/-! ## The oracle -/

/-- The blocks that ask the oracle, when the counter stands at `count`. -/
def askedFrom (count : ℕ) (blocks : List Block) : List Block :=
  ((blocks.zipIdx (count + 1)).filter fun entry => entry.2 % 5 = 0).map Prod.fst

/-- Every fifth block of a subscription. -/
def asked (blocks : List Block) : List Block := askedFrom 0 blocks

theorem estimate_l1Fee (feed : Feed) (answer : Option (BitVec 128)) :
    (feed.estimate answer).l1Fee = feed.l1Fee := by
  cases answer with
  | none => rfl
  | some priority =>
      simp only [Feed.estimate]
      split
      · rfl
      · rfl

theorem foldl_l1Fee (blocks : List Block) (s : Feed × Nat) :
    (blocks.foldl handleBlock s).1.l1Fee =
      ((askedFrom s.2 blocks).filterMap Block.l1BaseFee).getLastD s.1.l1Fee := by
  induction blocks generalizing s with
  | nil => rfl
  | cons block rest ih =>
      rw [List.foldl_cons, ih]
      have hCount : (handleBlock s block).2 = s.2 + 1 := by
        unfold handleBlock
        simp only
        split
        · split
          · rfl
          · rfl
        · rfl
      rw [hCount]
      unfold askedFrom
      rw [List.zipIdx_cons]
      by_cases hFifth : (s.2 + 1) % 5 = 0
      · rw [List.filter_cons_of_pos (by simpa using hFifth), List.map_cons, List.filterMap_cons]
        cases hReply : block.l1BaseFee with
        | none =>
            simp only [handleBlock, hFifth, if_true, hReply, estimate_l1Fee]
        | some l1 =>
            simp only [handleBlock, hFifth, if_true, hReply]
            rw [List.getLastD_cons]
      · rw [List.filter_cons_of_neg (by simpa using hFifth)]
        simp only [handleBlock, hFifth, if_false, estimate_l1Fee]

theorem getLastD_append {α : Type} (l l' : List α) (d : α) :
    (l ++ l').getLastD d = l'.getLastD (l.getLastD d) := by
  rw [List.getLastD_eq_getLast?, List.getLastD_eq_getLast?, List.getLastD_eq_getLast?,
    List.getLast?_append]
  cases l'.getLast? with
  | none => rfl
  | some last => rfl

theorem run_l1 (subscriptions : List (List Block)) :
    (run subscriptions).l1Fee =
      ((subscriptions.flatMap asked).filterMap Block.l1BaseFee).getLastD 0 := by
  have hAll : ∀ (rest : List (List Block)) (feed : Feed),
      (rest.foldl subscription feed).l1Fee =
        ((rest.flatMap asked).filterMap Block.l1BaseFee).getLastD feed.l1Fee := by
    intro rest
    induction rest with
    | nil => exact fun _ => rfl
    | cons blocks rest ih =>
        intro feed
        have hFirst := foldl_l1Fee blocks (feed, 0)
        rw [List.foldl_cons, ih, List.flatMap_cons, List.filterMap_append, getLastD_append]
        show List.getLastD _ (blocks.foldl handleBlock (feed, 0)).1.l1Fee = _
        rw [hFirst]
        rfl
  exact hAll subscriptions initial

/-- **What the feed publishes**, after any subscriptions.  Where more than half of the last five
answers lie in a range, so does the published fee, with twelve percent on top, whatever the
others are; and the L1 fee is the last answer to a fifth block of a subscription. -/
theorem run_feed (subscriptions : List (List Block)) :
    (run subscriptions).priorityHistory = lastFive (answers subscriptions.flatten) ∧
      (answers subscriptions.flatten = [] → (run subscriptions).priorityFee = 0) ∧
      (∀ lo hi, Majority lo hi (lastFive (answers subscriptions.flatten)) →
        lo * 112 / 100 ≤ (run subscriptions).priorityFee.toNat ∧
          (run subscriptions).priorityFee.toNat ≤ hi * 112 / 100) ∧
      (run subscriptions).l1Fee =
        ((subscriptions.flatMap asked).filterMap Block.l1BaseFee).getLastD 0 := by
  have hWindow := run_window subscriptions
  exact ⟨hWindow.history, hWindow.first, hWindow.bounds, run_l1 subscriptions⟩

/- Two of five answers are absurd. -/
example : Majority 10 12 [10, 1000000, 11, 0, 12] := by decide

end SovereignShadow.Ports.GasFeed
